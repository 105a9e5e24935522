import ViewMarkup.Proofs.Path
import ViewMarkup.Workspace.Compile

namespace ViewMarkup

theorem Dialect.exists_extension (dialect : Dialect) :
    ∃ extension, dialect.suffix = '.' :: extension ∧ Text.IsExtension extension := by
  cases dialect with
  | tsx => exact ⟨"tsx", rfl, by decide, by decide, by decide⟩
  | jsx => exact ⟨"jsx", rfl, by decide, by decide, by decide⟩

theorem Compilation.generate_of_run {document : Document} {resolver : Resolver} {options : React.Options}
    {compilation : Compilation} {log : List LogRecord}
    (hrun : run document resolver options = .ok (compilation, log)) (hmodule : compilation.isFallback = false) :
    React.generate document resolver options = .ok compilation.code := by
  unfold run at hrun
  split at hrun
  · rename_i code hcode
    cases hrun
    exact hcode
  · split at hrun
    · cases hrun
      cases hmodule
    · cases hrun

theorem Tree.readDocument_eq_ok {tree : Tree} {source : Path} {document : Document} {log : List LogRecord}
    (hread : tree.readDocument source = .ok (document, log)) :
    ∃ t, tree.readText source = .ok t ∧ document = Document.ofText t := by
  unfold readDocument at hread
  cases htext : tree.readText source with
  | error error =>
    rw [htext] at hread
    cases hread
  | ok t =>
    rw [htext] at hread
    exact ⟨t, rfl, congrArg Prod.fst (Except.ok.inj hread).symm⟩

namespace Plan

/-- What a plan makes of a source with a text. -/
structure Makes (plan : Plan) (source : Path) (t : Text) (outcome : Outcome) : Prop where
  source_eq : outcome.source = source
  output_eq : source.output plan.root plan.outputDirectory plan.settings.dialect.suffix = .ok outcome.output
  sidecar_eq : outcome.sidecar? =
    if plan.settings.writesSidecar then some (outcome.output.replaceSuffix ".json") else none
  diagnostics_eq : outcome.diagnostics = (Document.ofText t).diagnostics
  compiled : ∃ log, Compilation.run (Document.ofText t) plan.resolver plan.settings.options =
    .ok (outcome.compilation, log)

variable {plan : Plan}

theorem writeOutput_ok {tree tree' : Tree} {source : Path} {document : Document} {compilation : Compilation}
    {outcome : Outcome} (hwrite : plan.writeOutput tree source document compilation = (tree', .ok outcome)) :
    ∃ output, source.output plan.root plan.outputDirectory plan.settings.dialect.suffix = .ok output ∧
      outcome = ⟨source, output, if plan.settings.writesSidecar then some (output.replaceSuffix ".json") else none,
        document.diagnostics, compilation⟩ := by
  unfold writeOutput at hwrite
  split at hwrite
  · cases hwrite
  rename_i output houtput
  refine ⟨output, houtput, ?_⟩
  split at hwrite
  · cases hwrite
  split at hwrite
  · cases hwrite
  split at hwrite
  · rename_i hsidecar
    rw [if_pos hsidecar]
    dsimp only at hwrite
    split at hwrite
    · cases hwrite
    · exact (Except.ok.inj (congrArg Prod.snd hwrite)).symm
  · rename_i hsidecar
    rw [if_neg hsidecar]
    exact (Except.ok.inj (congrArg Prod.snd hwrite)).symm

/-- A source that is compiled was read, gave code, and was written. -/
theorem compileSource_eq_ok {tree tree' : Tree} {source : Path} {log : List LogRecord} {outcome : Outcome}
    (hcompile : plan.compileSource tree source = (tree', log, .ok outcome)) :
    ∃ t compilation compileLog, tree.readText source = .ok t ∧
      Compilation.run (Document.ofText t) plan.resolver plan.settings.options = .ok (compilation, compileLog) ∧
      plan.writeOutput tree source (Document.ofText t) compilation = (tree', .ok outcome) := by
  unfold compileSource at hcompile
  split at hcompile
  · cases hcompile
  rename_i document readLog hread
  obtain ⟨t, htext, rfl⟩ := Tree.readDocument_eq_ok hread
  split at hcompile
  · cases hcompile
  rename_i compilation compileLog hrun
  refine ⟨t, compilation, compileLog, htext, hrun, ?_⟩
  split at hcompile
  · cases hcompile
  rename_i written made hwrite
  obtain rfl : written = tree' := congrArg Prod.fst hcompile
  obtain rfl : made = outcome := Except.ok.inj (congrArg (fun answer => answer.2.2) hcompile)
  exact hwrite

/-- What one source gives comes from its text. -/
theorem compileSource_makes {tree tree' : Tree} {source : Path} {log : List LogRecord} {outcome : Outcome}
    (hcompile : plan.compileSource tree source = (tree', log, .ok outcome)) :
    ∃ t, tree.readText source = .ok t ∧ plan.Makes source t outcome := by
  obtain ⟨t, compilation, compileLog, htext, hrun, hwrite⟩ := compileSource_eq_ok hcompile
  obtain ⟨output, houtput, rfl⟩ := writeOutput_ok hwrite
  exact ⟨t, htext, rfl, houtput, rfl, rfl, compileLog, hrun⟩

/-- Whatever a run gives comes from the text of one of its sources. -/
theorem compileSources_makes {tree : Tree} {sources : List Path} {outcome : Outcome}
    (houtcome : outcome ∈ (plan.compileSources tree sources).outcomes) :
    ∃ source ∈ sources, ∃ t, plan.Makes source t outcome := by
  induction sources generalizing tree with
  | nil => cases houtcome
  | cons source sources ih =>
    unfold compileSources at houtcome
    split at houtcome
    · cases houtcome
    · rename_i tree' log made hcompile
      obtain rfl | houtcome := List.mem_cons.mp houtcome
      · obtain ⟨t, _, hmakes⟩ := compileSource_makes hcompile
        exact ⟨source, List.mem_cons_self, t, hmakes⟩
      · obtain ⟨other, hother, hmakes⟩ := ih houtcome
        exact ⟨other, List.mem_cons_of_mem source hother, hmakes⟩

end Plan

namespace Tree

/-- The plan of a run. -/
def plan (tree : Tree) (path : Path) (settings : Settings) (outputDirectory : Path) (root? : Option Path) : Plan where
  settings := settings
  root := root?.getD (tree.defaultRoot path)
  outputDirectory := outputDirectory
  resolver := (tree.resolver (root?.getD (tree.defaultRoot path)) settings.sourceSuffixes).1

/-- A run compiles the sources at its path with its plan. -/
theorem exists_compile_eq (tree : Tree) (path : Path) (settings : Settings) (outputDirectory : Path)
    (root? : Option Path) :
    ∃ log, tree.compile path settings outputDirectory root? =
      { (tree.plan path settings outputDirectory root?).compileSources tree
        (tree.sources path settings.sourceSuffixes) with log := log } := by
  unfold compile plan
  dsimp only
  cases tree.sources path settings.sourceSuffixes with
  | nil => exact ⟨[], rfl⟩
  | cons source sources => exact ⟨_, rfl⟩

section Compile

variable (tree : Tree) (path : Path) (settings : Settings) (outputDirectory : Path) (root? : Option Path)

theorem compile_outcomes :
    (tree.compile path settings outputDirectory root?).outcomes =
      ((tree.plan path settings outputDirectory root?).compileSources tree
        (tree.sources path settings.sourceSuffixes)).outcomes := by
  obtain ⟨log, hcompile⟩ := tree.exists_compile_eq path settings outputDirectory root?
  rw [hcompile]

theorem compile_tree :
    (tree.compile path settings outputDirectory root?).tree =
      ((tree.plan path settings outputDirectory root?).compileSources tree
        (tree.sources path settings.sourceSuffixes)).tree := by
  obtain ⟨log, hcompile⟩ := tree.exists_compile_eq path settings outputDirectory root?
  rw [hcompile]

theorem compile_error? :
    (tree.compile path settings outputDirectory root?).error? =
      ((tree.plan path settings outputDirectory root?).compileSources tree
        (tree.sources path settings.sourceSuffixes)).error? := by
  obtain ⟨log, hcompile⟩ := tree.exists_compile_eq path settings outputDirectory root?
  rw [hcompile]

end Compile

/-- The plan of a run, if the sources below its root are known. -/
theorem plan_of_sources {tree : Tree} {path root : Path} {settings : Settings} {root? : Option Path}
    {found : List Path} (hdefault : root?.getD (tree.defaultRoot path) = root) (hroot : tree.isDirectory root)
    (hfound : tree.sources root settings.sourceSuffixes = found) (outputDirectory : Path) :
    tree.plan path settings outputDirectory root? =
      ⟨settings, root, outputDirectory, (found.foldl (tree.surveySource root) ⟨[], []⟩).paths, routerTags⟩ := by
  rw [plan, hdefault, resolver, components, if_pos hroot, hfound]

theorem plan_of_isDirectory {tree : Tree} {root : Path} {settings : Settings} {found : List Path}
    (hroot : tree.isDirectory root) (hfound : tree.sources root settings.sourceSuffixes = found)
    (outputDirectory : Path) :
    tree.plan root settings outputDirectory none =
      ⟨settings, root, outputDirectory, (found.foldl (tree.surveySource root) ⟨[], []⟩).paths, routerTags⟩ := by
  have hdefault : (none : Option Path).getD (tree.defaultRoot root) = root := if_pos hroot
  exact plan_of_sources hdefault hroot hfound outputDirectory

/-- What a run of a directory gives, if its sources are known. -/
theorem compile_outcomes_of_sources {tree : Tree} {root : Path} {settings : Settings} {found : List Path}
    (hroot : tree.isDirectory root) (hfound : tree.sources root settings.sourceSuffixes = found)
    (outputDirectory : Path) :
    (tree.compile root settings outputDirectory none).outcomes =
      (Plan.compileSources ⟨settings, root, outputDirectory,
        (found.foldl (tree.surveySource root) ⟨[], []⟩).paths, routerTags⟩ tree found).outcomes := by
  rw [compile_outcomes, plan_of_isDirectory hroot hfound, hfound]

end Tree

end ViewMarkup
