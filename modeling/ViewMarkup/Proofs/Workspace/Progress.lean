import ViewMarkup.Proofs.Workspace.Runs
import ViewMarkup.Proofs.Workspace.Sources

namespace ViewMarkup

deriving instance DecidableEq for RunError

/-- Whether a source could not be read. -/
def RunError.isUnreadable : RunError → Bool
  | unreadable _ _ => true
  | _ => false

/-- Neither an output nor a sidecar has a suffix of sources. -/
structure Settings.SparesSources (settings : Settings) : Prop where
  output : settings.dialect.suffix ∉ settings.sourceSuffixes
  sidecar : (".json" : Text) ∉ settings.sourceSuffixes

/-- What came of a source, and the text from which it came. -/
structure Made where
  text : Text
  outcome : Outcome

/-- The files of a source with their bytes: the output, and the sidecar if there is one. -/
def Made.files (made : Made) : List (Path × List UInt8) :=
  (made.outcome.output, Utf8.encode made.outcome.compilation.code) ::
    made.outcome.sidecar?.toList.map fun sidecar =>
      (sidecar, Utf8.encode (Sidecar.write made.outcome.source.toText (Document.ofText made.text)))

namespace Tree

theorem place_join (tree : Tree) (directory : Path) (names : List Text) :
    tree.place (directory.join ⟨.here, names⟩) = Location.follow (tree.place directory) names :=
  Location.follow_append _ _ _

theorem place_join_concat (tree : Tree) (directory : Path) (above : List Text) {stem extension : Text}
    (hstem : stem ≠ []) (hextension : Text.IsExtension extension) :
    tree.place (directory.join ⟨.here, above ++ [stem ++ '.' :: extension]⟩) =
      Location.follow (tree.place directory) above ++ [stem ++ '.' :: extension] := by
  have hup : stem ++ '.' :: extension ≠ ['.', '.'] := by
    have hlength := Path.two_lt_length_append hstem hextension
    intro hup
    simp [hup] at hlength
  rw [place_join, Location.follow_append, Location.follow_cons, if_neg hup, Location.follow_nil]

theorem readDocument_eq_error {tree : Tree} {source : Path} {error : ReadError}
    (hread : tree.readDocument source = .error error) : tree.readText source = .error error := by
  unfold readDocument at hread
  cases htext : tree.readText source with
  | error found =>
    rw [htext] at hread
    rw [Except.error.inj hread]
  | ok t =>
    rw [htext] at hread
    cases hread

end Tree

namespace Plan

variable {plan : Plan} {tree tree' : Tree} {source : Path} {log : List LogRecord}

theorem isExtension_json : Text.IsExtension "json" :=
  ⟨by decide, by decide, by decide⟩

section Makes

variable {t : Text} {outcome : Outcome} (hmakes : plan.Makes source t outcome)
include hmakes

theorem Makes.exists_output_eq : ∃ extension above stem,
    plan.settings.dialect.suffix = '.' :: extension ∧ Text.IsExtension extension ∧ stem ≠ [] ∧
      outcome.output = plan.outputDirectory.join ⟨.here, above ++ [stem ++ '.' :: extension]⟩ := by
  obtain ⟨extension, hsuffix, hextension⟩ := plan.settings.dialect.exists_extension
  have houtput := hmakes.output_eq
  rw [hsuffix] at houtput
  obtain ⟨hname, houtput⟩ := Path.output_eq_ok hextension houtput
  exact ⟨extension, _, _, hsuffix, hextension, Path.stem_ne_nil hname, houtput⟩

theorem Makes.output_suffix :
    outcome.output.names ≠ [] ∧ ∀ tree : Tree,
      Location.suffix (tree.place outcome.output) = plan.settings.dialect.suffix := by
  obtain ⟨extension, above, stem, hsuffix, hextension, hstem, houtput⟩ := hmakes.exists_output_eq
  refine ⟨by rw [houtput]; simp [Path.join], fun tree => ?_⟩
  rw [houtput, hsuffix, Tree.place_join_concat tree _ _ hstem hextension, Location.suffix_concat,
    Path.splitName_append hstem hextension]

theorem Makes.sidecar_suffix {sidecar : Path} (hsidecar : sidecar ∈ outcome.sidecar?) :
    sidecar.names ≠ [] ∧ ∀ tree : Tree, Location.suffix (tree.place sidecar) = ".json" := by
  obtain ⟨extension, above, stem, hsuffix, hextension, hstem, houtput⟩ := hmakes.exists_output_eq
  rw [hmakes.sidecar_eq] at hsidecar
  split at hsidecar
  · obtain rfl := Option.some.inj hsidecar
    have hjson : (".json" : Text) = '.' :: "json".toList := rfl
    rw [houtput, Path.replaceSuffix_join _ hstem hextension, hjson]
    refine ⟨by simp [Path.join], fun tree => ?_⟩
    rw [Tree.place_join_concat tree _ _ hstem isExtension_json, Location.suffix_concat,
      Path.splitName_append hstem isExtension_json]
  · cases hsidecar

/-- The files of a source are its output, and others with the suffix of sidecars. -/
theorem Makes.mem_files {file : Path × List UInt8} (hfile : file ∈ Made.files ⟨t, outcome⟩) :
    file.1.names ≠ [] ∧ (file.1 = outcome.output ∨ ∀ tree : Tree, Location.suffix (tree.place file.1) = ".json") := by
  obtain rfl | hfile := List.mem_cons.mp hfile
  · exact ⟨hmakes.output_suffix.1, .inl rfl⟩
  · obtain ⟨sidecar, hsidecar, rfl⟩ := List.mem_map.mp hfile
    obtain ⟨hnames, hsuffix⟩ := hmakes.sidecar_suffix (Option.mem_toList.mp hsidecar)
    exact ⟨hnames, .inr hsuffix⟩

end Makes

/-- What is written for a source are its files. -/
theorem writeOutput_eq_ok {t : Text} {compilation : Compilation} {outcome : Outcome}
    (hwrite : plan.writeOutput tree source (Document.ofText t) compilation = (tree', .ok outcome)) :
    tree.writeFiles (Made.files ⟨t, outcome⟩) = .ok tree' := by
  unfold writeOutput at hwrite
  split at hwrite
  · cases hwrite
  rename_i output houtput
  obtain ⟨extension, hsuffix, hextension⟩ := plan.settings.dialect.exists_extension
  rw [hsuffix] at houtput
  obtain ⟨-, houtput⟩ := Path.output_eq_ok hextension houtput
  split at hwrite
  · cases hwrite
  rename_i ready hmake
  split at hwrite
  · cases hwrite
  rename_i written hcode
  split at hwrite
  · -- The directories above the sidecar are those above the output, so none is missing any more.
    dsimp only at hwrite
    split at hwrite
    · cases hwrite
    rename_i final hsidecar
    obtain ⟨rfl, rfl⟩ := Prod.mk.inj hwrite |>.imp id Except.ok.inj
    obtain ⟨hkeeps, -, -, hdirectory⟩ := Tree.write_eq_ok (by rw [houtput]; simp [Path.join]) hcode
    have hparent : (output.replaceSuffix ".json").parent = output.parent := by
      simp [Path.parent, Path.replaceSuffix]
    refine Tree.writeFiles_cons_eq_ok_iff.mpr ⟨ready, written, hmake, hcode, ?_⟩
    refine Tree.writeFiles_cons_eq_ok_iff.mpr ⟨written, final, ?_, hsidecar, rfl⟩
    rw [hparent]
    exact Tree.makeDirectories_of_isDirectory (hkeeps.isDirectory hdirectory)
  · obtain ⟨rfl, rfl⟩ := Prod.mk.inj hwrite |>.imp id Except.ok.inj
    exact Tree.writeFiles_cons_eq_ok_iff.mpr ⟨ready, written, hmake, hcode, rfl⟩

theorem writeOutput_eq_error {document : Document} {compilation : Compilation} {error : RunError}
    (hwrite : plan.writeOutput tree source document compilation = (tree', .error error)) :
    error.isUnreadable = false := by
  unfold writeOutput at hwrite
  split at hwrite
  · cases hwrite
    rfl
  split at hwrite
  · cases hwrite
    rfl
  split at hwrite
  · cases hwrite
    rfl
  split at hwrite
  · dsimp only at hwrite
    split at hwrite
    · cases hwrite
      rfl
    · cases hwrite
  · cases hwrite

/-- A source that is compiled has its files written. -/
theorem compileSource_writes {outcome : Outcome}
    (hcompile : plan.compileSource tree source = (tree', log, .ok outcome)) :
    ∃ t, tree.readText source = .ok t ∧ plan.Makes source t outcome ∧
      tree.writeFiles (Made.files ⟨t, outcome⟩) = .ok tree' := by
  obtain ⟨t, compilation, compileLog, htext, hrun, hwrite⟩ := compileSource_eq_ok hcompile
  obtain ⟨output, houtput, rfl⟩ := writeOutput_ok hwrite
  exact ⟨t, htext, ⟨rfl, houtput, rfl, rfl, compileLog, hrun⟩, writeOutput_eq_ok hwrite⟩

/-- A source that cannot be read leaves the tree as it is. -/
theorem compileSource_unreadable {error : RunError}
    (hcompile : plan.compileSource tree source = (tree', log, .error error)) (hunreadable : error.isUnreadable) :
    tree' = tree ∧ ∃ reason, error = .unreadable source reason ∧ tree.readText source = .error reason := by
  unfold compileSource at hcompile
  split at hcompile
  · rename_i reason hread
    cases hcompile
    exact ⟨rfl, reason, rfl, Tree.readDocument_eq_error hread⟩
  split at hcompile
  · cases hcompile
    cases hunreadable
  split at hcompile
  · rename_i written fault hwrite
    cases hcompile
    rw [writeOutput_eq_error hwrite] at hunreadable
    cases hunreadable
  · cases hcompile

/-- What comes of a source with the text that it has in a tree. -/
structure Yields (plan : Plan) (tree : Tree) (made : Made) : Prop where
  text_eq : tree.readText made.outcome.source = .ok made.text
  makes : plan.Makes made.outcome.source made.text made.outcome

theorem names_ne_nil_of_yields {made : List Made} (hyields : ∀ one ∈ made, plan.Yields tree one) :
    ∀ file ∈ made.flatMap Made.files, file.1.names ≠ [] := by
  intro file hfile
  obtain ⟨one, hone, hfile⟩ := List.mem_flatMap.mp hfile
  exact ((hyields one hone).makes.mem_files hfile).1

/-- How far a run comes. The sources up to a rest yield what they do in the tree before the run, and their files are
written; the run stops if there is a rest, which then starts with a source that cannot be read. -/
structure Ends (plan : Plan) (tree : Tree) (sources : List Path) (made : List Made) (rest : List Path) (run : Run) :
    Prop where
  sources_eq : sources = made.map (fun one => one.outcome.source) ++ rest
  outcomes_eq : run.outcomes = made.map Made.outcome
  yields : ∀ one ∈ made, plan.Yields tree one
  written : tree.writeFiles (made.flatMap Made.files) = .ok run.tree
  stop : rest = [] ∧ run.error? = none ∨ ∃ source others reason, rest = source :: others ∧
    tree.readText source = .error reason ∧ run.error? = some (.unreadable source reason)

theorem Ends.mem_sources {sources others : List Path} {made : List Made} {run : Run}
    (hends : plan.Ends tree sources made (source :: others) run) : source ∈ sources := by
  rw [hends.sources_eq]
  exact List.mem_append_right _ List.mem_cons_self

/-- No file of a source takes the place of a source. -/
theorem Yields.suffix_not_mem {one : Made} (hyields : plan.Yields tree one) (hspares : plan.settings.SparesSources)
    {location : Location} (hlocation : ∃ file ∈ one.files, location = tree'.place file.1) :
    Location.suffix location ∉ plan.settings.sourceSuffixes := by
  obtain ⟨file, hfile, rfl⟩ := hlocation
  obtain houtput | hsuffix := (hyields.makes.mem_files hfile).2
  · rw [houtput, hyields.makes.output_suffix.2]
    exact hspares.output
  · rw [hsuffix]
    exact hspares.sidecar

/-- A run from a tree goes on as a run from the tree that its first source leaves. -/
theorem Ends.cons {one : Made} {sources rest : List Path} {made : List Made} {run : Run}
    (hends : plan.Ends tree' sources made rest run) (hyields : plan.Yields tree one)
    (hwrite : tree.writeFiles one.files = .ok tree')
    (hsame : ∀ other ∈ sources, tree'.readText other = tree.readText other) (log : List LogRecord) :
    plan.Ends tree (one.outcome.source :: sources) (one :: made) rest
      { run with outcomes := one.outcome :: run.outcomes, log := log } := by
  obtain ⟨rfl, houtcomes, hyieldsRest, hwritten, hstop⟩ := hends
  refine ⟨rfl, by rw [houtcomes, List.map_cons], ?_, ?_, ?_⟩
  · refine List.forall_mem_cons.mpr ⟨hyields, fun other hother => ⟨?_, (hyieldsRest other hother).makes⟩⟩
    rw [← hsame _ (List.mem_append_left rest (List.mem_map_of_mem hother))]
    exact (hyieldsRest other hother).text_eq
  · rw [List.flatMap_cons, Tree.writeFiles_append, hwrite]
    exact hwritten
  · obtain hdone | ⟨other, others, reason, rfl, hread, herror⟩ := hstop
    · exact .inl hdone
    · rw [hsame other (List.mem_append_right _ List.mem_cons_self)] at hread
      exact .inr ⟨other, others, reason, rfl, hread, herror⟩

/-- A run reads each source as it was before the run, up to the first that cannot be read. -/
theorem exists_ends (hspares : plan.settings.SparesSources) (hapart : tree.Apart) {sources : List Path}
    (hsources : ∀ source ∈ sources, tree.HoldsSource plan.settings.sourceSuffixes source)
    (hstop : (plan.compileSources tree sources).error?.all RunError.isUnreadable) :
    ∃ made rest, plan.Ends tree sources made rest (plan.compileSources tree sources) := by
  -- The induction is on the sources, for every tree: what one source writes changes no source after it.
  induction sources generalizing tree with
  | nil => exact ⟨[], [], rfl, rfl, by simp, rfl, .inl ⟨rfl, rfl⟩⟩
  | cons source sources ih =>
    rw [compileSources] at hstop ⊢
    split at hstop
    · rename_i tree' log error hcompile
      obtain ⟨rfl, reason, rfl, hread⟩ := compileSource_unreadable hcompile hstop
      exact ⟨[], source :: sources, rfl, rfl, by simp, rfl, .inr ⟨source, sources, reason, rfl, hread, rfl⟩⟩
    · rename_i tree' log outcome hcompile
      obtain ⟨t, hread, hmakes, hwrite⟩ := compileSource_writes hcompile
      obtain rfl := hmakes.source_eq
      obtain ⟨-, hsources⟩ := List.forall_mem_cons.mp hsources
      have hyields : plan.Yields tree ⟨t, outcome⟩ := ⟨hread, hmakes⟩
      have hkeeps := Tree.keeps_writeFiles (fun file hfile => (hmakes.mem_files hfile).1) hwrite
      have hsame : ∀ other ∈ sources, tree'.readText other = tree.readText other := fun other hother =>
        (hsources other hother).readText_eq hkeeps hapart fun location hlocation =>
          hyields.suffix_not_mem hspares hlocation
      obtain ⟨made, rest, hends⟩ := ih (hkeeps.apart hapart)
        (fun other hother => (hsources other hother).keeps hkeeps) hstop
      exact ⟨⟨t, outcome⟩ :: made, rest, hends.cons hyields hwrite hsame _⟩

end Plan

namespace Tree

variable {tree : Tree} {source : Path}

theorem checkSources_cons_of_ok {t : Text} (hread : tree.readText source = .ok t) (sources : List Path) :
    (tree.checkSources (source :: sources)).2 =
      (tree.checkSources sources).2.map ((source, (Document.ofText t).diagnostics) :: ·) := by
  rw [checkSources, readDocument, hread]
  rfl

theorem checkSources_cons_of_error {reason : ReadError} (hread : tree.readText source = .error reason)
    (sources : List Path) : (tree.checkSources (source :: sources)).2 = .error (.unreadable source reason) := by
  rw [checkSources, readDocument, hread]
  rfl

/-- A check finds in sources that can be read the diagnostics that their outcomes have. -/
theorem checkSources_append {plan : Plan} {made : List Made} (hyields : ∀ one ∈ made, plan.Yields tree one)
    (rest : List Path) :
    (tree.checkSources (made.map (fun one => one.outcome.source) ++ rest)).2 =
      (tree.checkSources rest).2.map
        (made.map (fun one => (one.outcome.source, one.outcome.diagnostics)) ++ ·) := by
  induction made with
  | nil =>
    simp only [List.map_nil, List.nil_append]
    cases (tree.checkSources rest).2 <;> rfl
  | cons one made ih =>
    obtain ⟨hone, hyields⟩ := List.forall_mem_cons.mp hyields
    rw [List.map_cons, List.cons_append, checkSources_cons_of_ok hone.text_eq, ih hyields, ← hone.makes.diagnostics_eq]
    cases (tree.checkSources rest).2 <;> rfl

/-- A check ends as a run ends. -/
theorem checkSources_of_ends {plan : Plan} {sources rest : List Path} {made : List Made} {run : Run}
    (hends : plan.Ends tree sources made rest run) :
    (tree.checkSources sources).2 =
      run.error?.elim (.ok (run.outcomes.map fun outcome => (outcome.source, outcome.diagnostics))) .error := by
  rw [hends.sources_eq, checkSources_append hends.yields, hends.outcomes_eq, List.map_map]
  obtain ⟨rfl, herror⟩ | ⟨source, others, reason, rfl, hread, herror⟩ := hends.stop
  · rw [herror, checkSources]
    simp [Except.map]
  · rw [herror, checkSources_cons_of_error hread]
    rfl

section Compile

variable (hregular : tree.Regular) (path : Path) (settings : Settings) (hspares : settings.SparesSources)
  (directory : Path) (root? : Option Path)
include hregular hspares

/-- A run that nothing but its sources can stop reads each source as it was before the run. -/
theorem exists_compile_ends
    (hstop : (tree.compile path settings directory root?).error?.all RunError.isUnreadable) :
    ∃ made rest, (tree.plan path settings directory root?).Ends tree (tree.sources path settings.sourceSuffixes) made
      rest (tree.compile path settings directory root?) := by
  obtain ⟨log, hcompile⟩ := tree.exists_compile_eq path settings directory root?
  rw [hcompile] at hstop ⊢
  obtain ⟨made, rest, hends⟩ := Plan.exists_ends hspares hregular.isApart
    (fun source hsource => hregular.holdsSource hsource) hstop
  exact ⟨made, rest, hends.sources_eq, hends.outcomes_eq, hends.yields, hends.written, hends.stop⟩

/-- A run that nothing stops comes to the end of its sources. -/
theorem exists_compile_ends_nil (hdone : (tree.compile path settings directory root?).error? = none) :
    ∃ made, (tree.plan path settings directory root?).Ends tree (tree.sources path settings.sourceSuffixes) made []
      (tree.compile path settings directory root?) := by
  obtain ⟨made, rest, hends⟩ := exists_compile_ends hregular path settings hspares directory root? (by rw [hdone]; rfl)
  obtain ⟨rfl, -⟩ | ⟨_, _, _, _, _, herror⟩ := hends.stop
  · exact ⟨made, hends⟩
  · rw [hdone] at herror
    cases herror

end Compile

/-- A card, and a page that is no text. -/
def brokenTree : Tree where
  files := [(["src", "Card.lnr"], Utf8.encode "Card()"), (["src", "Page.lnr"], [0xff])]
  directories := []
  here := []

/-- Outputs have sidecars. -/
def sidecarSettings : Settings := { Settings.default with writesSidecar := true }

theorem regular_brokenTree : brokenTree.Regular := by decide +kernel

theorem sparesSources_sidecarSettings : sidecarSettings.SparesSources :=
  ⟨by decide, by decide⟩

/-- The outputs go where the sources are, and the run stops at the page. -/
theorem error_compile_brokenTree :
    (brokenTree.compile (Path.ofText "src") sidecarSettings (Path.ofText "src") none).error? =
      some (.unreadable (Path.ofText "src/Page.lnr") (.utf8 ⟨.invalidStart, 0, 1, 0xff⟩)) := by
  have hfound : brokenTree.sources (Path.ofText "src") sidecarSettings.sourceSuffixes =
      [Path.ofText "src/Card.lnr", Path.ofText "src/Page.lnr"] := by
    rw [@sources_of_pairwise brokenTree (Path.ofText "src") ["src"] (by decide +kernel) (by decide +kernel)
      (by decide +kernel)]
    decide +kernel
  rw [compile_error?, plan_of_isDirectory (by decide +kernel) hfound, hfound]
  decide +kernel

/-- A run and a check of the same path find the same diagnostics, or stop at the same source for the same reason. -/
theorem compile_agrees_check (tree : Tree) (hregular : tree.Regular) (path : Path) (settings : Settings)
    (hspares : settings.SparesSources) (directory : Path) (root? : Option Path)
    (hstop : (tree.compile path settings directory root?).error?.all RunError.isUnreadable) :
    ((tree.compile path settings directory root?).error? = none ∧
      (tree.check path settings.sourceSuffixes).2 =
        .ok ((tree.compile path settings directory root?).outcomes.map fun outcome =>
          (outcome.source, outcome.diagnostics))) ∨
    ∃ before source after fault error,
      tree.sources path settings.sourceSuffixes = before ++ source :: after ∧
      (∀ other ∈ before, ∃ t, tree.readText other = .ok t) ∧ tree.readText source = .error (.utf8 fault) ∧
      error.message = "Failed to read " ++ source.toText ++ ": " ++ fault.message ∧
      (tree.compile path settings directory root?).error? = some error ∧
      (tree.check path settings.sourceSuffixes).2 = .error error := by
  obtain ⟨made, rest, hends⟩ := exists_compile_ends hregular path settings hspares directory root? hstop
  have hcheck := checkSources_of_ends hends
  obtain ⟨-, herror⟩ | ⟨source, others, reason, rfl, hread, herror⟩ := hends.stop
  · rw [herror] at hcheck
    exact .inl ⟨herror, hcheck⟩
  · obtain ⟨fault, rfl⟩ := (hregular.holdsSource hends.mem_sources).readText_eq_error hregular.isApart hread
    rw [herror] at hcheck
    refine .inr ⟨_, source, others, fault, _, hends.sources_eq, fun other hother => ?_, hread, rfl, herror, hcheck⟩
    obtain ⟨one, hone, rfl⟩ := List.mem_map.mp hother
    exact ⟨one.text, (hends.yields one hone).text_eq⟩

theorem compile_agrees_check_broken :
    (brokenTree.compile (Path.ofText "src") sidecarSettings (Path.ofText "src") none).error?.all
      RunError.isUnreadable ∧
    ∃ before source after fault error,
      brokenTree.sources (Path.ofText "src") sidecarSettings.sourceSuffixes = before ++ source :: after ∧
      (∀ other ∈ before, ∃ t, brokenTree.readText other = .ok t) ∧ brokenTree.readText source = .error (.utf8 fault) ∧
      error.message = "Failed to read " ++ source.toText ++ ": " ++ fault.message ∧
      (brokenTree.compile (Path.ofText "src") sidecarSettings (Path.ofText "src") none).error? = some error ∧
      (brokenTree.check (Path.ofText "src") sidecarSettings.sourceSuffixes).2 = .error error := by
  have hstop : (brokenTree.compile (Path.ofText "src") sidecarSettings (Path.ofText "src") none).error?.all
      RunError.isUnreadable := by
    rw [error_compile_brokenTree]
    rfl
  obtain ⟨hdone, -⟩ | hunreadable := compile_agrees_check brokenTree regular_brokenTree (Path.ofText "src")
    sidecarSettings sparesSources_sidecarSettings (Path.ofText "src") none hstop
  · rw [error_compile_brokenTree] at hdone
    cases hdone
  · exact ⟨hstop, hunreadable⟩

/-- A run that stops at a source that cannot be read leaves the tree before the run with the files of the sources
before that one, written in order, and with no source changed. -/
theorem compile_tree_of_unreadable (tree : Tree) (hregular : tree.Regular) (path : Path) (settings : Settings)
    (hspares : settings.SparesSources) (directory : Path) (root? : Option Path) {source : Path} {reason : ReadError}
    (hstop : (tree.compile path settings directory root?).error? = some (.unreadable source reason)) :
    ∃ (made : List Made) (after : List Path),
      tree.sources path settings.sourceSuffixes = made.map (fun one => one.outcome.source) ++ source :: after ∧
      (∃ fault, reason = .utf8 fault) ∧ tree.readText source = .error reason ∧
      (∀ one ∈ made, (tree.plan path settings directory root?).Yields tree one) ∧
      tree.writeFiles (made.flatMap Made.files) = .ok (tree.compile path settings directory root?).tree ∧
      (∀ location, (tree.compile path settings directory root?).tree.bytes? location =
        (((made.flatMap Made.files).reverse.find? fun file => tree.place file.1 = location).map Prod.snd).or
          (tree.bytes? location)) ∧
      ∀ location, Location.suffix location ∈ settings.sourceSuffixes →
        (tree.compile path settings directory root?).tree.bytes? location = tree.bytes? location := by
  obtain ⟨made, rest, hends⟩ := exists_compile_ends hregular path settings hspares directory root? (by rw [hstop]; rfl)
  obtain ⟨-, herror⟩ | ⟨found, others, _, rfl, hread, herror⟩ := hends.stop
  · rw [hstop] at herror
    cases herror
  rw [hstop] at herror
  cases herror
  have hfault := (hregular.holdsSource hends.mem_sources).readText_eq_error hregular.isApart hread
  have hnames := Plan.names_ne_nil_of_yields hends.yields
  refine ⟨made, others, hends.sources_eq, hfault, hread, hends.yields, hends.written,
    bytes?_writeFiles hnames hends.written, fun location hsuffix => ?_⟩
  refine (keeps_writeFiles hnames hends.written).bytes_eq ?_
  rintro ⟨file, hfile, hlocation⟩
  obtain ⟨one, hone, hfile⟩ := List.mem_flatMap.mp hfile
  exact (hends.yields one hone).suffix_not_mem hspares ⟨file, hfile, hlocation⟩ hsuffix

theorem compile_tree_of_unreadable_broken :
    ∃ (made : List Made) (after : List Path),
      brokenTree.sources (Path.ofText "src") sidecarSettings.sourceSuffixes =
        made.map (fun one => one.outcome.source) ++ Path.ofText "src/Page.lnr" :: after ∧
      (∀ one ∈ made, (brokenTree.plan (Path.ofText "src") sidecarSettings (Path.ofText "src") none).Yields brokenTree
        one) ∧
      brokenTree.writeFiles (made.flatMap Made.files) =
        .ok (brokenTree.compile (Path.ofText "src") sidecarSettings (Path.ofText "src") none).tree ∧
      (brokenTree.compile (Path.ofText "src") sidecarSettings (Path.ofText "src") none).tree.bytes?
        ["src", "Page.lnr"] = some [0xff] := by
  obtain ⟨made, after, hsources, -, -, hyields, hwritten, -, hsame⟩ := compile_tree_of_unreadable brokenTree
    regular_brokenTree (Path.ofText "src") sidecarSettings sparesSources_sidecarSettings (Path.ofText "src") none
    error_compile_brokenTree
  refine ⟨made, after, hsources, hyields, hwritten, ?_⟩
  rw [hsame _ (by decide +kernel)]
  decide +kernel

end Tree

end ViewMarkup
