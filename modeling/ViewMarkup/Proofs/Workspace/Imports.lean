import ViewMarkup.Proofs.React.Imports
import ViewMarkup.Proofs.Workspace.Discovery
import ViewMarkup.Proofs.Workspace.Runs

namespace ViewMarkup.Tree

/-- The output of a source below the root of a run keeps its place. -/
theorem SourceAt.exists_output {root source : Path} {above : List Text} {name : Text}
    (hsource : SourceAt root source above name) (directory : Path) (dialect : Dialect) :
    ∃ extension, Text.IsExtension extension ∧ source.output root directory dialect.suffix =
      .ok (directory.join ⟨.here, above ++ [(Path.splitName name).1 ++ '.' :: extension]⟩) := by
  obtain ⟨rfl, hnames⟩ := hsource
  obtain ⟨extension, hsuffix, hextension⟩ := dialect.exists_extension
  exact ⟨extension, hextension, hsuffix ▸ Path.output_join root directory hnames hextension⟩

/-- A source is right in the root exactly if the import of another source, read from the directory of its own
output, leads to the output of the other. -/
theorem SourceAt.samePlace_iff {root source target output output' : Path} {above above' : List Text}
    {name name' : Text} (hsource : SourceAt root source above name) (htarget : SourceAt root target above' name')
    {directory : Path} {dialect : Dialect} (houtput : source.output root directory dialect.suffix = .ok output)
    (houtput' : target.output root directory dialect.suffix = .ok output') :
    (output.parent.join (Path.ofText (target.recorded root))).SamePlace (output'.replaceSuffix []) ↔
      source.parent = root := by
  obtain ⟨_, _, hout⟩ := hsource.exists_output directory dialect
  obtain ⟨extension, hextension, hout'⟩ := htarget.exists_output directory dialect
  obtain rfl := Except.ok.inj (houtput.symm.trans hout)
  obtain rfl := Except.ok.inj (houtput'.symm.trans hout')
  obtain ⟨rfl, hnames⟩ := hsource
  obtain ⟨rfl, hnames'⟩ := htarget
  rw [Path.samePlace_recorded_iff root directory (List.forall_mem_append.mp hnames).1 hnames' hextension,
    Path.parent_join_eq_iff]

/-- An import of a tag that some source declares leads to the output of that source exactly if the importing
source is right in the root. -/
theorem import_reaches_output_iff (tree : Tree) (hformed : tree.WellFormed) {root : Path}
    (hroot : tree.isDirectory root) (settings : Settings) (directory : Path) {outcome : Outcome}
    (houtcome : outcome ∈ (tree.compile root settings directory none).outcomes)
    (hmodule : outcome.compilation.isFallback = false) :
    ∃ t, (tree.plan root settings directory none).Makes outcome.source t outcome ∧
      (React.moduleHead (Document.ofText t)).Opens (tree.components root settings.sourceSuffixes).1 settings.options
        outcome.compilation.code ∧
      ∀ tag ∈ (React.moduleHead (Document.ofText t)).locals, ∀ target,
        tree.declaring? root settings.sourceSuffixes tag = some target →
        ∃ (path : Text) (output : Path),
          React.localImport (tree.components root settings.sourceSuffixes).1 tag =
            "import " ++ tag ++ " from './" ++ path ++ "';" ∧
          target.output root directory settings.dialect.suffix = .ok output ∧
          ((outcome.output.parent.join (Path.ofText path)).SamePlace (output.replaceSuffix []) ↔
            outcome.source.parent = root) := by
  -- The outcome comes from a text, and its code is what is generated for that text with the components found
  -- below the root.
  have hdefault : tree.defaultRoot root = root := if_pos hroot
  rw [compile_outcomes] at houtcome
  obtain ⟨source, hsource, t, hmakes⟩ := Plan.compileSources_makes houtcome
  obtain rfl := hmakes.source_eq
  obtain ⟨_, hrun⟩ := hmakes.compiled
  have hcode := Compilation.generate_of_run hrun hmodule
  have houtput := hmakes.output_eq
  simp only [plan, Option.getD_none, hdefault] at hcode houtput
  refine ⟨t, hmakes, React.opens_moduleHead hcode, fun tag _ target htarget => ?_⟩
  -- Both the importing and the imported source are below the root, so their outputs keep their places.
  obtain ⟨above, name, hplace⟩ := hformed.exists_sourceAt hroot hsource
  obtain ⟨above', name', hplace'⟩ := hformed.exists_sourceAt hroot (List.mem_of_find?_eq_some htarget)
  obtain ⟨_, _, houtput'⟩ := hplace'.exists_output directory settings.dialect
  have hlookup : (tree.components root settings.sourceSuffixes).1.lookup tag = some (target.recorded root) := by
    rw [lookup_components tree hroot, htarget, Option.map_some]
  exact ⟨target.recorded root, _, React.localImport_of_lookup hlookup, houtput',
    hplace.samePlace_iff hplace' houtput houtput'⟩

/-- A page and a card, both right in the root. -/
def flatTree : Tree where
  files := [(["src", "Card.lnr"], Utf8.encode "Card()"), (["src", "Page.lnr"], Utf8.encode "Page()\n:Card")]
  directories := []
  here := []

theorem sources_flatTree :
    flatTree.sources (Path.ofText "src") Settings.default.sourceSuffixes =
      [Path.ofText "src/Card.lnr", Path.ofText "src/Page.lnr"] := by
  rw [@sources_of_pairwise flatTree (Path.ofText "src") ["src"] (by decide +kernel) (by decide +kernel)
    (by decide +kernel)]
  decide +kernel

theorem import_reaches_output_iff_flat :
    ∃ outcome ∈ (flatTree.compile (Path.ofText "src") Settings.default (Path.ofText "dist") none).outcomes,
      outcome.source = Path.ofText "src/Page.lnr" ∧
      "import Card from './Card';".toList ∈ Text.split '\n' outcome.compilation.code ∧
      ∃ t, (React.moduleHead (Document.ofText t)).Opens
          (flatTree.components (Path.ofText "src") Settings.default.sourceSuffixes).1 Settings.default.options
          outcome.compilation.code ∧
        ∀ tag ∈ (React.moduleHead (Document.ofText t)).locals, ∀ target,
          flatTree.declaring? (Path.ofText "src") Settings.default.sourceSuffixes tag = some target →
          ∃ (path : Text) (output : Path),
            React.localImport (flatTree.components (Path.ofText "src") Settings.default.sourceSuffixes).1 tag =
              "import " ++ tag ++ " from './" ++ path ++ "';" ∧
            target.output (Path.ofText "src") (Path.ofText "dist") Settings.default.dialect.suffix = .ok output ∧
            (outcome.output.parent.join (Path.ofText path)).SamePlace (output.replaceSuffix []) := by
  have hroot : flatTree.isDirectory (Path.ofText "src") := by decide +kernel
  have hpage : ∃ outcome ∈ (flatTree.compile (Path.ofText "src") Settings.default (Path.ofText "dist") none).outcomes,
      outcome.source = Path.ofText "src/Page.lnr" ∧ outcome.compilation.isFallback = false ∧
      "import Card from './Card';".toList ∈ Text.split '\n' outcome.compilation.code := by
    rw [compile_outcomes_of_sources hroot sources_flatTree]
    decide +kernel
  obtain ⟨outcome, houtcome, hsource, hmodule, hline⟩ := hpage
  obtain ⟨t, _, hopens, himports⟩ := import_reaches_output_iff flatTree (by decide +kernel) hroot Settings.default
    (Path.ofText "dist") houtcome hmodule
  refine ⟨outcome, houtcome, hsource, hline, t, hopens, fun tag htag target htarget => ?_⟩
  obtain ⟨path, output, himport, houtput, hreaches⟩ := himports tag htag target htarget
  refine ⟨path, output, himport, houtput, hreaches.mpr ?_⟩
  rw [hsource]
  decide +kernel

/-- A page in a directory of its own, and a card in another. -/
def nestedTree : Tree where
  files := [(["src", "pages", "Home.lnr"], Utf8.encode "Home()\n:Card"),
    (["src", "ui", "Card.lnr"], Utf8.encode "Card()")]
  directories := []
  here := []

theorem sources_nestedTree :
    nestedTree.sources (Path.ofText "src") Settings.default.sourceSuffixes =
      [Path.ofText "src/pages/Home.lnr", Path.ofText "src/ui/Card.lnr"] := by
  rw [@sources_of_pairwise nestedTree (Path.ofText "src") ["src"] (by decide +kernel) (by decide +kernel)
    (by decide +kernel)]
  decide +kernel

/-- The page imports the card from its place below the root, which is not where the card is from there. -/
theorem nested_import_misses_output :
    (nestedTree.compile (Path.ofText "src") Settings.default (Path.ofText "dist") none).outcomes.map
        (fun outcome => (outcome.source, outcome.output, outcome.compilation.code)) =
      [(Path.ofText "src/pages/Home.lnr", Path.ofText "dist/pages/Home.tsx",
        Text.join "\n" ["// AUTO-GENERATED by lunor", "import Card from './ui/Card';", "",
          "export default function Home() \x7b", "  return (", "    <>", "      <Card />", "    </>", "  );", "\x7d", ""]),
       (Path.ofText "src/ui/Card.lnr", Path.ofText "dist/ui/Card.tsx",
        Text.join "\n" ["// AUTO-GENERATED by lunor", "", "export default function Card() \x7b", "  return (", "    <>",
          "    </>", "  );", "\x7d", ""])] ∧
      nestedTree.declaring? (Path.ofText "src") Settings.default.sourceSuffixes "Card" =
        some (Path.ofText "src/ui/Card.lnr") ∧
      (Path.ofText "dist/pages/Home.tsx").parent.join (Path.ofText "ui/Card") = Path.ofText "dist/pages/ui/Card" ∧
      (Path.ofText "dist/ui/Card.tsx").replaceSuffix [] = Path.ofText "dist/ui/Card" := by
  refine ⟨?_, ?_, by decide +kernel, by decide +kernel⟩
  · rw [compile_outcomes_of_sources (by decide +kernel) sources_nestedTree]
    decide +kernel
  · rw [declaring?, sources_nestedTree]
    decide +kernel

end ViewMarkup.Tree
