import ViewMarkup.Proofs.Workspace.Progress

namespace ViewMarkup

namespace Path

variable {source other root : Path}

/-- The directory of a source is the root, or is not below it. -/
def IsFlat (source root : Path) : Prop :=
  source.parent = root ∨ source.parent.relativeTo? root = none

/-- Two sources have the same stem, and are in the same directory or are both flat. -/
def SharesOutput (root source other : Path) : Prop :=
  source.stem = other.stem ∧ (source.parent = other.parent ∨ source.IsFlat root ∧ other.IsFlat root)

instance (source root : Path) : Decidable (source.IsFlat root) :=
  inferInstanceAs (Decidable (_ ∨ _))

instance (root source other : Path) : Decidable (SharesOutput root source other) :=
  inferInstanceAs (Decidable (_ ∧ _))

theorem parent_join_name (hname : source.name ≠ []) : source.parent.join ⟨.here, [source.name]⟩ = source := by
  have hnames : source.names ≠ [] := fun hempty => hname (by rw [name, hempty]; rfl)
  rw [join, parent, dropLast_append_name hnames]

theorem join_join {above : Path} (hanchor : above.anchor = .here) (names : List Text) :
    (root.join above).join ⟨.here, names⟩ = root.join ⟨.here, above.names ++ names⟩ := by
  simp only [join, hanchor, List.append_assoc]

/-- What is between a root and a source is between the root and the directory of the source. -/
theorem between_eq (hname : (source.standIn root).name ≠ []) :
    source.between root = ((source.parent.relativeTo? root).map Path.names).getD [] := by
  obtain ⟨hsource, -⟩ := exists_standIn hname
  unfold between
  cases hrelative : source.relativeTo? root with
  | some relative =>
    rw [standIn, hrelative, Option.getD_some] at hname
    obtain ⟨anchor, names⟩ := relative
    obtain ⟨rfl, rfl⟩ := relativeTo?_eq_some_iff.mp hrelative
    have hnames : names ≠ [] := fun hempty => hname (by rw [hempty]; rfl)
    have hparent : (root.join ⟨.here, names⟩).parent = root.join ⟨.here, names.dropLast⟩ := by
      simp only [parent, join, List.dropLast_append_of_ne_nil hnames]
    rw [hparent, relativeTo?_join]
    rfl
  | none =>
    -- A source whose directory is below the root is below the root itself.
    cases habove : source.parent.relativeTo? root with
    | none => rfl
    | some above =>
      obtain ⟨hanchor, hparent⟩ := relativeTo?_eq_some_iff.mp habove
      have hbelow : source = root.join ⟨.here, above.names ++ [source.name]⟩ :=
        calc source = source.parent.join ⟨.here, [source.name]⟩ := (parent_join_name hsource).symm
          _ = (root.join above).join ⟨.here, [source.name]⟩ := by rw [← hparent]
          _ = root.join ⟨.here, above.names ++ [source.name]⟩ := join_join hanchor _
      rw [hbelow, relativeTo?_join] at hrelative
      cases hrelative

theorem between_eq_nil_iff (hname : (source.standIn root).name ≠ []) :
    source.between root = [] ↔ source.IsFlat root := by
  rw [between_eq hname, IsFlat]
  cases hrelative : source.parent.relativeTo? root with
  | none => simp
  | some relative =>
    obtain ⟨anchor, names⟩ := relative
    obtain ⟨rfl, hparent⟩ := relativeTo?_eq_some_iff.mp hrelative
    rw [hparent]
    obtain ⟨_, rootNames⟩ := root
    simp [join]

/-- Sources have the same directories between them and the root exactly if they are in one directory or flat. -/
theorem between_eq_between_iff (hname : (source.standIn root).name ≠ []) (hname' : (other.standIn root).name ≠ []) :
    source.between root = other.between root ↔
      source.parent = other.parent ∨ source.IsFlat root ∧ other.IsFlat root := by
  constructor
  · intro hsame
    by_cases hflat : source.IsFlat root
    · refine .inr ⟨hflat, (between_eq_nil_iff hname').mp ?_⟩
      rw [← hsame, between_eq_nil_iff hname]
      exact hflat
    · have hflat' : ¬ other.IsFlat root := by
        rwa [← between_eq_nil_iff hname', ← hsame, between_eq_nil_iff hname]
      obtain ⟨above, habove⟩ := Option.ne_none_iff_exists'.mp (not_or.mp hflat).2
      obtain ⟨above', habove'⟩ := Option.ne_none_iff_exists'.mp (not_or.mp hflat').2
      rw [between_eq hname, between_eq hname', habove, habove'] at hsame
      obtain ⟨hanchor, hparent⟩ := relativeTo?_eq_some_iff.mp habove
      obtain ⟨hanchor', hparent'⟩ := relativeTo?_eq_some_iff.mp habove'
      have hnames : above.names = above'.names := hsame
      exact .inl (by rw [hparent, hparent', join, join, hanchor, hanchor', hnames])
  · rintro (hparent | ⟨hflat, hflat'⟩)
    · rw [between_eq hname, between_eq hname', hparent]
    · rw [(between_eq_nil_iff hname).mpr hflat, (between_eq_nil_iff hname').mpr hflat']

/-- The sources below a path have the same first directories between them and a root, and behind those only
directories below the path. -/
theorem exists_between (path root : Path) : ∃ common, ∀ names, names ≠ [] →
    ∃ inner, (path.join ⟨.here, names⟩).between root = common ++ inner ∧ ∀ name ∈ inner, name ∈ names := by
  cases habove : path.relativeTo? root with
  | some above =>
    obtain ⟨hanchor, rfl⟩ := relativeTo?_eq_some_iff.mp habove
    refine ⟨above.names, fun names hnames => ⟨names.dropLast, ?_, List.dropLast_subset names⟩⟩
    rw [between, join_join hanchor, relativeTo?_join, Option.map_some, Option.getD_some,
      List.dropLast_append_of_ne_nil hnames]
  | none =>
    refine ⟨[], fun names _ => ⟨_, (List.nil_append _).symm, fun name hname => ?_⟩⟩
    unfold between at hname
    cases hrelative : (path.join ⟨.here, names⟩).relativeTo? root with
    | none =>
      rw [hrelative] at hname
      cases hname
    | some relative =>
      rw [hrelative] at hname
      obtain ⟨hanchor, hjoin⟩ := relativeTo?_eq_some_iff.mp hrelative
      rw [join, join, hanchor] at hjoin
      obtain ⟨hanchors, hsplit⟩ := Path.mk.inj hjoin
      obtain ⟨middle, -, hnames⟩ | ⟨middle, hpath, -⟩ := List.append_eq_append_iff.mp hsplit
      · have hnames : names = middle ++ relative.names := hnames
        rw [hnames]
        exact List.mem_append_right _ (List.dropLast_subset _ hname)
      · have hbelow : path.relativeTo? root = some ⟨.here, middle⟩ :=
          relativeTo?_eq_some_iff.mpr ⟨rfl, by rw [join, ← hanchors, ← hpath]⟩
        rw [habove] at hbelow
        cases hbelow

end Path

namespace Tree

variable {tree : Tree} {path root directory source other output output' : Path} {suffixes : List Text}
  {extension : Text}

theorem Regular.exists_between (hregular : tree.Regular) (path root : Path) (suffixes : List Text) :
    ∃ common, ∀ source ∈ tree.sources path suffixes,
      ∃ inner, source.between root = common ++ inner ∧ ∀ name ∈ inner, name ≠ ['.'] ∧ name ≠ ['.', '.'] := by
  by_cases hfile : tree.isFile path
  · refine ⟨path.between root, fun source hsource => ⟨[], ?_, by simp⟩⟩
    unfold sources at hsource
    rw [if_pos hfile] at hsource
    rw [List.mem_singleton.mp (List.mem_filter.mp hsource).1, List.append_nil]
  · obtain ⟨common, hcommon⟩ := path.exists_between root
    refine ⟨common, fun source hsource => ?_⟩
    obtain ⟨-, ⟨hfound, -⟩ | ⟨location, -, names, hnames, rfl⟩⟩ := mem_sources hsource
    · exact absurd hfound hfile
    obtain ⟨hne, file, hfile, hplace⟩ := mem_filesBelow hnames
    obtain ⟨inner, hbetween, hinner⟩ := hcommon names hne
    refine ⟨inner, hbetween, fun name hname => ?_⟩
    have hmem : name ∈ file.1 := hplace ▸ List.mem_append_right _ (hinner name hname)
    exact ⟨(hregular.names file hfile name hmem).ne_dot, fun hup => hregular.not_mem_up file hfile (hup ▸ hmem)⟩

theorem place_output (tree : Tree) {common inner : List Text} (hextension : Text.IsExtension extension)
    (houtput : source.output root directory ('.' :: extension) = .ok output)
    (hbetween : source.between root = common ++ inner) (hinner : ∀ name ∈ inner, name ≠ ['.'] ∧ name ≠ ['.', '.']) :
    tree.place output = Location.follow (tree.place directory) (common.filter (· != ['.'])) ++ inner ++
      [source.stem ++ '.' :: extension] := by
  obtain ⟨hname, rfl⟩ := Path.output_eq_ok hextension houtput
  have hkept : inner.filter (· != ['.']) = inner :=
    List.filter_eq_self.mpr fun name hmem => bne_iff_ne.mpr (hinner name hmem).1
  have hup : ['.', '.'] ∉ inner := fun hmem => (hinner _ hmem).2 rfl
  rw [hbetween, List.filter_append, hkept, place_join_concat tree directory _ (Path.stem_ne_nil hname) hextension,
    Location.follow_append, Location.follow_of_not_mem hup]

/-- Outputs of a run are at one place exactly if their sources share an output. -/
theorem Regular.place_output_eq_iff (hregular : tree.Regular) (hsource : source ∈ tree.sources path suffixes)
    (hother : other ∈ tree.sources path suffixes) (hextension : Text.IsExtension extension)
    (houtput : source.output root directory ('.' :: extension) = .ok output)
    (houtput' : other.output root directory ('.' :: extension) = .ok output') :
    tree.place output = tree.place output' ↔ Path.SharesOutput root source other := by
  obtain ⟨hname, -⟩ := Path.standIn_of_output hextension houtput
  obtain ⟨hname', -⟩ := Path.standIn_of_output hextension houtput'
  obtain ⟨common, hcommon⟩ := hregular.exists_between path root suffixes
  obtain ⟨inner, hbetween, hinner⟩ := hcommon source hsource
  obtain ⟨inner', hbetween', hinner'⟩ := hcommon other hother
  rw [place_output tree hextension houtput hbetween hinner, place_output tree hextension houtput' hbetween' hinner',
    Path.SharesOutput, ← Path.between_eq_between_iff hname hname', hbetween, hbetween']
  simp [and_comm]

/-- A path to an output tells no more than its place. -/
theorem Regular.output_eq_iff (hregular : tree.Regular) (hsource : source ∈ tree.sources path suffixes)
    (hother : other ∈ tree.sources path suffixes) (hextension : Text.IsExtension extension)
    (houtput : source.output root directory ('.' :: extension) = .ok output)
    (houtput' : other.output root directory ('.' :: extension) = .ok output') :
    output = output' ↔ tree.place output = tree.place output' := by
  refine ⟨fun hsame => by rw [hsame], fun hplace => ?_⟩
  obtain ⟨hstem, hparent⟩ := (hregular.place_output_eq_iff hsource hother hextension houtput houtput').mp hplace
  obtain ⟨hname, -⟩ := Path.standIn_of_output hextension houtput
  obtain ⟨hname', -⟩ := Path.standIn_of_output hextension houtput'
  rw [(Path.output_eq_ok hextension houtput).2, (Path.output_eq_ok hextension houtput').2, hstem,
    (Path.between_eq_between_iff hname hname').mpr hparent]

end Tree

namespace Plan

variable {plan : Plan} {tree : Tree} {path : Path} {made : List Made} {suffixes : List Text}

/-- Sources that a run has made have one output exactly if they share one, and then at one place. -/
theorem Yields.output_eq_iff {one two : Made} (hone : plan.Yields tree one) (htwo : plan.Yields tree two)
    (hregular : tree.Regular) (hsource : one.outcome.source ∈ tree.sources path suffixes)
    (hother : two.outcome.source ∈ tree.sources path suffixes) :
    (one.outcome.output = two.outcome.output ↔
      Path.SharesOutput plan.root one.outcome.source two.outcome.source) ∧
    (one.outcome.output = two.outcome.output ↔ tree.place one.outcome.output = tree.place two.outcome.output) := by
  obtain ⟨extension, hsuffix, hextension⟩ := plan.settings.dialect.exists_extension
  have houtput := hsuffix ▸ hone.makes.output_eq
  have houtput' := hsuffix ▸ htwo.makes.output_eq
  have hpath := hregular.output_eq_iff hsource hother hextension houtput houtput'
  exact ⟨hpath.trans (hregular.place_output_eq_iff hsource hother hextension houtput houtput'), hpath⟩

theorem nodup_output_iff (hyields : ∀ one ∈ made, plan.Yields tree one) (hregular : tree.Regular)
    (hsources : ∀ one ∈ made, one.outcome.source ∈ tree.sources path suffixes) :
    (made.map fun one => one.outcome.output).Nodup ↔
      (made.map fun one => one.outcome.source).Pairwise fun source other =>
        ¬ Path.SharesOutput plan.root source other := by
  rw [List.Nodup, List.pairwise_map, List.pairwise_map]
  refine List.Pairwise.iff_of_mem fun {one two} hone htwo => not_congr ?_
  exact ((hyields one hone).output_eq_iff (hyields two htwo) hregular (hsources one hone) (hsources two htwo)).1

/-- An output holds the code of the last source whose output it is. -/
theorem read_output {before after : List Made} {one : Made} {tree' : Tree}
    (hyields : ∀ two ∈ before ++ one :: after, plan.Yields tree two) (hregular : tree.Regular)
    (hsources : ∀ two ∈ before ++ one :: after, two.outcome.source ∈ tree.sources path suffixes)
    (hwrite : tree.writeFiles ((before ++ one :: after).flatMap Made.files) = .ok tree')
    (hlast : ∀ two ∈ after, two.outcome.output ≠ one.outcome.output) :
    tree'.read one.outcome.output = .ok (Utf8.encode one.outcome.compilation.code) := by
  have hone : one ∈ before ++ one :: after := List.mem_append_right _ List.mem_cons_self
  have hmakes := (hyields one hone).makes
  -- A sidecar takes the place of no output.
  have hsidecar : ∀ {file : Path}, (∀ tree : Tree, Location.suffix (tree.place file) = ".json") →
      tree.place file ≠ tree.place one.outcome.output := by
    intro file hjson hplace
    have hsuffix := hmakes.output_suffix.2 tree
    rw [← hplace, hjson] at hsuffix
    cases hdialect : plan.settings.dialect <;> rw [hdialect] at hsuffix <;> cases hsuffix
  have hnames := names_ne_nil_of_yields hyields
  rw [List.flatMap_append, List.flatMap_cons, Made.files, List.cons_append] at hwrite hnames
  refine Tree.read_writeFiles hregular.isApart hnames hwrite fun file hfile => ?_
  obtain hfile | hfile := List.mem_append.mp hfile
  · obtain ⟨sidecar, hmem, rfl⟩ := List.mem_map.mp hfile
    exact hsidecar (hmakes.sidecar_suffix (Option.mem_toList.mp hmem)).2
  · obtain ⟨two, htwo, hfile⟩ := List.mem_flatMap.mp hfile
    have hmem : two ∈ before ++ one :: after := List.mem_append_right _ (List.mem_cons_of_mem one htwo)
    obtain houtput | hjson := ((hyields two hmem).makes.mem_files hfile).2
    · rw [houtput]
      exact ((hyields two hmem).output_eq_iff (hyields one hone) hregular (hsources two hmem)
        (hsources one hone)).2.not.mp (hlast two htwo)
    · exact hsidecar hjson

end Plan

namespace Tree

/-- The outputs of a run are distinct exactly if no two of its sources share one. Each output holds the code of the
last source whose output it is. -/
theorem outputs_nodup_iff (tree : Tree) (hregular : tree.Regular) (path : Path) (settings : Settings)
    (hspares : settings.SparesSources) (directory : Path) (root? : Option Path)
    (hdone : (tree.compile path settings directory root?).error? = none) :
    (((tree.compile path settings directory root?).outcomes.map Outcome.output).Nodup ↔
      (tree.sources path settings.sourceSuffixes).Pairwise fun source other =>
        ¬ Path.SharesOutput (root?.getD (tree.defaultRoot path)) source other) ∧
    ∀ before outcome after, (tree.compile path settings directory root?).outcomes = before ++ outcome :: after →
      (∀ other ∈ after, other.output ≠ outcome.output) →
      (tree.compile path settings directory root?).tree.read outcome.output =
        .ok (Utf8.encode outcome.compilation.code) := by
  obtain ⟨made, hends⟩ := exists_compile_ends_nil hregular path settings hspares directory root? hdone
  have hfound := hends.sources_eq
  rw [List.append_nil] at hfound
  have hsources : ∀ one ∈ made, one.outcome.source ∈ tree.sources path settings.sourceSuffixes := fun one hone =>
    hfound ▸ List.mem_map_of_mem hone
  constructor
  · rw [hends.outcomes_eq, List.map_map, hfound]
    exact Plan.nodup_output_iff hends.yields hregular hsources
  · intro before outcome after hsplit hlast
    rw [hends.outcomes_eq] at hsplit
    obtain ⟨before, rest, rfl, rfl, hrest⟩ := List.map_eq_append_iff.mp hsplit
    obtain ⟨one, after, rfl, rfl, rfl⟩ := List.map_eq_cons_iff.mp hrest
    exact Plan.read_output hends.yields hregular hsources hends.written
      fun two htwo => hlast _ (List.mem_map_of_mem htwo)

/-- A card in the root and another below it, with the two suffixes of sources. -/
def cardsTree : Tree where
  files := [(["src", "Card.lnr"], Utf8.encode "Card()"), (["src", "ui", "Card.lunor"], Utf8.encode "Card()\n# Hello")]
  directories := []
  here := []

theorem outputs_nodup_iff_cards :
    (cardsTree.compile (Path.ofText "src") Settings.default (Path.ofText "dist") none).error? = none ∧
    ((cardsTree.compile (Path.ofText "src") Settings.default (Path.ofText "dist") none).outcomes.map
      Outcome.output).Nodup ∧
    ∀ outcome ∈ (cardsTree.compile (Path.ofText "src") Settings.default (Path.ofText "dist") none).outcomes,
      (cardsTree.compile (Path.ofText "src") Settings.default (Path.ofText "dist") none).tree.read outcome.output =
        .ok (Utf8.encode outcome.compilation.code) := by
  have hfound : cardsTree.sources (Path.ofText "src") Settings.default.sourceSuffixes =
      [Path.ofText "src/Card.lnr", Path.ofText "src/ui/Card.lunor"] := by
    rw [@sources_of_pairwise cardsTree (Path.ofText "src") ["src"] (by decide +kernel) (by decide +kernel)
      (by decide +kernel)]
    decide +kernel
  have hdone : (cardsTree.compile (Path.ofText "src") Settings.default (Path.ofText "dist") none).error? = none := by
    rw [compile_error?, plan_of_isDirectory (by decide +kernel) hfound, hfound]
    decide +kernel
  obtain ⟨hnodup, hread⟩ := outputs_nodup_iff cardsTree (by decide +kernel) (Path.ofText "src") Settings.default
    ⟨by decide, by decide⟩ (Path.ofText "dist") none hdone
  have hdistinct := hnodup.mpr (by rw [hfound]; decide +kernel)
  refine ⟨hdone, hdistinct, fun outcome houtcome => ?_⟩
  obtain ⟨before, after, hsplit⟩ := List.append_of_mem houtcome
  rw [hsplit, List.map_append, List.map_cons] at hdistinct
  obtain ⟨-, hdistinct, -⟩ := List.nodup_append.mp hdistinct
  refine hread before outcome after hsplit fun other hother hsame => (List.nodup_cons.mp hdistinct).1 ?_
  exact hsame ▸ List.mem_map_of_mem hother

/-- Two sources with one stem in one directory. -/
def twinsTree : Tree where
  files := [(["src", "a.lnr"], Utf8.encode "A()"), (["src", "a.lunor"], Utf8.encode "B()")]
  directories := []
  here := []

/-- Both twins are compiled to one output, which holds the code of the second. -/
theorem twins_share_output :
    (twinsTree.compile (Path.ofText "src") Settings.default (Path.ofText "dist") none).outcomes.map
        (fun outcome => (outcome.source, outcome.output)) =
      [(Path.ofText "src/a.lnr", Path.ofText "dist/a.tsx"), (Path.ofText "src/a.lunor", Path.ofText "dist/a.tsx")] ∧
    (twinsTree.compile (Path.ofText "src") Settings.default (Path.ofText "dist") none).error? = none ∧
    (twinsTree.compile (Path.ofText "src") Settings.default (Path.ofText "dist") none).tree.files =
      twinsTree.files.concat (["dist", "a.tsx"], Utf8.encode (Text.join "\n" ["// AUTO-GENERATED by lunor", "",
        "export default function B() \x7b", "  return (", "    <>", "    </>", "  );", "\x7d", ""])) := by
  have hfound : twinsTree.sources (Path.ofText "src") Settings.default.sourceSuffixes =
      [Path.ofText "src/a.lnr", Path.ofText "src/a.lunor"] := by
    rw [@sources_of_pairwise twinsTree (Path.ofText "src") ["src"] (by decide +kernel) (by decide +kernel)
      (by decide +kernel)]
    decide +kernel
  rw [compile_outcomes, compile_error?, compile_tree, plan_of_isDirectory (by decide +kernel) hfound, hfound]
  decide +kernel

end Tree

end ViewMarkup
