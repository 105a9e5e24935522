import ViewMarkup.Proofs.Workspace.Progress

namespace ViewMarkup

/-- Bytes of two texts with the same first line. -/
def Utf8.SameFirstLine (bytes bytes' : List UInt8) : Prop :=
  ∃ t t', Utf8.decodeLines bytes = .ok t ∧ Utf8.decodeLines bytes' = .ok t' ∧
    Utf8.leadingLine t = Utf8.leadingLine t'

theorem Utf8.firstLine_of_decodeLines {bytes : List UInt8} {t : Text} (hdecode : Utf8.decodeLines bytes = .ok t) :
    Utf8.firstLine bytes = .ok (Utf8.leadingLine t) := by
  unfold Utf8.decodeLines at hdecode
  unfold Utf8.firstLine
  cases hbytes : Utf8.decode bytes with
  | error error =>
    rw [hbytes] at hdecode
    cases hdecode
  | ok raw =>
    rw [hbytes] at hdecode
    rw [← Except.ok.inj hdecode]

theorem Plan.Makes.unique {plan : Plan} {source : Path} {t : Text} {outcome outcome' : Outcome}
    (hmakes : plan.Makes source t outcome) (hmakes' : plan.Makes source t outcome') : outcome = outcome' := by
  obtain ⟨hsource, houtput, hsidecar, hdiagnostics, log, hrun⟩ := hmakes
  obtain ⟨hsource', houtput', hsidecar', hdiagnostics', log', hrun'⟩ := hmakes'
  have hsame : outcome.output = outcome'.output := Except.ok.inj (houtput.symm.trans houtput')
  have hcompilation : outcome.compilation = outcome'.compilation :=
    congrArg Prod.fst (Except.ok.inj (hrun.symm.trans hrun'))
  rw [← hsame] at hsidecar'
  obtain ⟨source₁, output₁, sidecar₁, diagnostics₁, compilation₁⟩ := outcome
  obtain ⟨source₂, output₂, sidecar₂, diagnostics₂, compilation₂⟩ := outcome'
  exact (Outcome.mk.injEq ..).mpr ⟨hsource.trans hsource'.symm, hsame, hsidecar.trans hsidecar'.symm,
    hdiagnostics.trans hdiagnostics'.symm, hcompilation⟩

namespace Tree

variable {tree other : Tree} {path source : Path} {location kept : Location}

/-- Trees with files at the same locations, and the same directories. -/
structure SameShape (tree other : Tree) : Prop where
  here_eq : other.here = tree.here
  directories_eq : other.directories = tree.directories
  locations_eq : other.files.map Prod.fst = tree.files.map Prod.fst

namespace SameShape

theorem isDirectoryAt_eq (hshape : SameShape tree other) (location : Location) :
    other.isDirectoryAt location = tree.isDirectoryAt location := by
  have hfiles (found : Tree) : (found.files.any fun file => (Path.below? file.1 location).any (· != [])) =
      (found.files.map Prod.fst).any fun place => (Path.below? place location).any (· != []) := by
    rw [List.any_map]
    rfl
  rw [isDirectoryAt, isDirectoryAt, hfiles, hfiles, hshape.locations_eq, hshape.directories_eq]

theorem isSome_eq (hshape : SameShape tree other) (location : Location) :
    (other.bytes? location).isSome = (tree.bytes? location).isSome := by
  have hfiles (found : Tree) : (found.bytes? location).isSome ↔ location ∈ found.files.map Prod.fst := by
    rw [isSome_bytes?_iff, List.mem_map]
  rw [Bool.eq_iff_iff, hfiles, hfiles, hshape.locations_eq]

theorem locate_eq (hshape : SameShape tree other) (path : Path) : other.locate path = tree.locate path := by
  have hwalk (names : List Text) (start : Location) : other.walk start names = tree.walk start names := by
    induction names generalizing start with
    | nil => rfl
    | cons name names ih => rw [walk, walk, hshape.isDirectoryAt_eq, hshape.isSome_eq, ih]
  rw [locate, locate, hshape.here_eq, hwalk]

theorem isFile_eq (hshape : SameShape tree other) (path : Path) : other.isFile path = tree.isFile path := by
  rw [isFile, isFile, hshape.locate_eq]
  cases tree.locate path with
  | error fault => rfl
  | ok location => exact hshape.isSome_eq location

theorem isDirectory_eq (hshape : SameShape tree other) (path : Path) :
    other.isDirectory path = tree.isDirectory path := by
  rw [isDirectory, isDirectory, hshape.locate_eq]
  cases tree.locate path with
  | error fault => rfl
  | ok location => exact hshape.isDirectoryAt_eq location

theorem sources_eq (hshape : SameShape tree other) (path : Path) (suffixes : List Text) :
    other.sources path suffixes = tree.sources path suffixes := by
  have hbelow (location : Location) : other.filesBelow location = tree.filesBelow location := by
    rw [filesBelow_eq, filesBelow_eq, hshape.locations_eq]
  rw [sources, sources, hshape.isFile_eq, hshape.locate_eq]
  simp only [hbelow]

theorem regular (hshape : SameShape tree other) (hregular : tree.Regular) : other.Regular := by
  have hfile {file : Location × List UInt8} (hmem : file ∈ other.files) : ∃ found ∈ tree.files, found.1 = file.1 := by
    have hmem : file.1 ∈ other.files.map Prod.fst := List.mem_map_of_mem hmem
    rw [hshape.locations_eq] at hmem
    exact List.mem_map.mp hmem
  refine ⟨⟨?_, ?_⟩, ?_, ?_, ?_⟩
  · intro file hmem
    obtain ⟨found, hfound, hsame⟩ := hfile hmem
    exact hsame ▸ hregular.names found hfound
  · intro file hmem
    obtain ⟨found, hfound, hsame⟩ := hfile hmem
    rw [hshape.isDirectoryAt_eq, ← hsame]
    exact hregular.apart found hfound
  · intro file hmem
    obtain ⟨found, hfound, hsame⟩ := hfile hmem
    exact hsame ▸ hregular.not_mem_up found hfound
  · rw [hshape.locations_eq]
    exact hregular.nodup
  · rw [hshape.here_eq, hshape.isDirectoryAt_eq]
    exact hregular.here

end SameShape

/-- Trees that differ only in what is below the first lines of texts, and not in the file at one location. -/
structure DiffersInBodies (kept : Location) (tree other : Tree) : Prop extends SameShape tree other where
  bytes : ∀ location, other.bytes? location = tree.bytes? location ∨ location ≠ kept ∧
    ∃ bytes bytes', tree.bytes? location = some bytes ∧ other.bytes? location = some bytes' ∧
      Utf8.SameFirstLine bytes bytes'

namespace DiffersInBodies

theorem refl (kept : Location) (tree : Tree) : DiffersInBodies kept tree tree :=
  ⟨⟨rfl, rfl, rfl⟩, fun _ => .inl rfl⟩

/-- The body of one text is replaced. -/
theorem put {bytes bytes' : List UInt8} (hbytes : tree.bytes? location = some bytes) (hother : location ≠ kept)
    (hline : Utf8.SameFirstLine bytes bytes') : DiffersInBodies kept tree (tree.put location bytes') := by
  refine ⟨⟨rfl, rfl, map_fst_putBytes (isSome_bytes?_iff.mp (Option.isSome_of_eq_some hbytes))⟩, fun place => ?_⟩
  rw [bytes?_put]
  split
  · rename_i hsame
    subst hsame
    exact .inr ⟨hother, bytes, bytes', hbytes, rfl, hline⟩
  · exact .inl rfl

theorem readFirstLine_eq (hbodies : DiffersInBodies kept tree other) (path : Path) :
    other.readFirstLine path = tree.readFirstLine path := by
  unfold readFirstLine read
  rw [hbodies.locate_eq]
  cases tree.locate path with
  | error fault => rfl
  | ok location =>
    dsimp only
    rw [hbodies.isDirectoryAt_eq]
    obtain hsame | ⟨-, bytes, bytes', hbytes, hbytes', t, t', hdecode, hdecode', hline⟩ := hbodies.bytes location
    · rw [hsame]
    · rw [hbytes, hbytes']
      cases tree.isDirectoryAt location with
      | true => rfl
      | false =>
        simp only [Bool.false_eq_true, if_false]
        rw [Utf8.firstLine_of_decodeLines hdecode, Utf8.firstLine_of_decodeLines hdecode', hline]

/-- The components below a root are told by first lines alone. -/
theorem components_eq (hbodies : DiffersInBodies kept tree other) (root : Path) (suffixes : List Text) :
    other.components root suffixes = tree.components root suffixes := by
  have hsurvey : other.surveySource root = tree.surveySource root := by
    funext survey source
    rw [surveySource, surveySource, hbodies.readFirstLine_eq]
  rw [components, components, hbodies.isDirectory_eq, hbodies.sources_eq, hsurvey]

theorem readText_eq (hbodies : DiffersInBodies (tree.place source) tree other) :
    other.readText source = tree.readText source := by
  unfold readText read
  rw [hbodies.locate_eq]
  cases hlocate : tree.locate source with
  | error fault => rfl
  | ok location =>
    have hsame := (hbodies.bytes location).resolve_right fun hdiffers => hdiffers.1 (locate_eq_place hlocate)
    dsimp only
    rw [hbodies.isDirectoryAt_eq, hsame]

end DiffersInBodies

section Compile

variable {settings : Settings} {directory root : Path}

/-- Of outcomes from different sources one is from a source. -/
theorem filter_source_eq {outcomes : List Outcome} (hnodup : (outcomes.map Outcome.source).Nodup) {outcome : Outcome}
    (houtcome : outcome ∈ outcomes) : outcomes.filter (fun found => found.source = outcome.source) = [outcome] := by
  induction outcomes with
  | nil => cases houtcome
  | cons first outcomes ih =>
    obtain ⟨hfirst, hnodup⟩ := List.nodup_cons.mp hnodup
    obtain rfl | houtcome := List.mem_cons.mp houtcome
    · have hothers : outcomes.filter (fun found => found.source = outcome.source) = [] := by
        refine List.filter_eq_nil_iff.mpr fun found hfound hsame => hfirst ?_
        rw [← of_decide_eq_true hsame]
        exact List.mem_map_of_mem hfound
      rw [List.filter_cons_of_pos (by simp), hothers]
    · have hother : first.source ≠ outcome.source := fun hsame => hfirst (hsame ▸ List.mem_map_of_mem houtcome)
      rw [List.filter_cons_of_neg (by simpa using hother), ih hnodup houtcome]

/-- A run that does not stop gives one outcome for each source, which comes from the text of the source. -/
theorem exists_outcome (hregular : tree.Regular) (hspares : settings.SparesSources) {root? : Option Path}
    (hsource : source ∈ tree.sources path settings.sourceSuffixes)
    (hdone : (tree.compile path settings directory root?).error? = none) :
    ∃ t outcome, tree.readText source = .ok t ∧ (tree.plan path settings directory root?).Makes source t outcome ∧
      (tree.compile path settings directory root?).outcomes.filter (fun found => found.source = source) =
        [outcome] := by
  obtain ⟨made, hends⟩ := exists_compile_ends_nil hregular path settings hspares directory root? hdone
  have hsources := hends.sources_eq
  have hnodup := hregular.nodup_sources path settings.sourceSuffixes
  rw [List.append_nil] at hsources
  rw [hsources] at hsource hnodup
  obtain ⟨one, hone, rfl⟩ := List.mem_map.mp hsource
  have hyields := hends.yields one hone
  refine ⟨one.text, one.outcome, hyields.text_eq, hyields.makes, ?_⟩
  rw [hends.outcomes_eq]
  exact filter_source_eq (by rwa [List.map_map]) (List.mem_map_of_mem hone)

theorem DiffersInBodies.plan_eq {kept : Location} (hbodies : DiffersInBodies kept tree other) (path path' : Path) :
    other.plan path' settings directory (some root) = tree.plan path settings directory (some root) := by
  simp only [plan, Option.getD_some, resolver, hbodies.components_eq]

end Compile

/-- What a run makes of a source is the same whether the source is compiled alone or with others, and whatever
stands below the first lines of other files. -/
theorem outcome_isolated (tree : Tree) (hregular : tree.Regular) (settings : Settings)
    (hspares : settings.SparesSources) (path directory root : Path) {source : Path}
    (hsource : source ∈ tree.sources path settings.sourceSuffixes)
    (hdone : (tree.compile path settings directory (some root)).error? = none) :
    ∃ outcome,
      (tree.compile path settings directory (some root)).outcomes.filter (fun found => found.source = source) =
        [outcome] ∧
      ∀ other, tree.DiffersInBodies (tree.place source) other → ∀ start, start = path ∨ start = source →
        (other.compile start settings directory (some root)).error? = none →
        (other.compile start settings directory (some root)).outcomes.filter (fun found => found.source = source) =
          [outcome] := by
  obtain ⟨t, outcome, htext, hmakes, hfound⟩ := exists_outcome hregular hspares hsource hdone
  refine ⟨outcome, hfound, fun other hbodies start hstart hdone' => ?_⟩
  have hsource' : source ∈ other.sources start settings.sourceSuffixes := by
    rw [hbodies.sources_eq]
    obtain rfl | rfl := hstart
    · exact hsource
    · rw [hregular.sources_of_mem_sources hsource]
      exact List.mem_singleton_self start
  obtain ⟨t', outcome', htext', hmakes', hfound'⟩ :=
    exists_outcome (hbodies.regular hregular) hspares hsource' hdone'
  rw [hbodies.readText_eq, htext] at htext'
  obtain rfl := Except.ok.inj htext'
  rw [hbodies.plan_eq path start] at hmakes'
  rw [hfound', hmakes.unique hmakes']

/-- A page with a card. -/
def pageTree : Tree where
  files := [(["src", "Card.lnr"], Utf8.encode "Card()"), (["src", "Page.lnr"], Utf8.encode "Page()\n:Card")]
  directories := []
  here := []

/-- The page with a card that has a body. -/
def longCardTree : Tree :=
  pageTree.put ["src", "Card.lnr"] (Utf8.encode "Card()\n# Hello")

theorem differsInBodies_longCardTree :
    pageTree.DiffersInBodies (pageTree.place (Path.ofText "src/Page.lnr")) longCardTree :=
  .put rfl (by decide +kernel) ⟨"Card()", "Card()\n# Hello", by decide +kernel, by decide +kernel, by decide +kernel⟩

theorem sources_pageTree :
    pageTree.sources (Path.ofText "src") Settings.default.sourceSuffixes =
      [Path.ofText "src/Card.lnr", Path.ofText "src/Page.lnr"] := by
  rw [@sources_of_pairwise pageTree (Path.ofText "src") ["src"] (by decide +kernel) (by decide +kernel)
    (by decide +kernel)]
  decide +kernel

theorem outcome_isolated_page :
    ∃ outcome,
      (pageTree.compile (Path.ofText "src") Settings.default (Path.ofText "dist")
        (some (Path.ofText "src"))).outcomes.filter (fun found => found.source = Path.ofText "src/Page.lnr") =
          [outcome] ∧
      (longCardTree.compile (Path.ofText "src") Settings.default (Path.ofText "dist")
        (some (Path.ofText "src"))).outcomes.filter (fun found => found.source = Path.ofText "src/Page.lnr") =
          [outcome] ∧
      (pageTree.compile (Path.ofText "src/Page.lnr") Settings.default (Path.ofText "dist")
        (some (Path.ofText "src"))).outcomes.filter (fun found => found.source = Path.ofText "src/Page.lnr") =
          [outcome] := by
  have hregular : pageTree.Regular := by decide +kernel
  have hsource : Path.ofText "src/Page.lnr" ∈ pageTree.sources (Path.ofText "src") Settings.default.sourceSuffixes := by
    rw [sources_pageTree]
    decide +kernel
  have hsources : longCardTree.sources (Path.ofText "src") Settings.default.sourceSuffixes =
      [Path.ofText "src/Card.lnr", Path.ofText "src/Page.lnr"] := by
    rw [differsInBodies_longCardTree.sources_eq, sources_pageTree]
  -- All three runs come to their end.
  have hpage : (pageTree.compile (Path.ofText "src") Settings.default (Path.ofText "dist")
      (some (Path.ofText "src"))).error? = none := by
    rw [compile_error?, plan_of_sources rfl (by decide +kernel) sources_pageTree, sources_pageTree]
    decide +kernel
  have hlong : (longCardTree.compile (Path.ofText "src") Settings.default (Path.ofText "dist")
      (some (Path.ofText "src"))).error? = none := by
    rw [compile_error?, plan_of_sources rfl (by decide +kernel) hsources, hsources]
    decide +kernel
  have halone : (pageTree.compile (Path.ofText "src/Page.lnr") Settings.default (Path.ofText "dist")
      (some (Path.ofText "src"))).error? = none := by
    rw [compile_error?, plan_of_sources rfl (by decide +kernel) sources_pageTree,
      hregular.sources_of_mem_sources hsource]
    decide +kernel
  obtain ⟨outcome, hfound, hsame⟩ := outcome_isolated pageTree hregular Settings.default ⟨by decide, by decide⟩
    (Path.ofText "src") (Path.ofText "dist") (Path.ofText "src") hsource hpage
  exact ⟨outcome, hfound, hsame longCardTree differsInBodies_longCardTree (Path.ofText "src") (.inl rfl) hlong,
    hsame pageTree (.refl _ _) (Path.ofText "src/Page.lnr") (.inr rfl) halone⟩

end Tree

end ViewMarkup
