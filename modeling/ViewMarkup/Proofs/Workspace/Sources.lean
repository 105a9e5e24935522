import Mathlib.Data.List.Nodup
import ViewMarkup.Proofs.Workspace.Files

namespace ViewMarkup.Tree

variable {tree : Tree} {path source : Path} {suffixes : List Text}

/-- A tree as a file system keeps it: every file is there once, no name is two dots, and the current directory
is a directory. -/
structure Regular (tree : Tree) : Prop extends WellFormed tree where
  not_mem_up : ∀ file ∈ tree.files, ['.', '.'] ∉ file.1
  nodup : (tree.files.map Prod.fst).Nodup
  here : tree.isDirectoryAt tree.here

instance (tree : Tree) : Decidable tree.Regular :=
  decidable_of_iff (tree.WellFormed ∧ (tree.files.all fun file => !file.1.contains ['.', '.']) ∧
      (tree.files.map Prod.fst).Nodup ∧ tree.isDirectoryAt tree.here)
    ⟨fun h => ⟨h.1, by simpa using h.2.1, h.2.2.1, h.2.2.2⟩,
      fun h => ⟨h.toWellFormed, by simpa using h.not_mem_up, h.nodup, h.here⟩⟩

theorem isFile_iff :
    tree.isFile path ↔ ∃ location, tree.locate path = .ok location ∧ (tree.bytes? location).isSome := by
  unfold isFile
  cases tree.locate path <;> simp

theorem filesBelow_eq (tree : Tree) (location : Location) :
    tree.filesBelow location =
      (tree.files.map Prod.fst).filterMap fun place => (Path.below? place location).filter (· ≠ []) := by
  rw [List.filterMap_map]
  rfl

theorem mem_sources (hsource : source ∈ tree.sources path suffixes) :
    source.suffix ∈ suffixes ∧ (tree.isFile path ∧ source = path ∨
      ∃ location, tree.locate path = .ok location ∧ ∃ names ∈ tree.filesBelow location,
        source = path.join ⟨.here, names⟩) := by
  obtain ⟨hfound, hsuffix⟩ := List.mem_filter.mp hsource
  refine ⟨List.contains_iff_mem.mp hsuffix, ?_⟩
  split at hfound
  · rename_i hfile
    exact .inl ⟨hfile, List.mem_singleton.mp hfound⟩
  · split at hfound
    · cases hfound
    · rename_i location hlocate
      obtain ⟨names, hnames, rfl⟩ := List.mem_map.mp hfound
      exact .inr ⟨location, hlocate, names, List.mem_mergeSort.mp hnames, rfl⟩

/-- A path leads to a file with one of some suffixes. -/
def HoldsSource (tree : Tree) (suffixes : List Text) (source : Path) : Prop :=
  ∃ location, tree.locate source = .ok location ∧ (tree.bytes? location).isSome ∧
    Location.suffix location ∈ suffixes

namespace Regular

/-- A path that leads to a file has the suffix of the file. -/
theorem suffix_of_locate (hregular : tree.Regular) {location : Location} (hlocate : tree.locate path = .ok location)
    (hbytes : (tree.bytes? location).isSome) : Location.suffix location = path.suffix := by
  have hplain := hregular.isApart location hbytes
  by_cases hnames : path.names = []
  · -- A path without names leads to the current directory or to the root.
    have hdirectory : tree.isDirectoryAt location := by
      rw [locate_eq_walk, hnames] at hlocate
      obtain rfl := Except.ok.inj hlocate
      unfold start
      split
      · exact hregular.here
      · exact isDirectoryAt_iff.mpr (.inl rfl)
    rw [hdirectory] at hplain
    cases hplain
  · obtain ⟨middle, -, -, rfl⟩ := exists_parent_of_locate hnames hlocate hplain
    exact Location.suffix_concat middle path.name

/-- The path of a file below a location that another path leads to. -/
theorem locate_join (hregular : tree.Regular) {location names : Location} (hlocate : tree.locate path = .ok location)
    (hnames : names ∈ tree.filesBelow location) :
    tree.locate (path.join ⟨.here, names⟩) = .ok (location ++ names) ∧ (tree.bytes? (location ++ names)).isSome := by
  obtain ⟨-, file, hfile, hplace⟩ := mem_filesBelow hnames
  refine ⟨?_, isSome_bytes?_iff.mpr ⟨file, hfile, hplace⟩⟩
  have hup : ['.', '.'] ∉ names := fun hmem => hregular.not_mem_up file hfile (hplace ▸ List.mem_append_right _ hmem)
  have hwalk : tree.locate (path.join ⟨.here, names⟩) = tree.walk (tree.start path) (path.names ++ names) := rfl
  rw [locate_eq_walk] at hlocate
  rw [hwalk, walk_append, hlocate]
  exact walk_below hfile hplace hup

theorem isFile_of_mem_sources (hregular : tree.Regular) (hsource : source ∈ tree.sources path suffixes) :
    tree.isFile source := by
  obtain ⟨-, ⟨hfile, rfl⟩ | ⟨location, hlocate, names, hnames, rfl⟩⟩ := mem_sources hsource
  · exact hfile
  · obtain ⟨hjoin, hbytes⟩ := hregular.locate_join hlocate hnames
    exact isFile_iff.mpr ⟨_, hjoin, hbytes⟩

theorem holdsSource (hregular : tree.Regular) (hsource : source ∈ tree.sources path suffixes) :
    tree.HoldsSource suffixes source := by
  obtain ⟨location, hlocate, hbytes⟩ := isFile_iff.mp (hregular.isFile_of_mem_sources hsource)
  refine ⟨location, hlocate, hbytes, ?_⟩
  rw [hregular.suffix_of_locate hlocate hbytes]
  exact (mem_sources hsource).1

/-- A source is found on its own as well. -/
theorem sources_of_mem_sources (hregular : tree.Regular) (hsource : source ∈ tree.sources path suffixes) :
    tree.sources source suffixes = [source] := by
  unfold sources
  dsimp only
  rw [if_pos (hregular.isFile_of_mem_sources hsource)]
  simp [(mem_sources hsource).1]

theorem nodup_filesBelow (hregular : tree.Regular) (location : Location) : (tree.filesBelow location).Nodup := by
  rw [filesBelow_eq]
  refine hregular.nodup.filterMap fun place place' names hnames hnames' => ?_
  rw [Path.below?_eq_some_iff.mp (Option.filter_eq_some_iff.mp hnames).1,
    Path.below?_eq_some_iff.mp (Option.filter_eq_some_iff.mp hnames').1]

theorem nodup_sources (hregular : tree.Regular) (path : Path) (suffixes : List Text) :
    (tree.sources path suffixes).Nodup := by
  refine List.Nodup.filter _ ?_
  split
  · exact List.nodup_singleton path
  · split
    · exact List.nodup_nil
    · rename_i location _
      have hsorted := (List.mergeSort_perm (tree.filesBelow location)
        fun a b => !Location.comesBefore b a).nodup_iff.mpr (hregular.nodup_filesBelow location)
      refine hsorted.map fun names names' hsame => ?_
      simpa [Path.join] using hsame

end Regular

namespace HoldsSource

variable {written : Location → Prop} {before after : Tree}

theorem keeps (hsource : before.HoldsSource suffixes source) (hkeeps : Keeps written before after) :
    after.HoldsSource suffixes source := by
  obtain ⟨location, hlocate, hbytes, hsuffix⟩ := hsource
  exact ⟨location, hkeeps.locate hlocate, hkeeps.file hbytes, hsuffix⟩

/-- A source is read as before if only files with other suffixes were written. -/
theorem readText_eq (hsource : before.HoldsSource suffixes source) (hkeeps : Keeps written before after)
    (hapart : before.Apart) (hwritten : ∀ location, written location → Location.suffix location ∉ suffixes) :
    after.readText source = before.readText source := by
  obtain ⟨location, hlocate, hbytes, hsuffix⟩ := hsource
  have hother : ¬ written location := fun hlocation => hwritten location hlocation hsuffix
  rw [readText, readText, hkeeps.read_eq hapart hlocate hbytes hother]

/-- Only its bytes can keep a source from being read. -/
theorem exists_decodeLines (hsource : tree.HoldsSource suffixes source) (hapart : tree.Apart) :
    ∃ bytes, tree.readText source = (Utf8.decodeLines bytes).mapError .utf8 := by
  obtain ⟨location, hlocate, hbytes, -⟩ := hsource
  obtain ⟨bytes, hsome⟩ := Option.isSome_iff_exists.mp hbytes
  refine ⟨bytes, ?_⟩
  simp only [readText, read, hlocate, hapart location hbytes, hsome, Bool.false_eq_true, if_false]

theorem readText_eq_error (hsource : tree.HoldsSource suffixes source) (hapart : tree.Apart) {error : ReadError}
    (hread : tree.readText source = .error error) : ∃ fault, error = .utf8 fault := by
  obtain ⟨bytes, hbytes⟩ := hsource.exists_decodeLines hapart
  rw [hread] at hbytes
  cases hdecode : Utf8.decodeLines bytes with
  | error fault =>
    rw [hdecode] at hbytes
    exact ⟨fault, Except.error.inj hbytes⟩
  | ok t =>
    rw [hdecode] at hbytes
    cases hbytes

end HoldsSource

end ViewMarkup.Tree
