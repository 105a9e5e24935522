import ViewMarkup.Proofs.Path
import ViewMarkup.Workspace.Source

namespace ViewMarkup.Tree

/-- A tree as files are kept in: names are names, and no file is where a directory is. -/
structure WellFormed (tree : Tree) : Prop where
  names : ∀ file ∈ tree.files, ∀ name ∈ file.1, Text.IsFileName name
  apart : ∀ file ∈ tree.files, tree.isDirectoryAt file.1 = false

instance (tree : Tree) : Decidable tree.WellFormed :=
  decidable_of_iff ((∀ file ∈ tree.files, ∀ name ∈ file.1, Text.IsFileName name) ∧
      ∀ file ∈ tree.files, tree.isDirectoryAt file.1 = false)
    ⟨fun h => ⟨h.1, h.2⟩, fun h => ⟨h.names, h.apart⟩⟩

/-- A directory is no file. -/
theorem WellFormed.isFile_eq_false {tree : Tree} (hformed : tree.WellFormed) {path : Path}
    (hdirectory : tree.isDirectory path) : tree.isFile path = false := by
  unfold isDirectory at hdirectory
  unfold isFile
  split
  · rename_i location hlocation
    rw [hlocation] at hdirectory
    have hdirectory : tree.isDirectoryAt location = true := hdirectory
    cases hbytes : tree.bytes? location with
    | none => rfl
    | some bytes =>
      obtain ⟨before, after, hfiles, _⟩ := List.lookup_eq_some_iff.mp hbytes
      have hfile : (location, bytes) ∈ tree.files := by simp [hfiles]
      have hapart := hformed.apart _ hfile
      rw [hdirectory] at hapart
      cases hapart
  · rfl

theorem mem_filesBelow {tree : Tree} {location names : Location} (hnames : names ∈ tree.filesBelow location) :
    names ≠ [] ∧ ∃ file ∈ tree.files, file.1 = location ++ names := by
  obtain ⟨file, hfile, hbelow⟩ := List.mem_filterMap.mp hnames
  obtain ⟨hbelow, hne⟩ := Option.filter_eq_some_iff.mp hbelow
  exact ⟨of_decide_eq_true hne, file, hfile, Path.below?_eq_some_iff.mp hbelow⟩

/-- A path of a file below a root: the names that lead to the file are split before the last one. -/
def SourceAt (root source : Path) (above : List Text) (name : Text) : Prop :=
  source = root.join ⟨.here, above ++ [name]⟩ ∧ ∀ other ∈ above ++ [name], Text.IsFileName other

/-- Every source that is found below a directory is one. -/
theorem WellFormed.exists_sourceAt {tree : Tree} (hformed : tree.WellFormed) {root source : Path}
    (hroot : tree.isDirectory root) {suffixes : List Text} (hsource : source ∈ tree.sources root suffixes) :
    ∃ above name, SourceAt root source above name := by
  unfold sources at hsource
  dsimp only at hsource
  rw [hformed.isFile_eq_false hroot, if_neg Bool.false_ne_true] at hsource
  have hfound := List.mem_of_mem_filter hsource
  split at hfound
  · cases hfound
  · obtain ⟨names, hnames, rfl⟩ := List.mem_map.mp hfound
    obtain ⟨hne, file, hfile, hsplit⟩ := mem_filesBelow (List.mem_mergeSort.mp hnames)
    refine ⟨names.dropLast, names.getLast hne, ?_, fun other hother => ?_⟩
    · rw [List.dropLast_append_getLast]
    · rw [List.dropLast_append_getLast] at hother
      exact hformed.names file hfile other (hsplit ▸ List.mem_append_right _ hother)

/-- Files that are kept in order are found in order. -/
theorem sources_of_pairwise {tree : Tree} {path : Path} {location : Location} (hfile : tree.isFile path = false)
    (hlocate : tree.locate path = .ok location)
    (hsorted : (tree.filesBelow location).Pairwise fun a b => !Location.comesBefore b a) (suffixes : List Text) :
    tree.sources path suffixes = ((tree.filesBelow location).map fun names => path.join ⟨.here, names⟩).filter
      fun source => suffixes.contains source.suffix := by
  unfold sources
  dsimp only
  rw [hfile, if_neg Bool.false_ne_true, hlocate]
  dsimp only
  rw [List.mergeSort_of_pairwise hsorted]

/-- The tag that the first line of a source declares. -/
def declaredTag? (tree : Tree) (source : Path) : Option Text :=
  (tree.readFirstLine source).toOption.bind Signature.declaredName?

/-- The first source below a directory that declares a tag. -/
def declaring? (tree : Tree) (root : Path) (suffixes : List Text) (tag : Text) : Option Path :=
  (tree.sources root suffixes).find? fun source => tree.declaredTag? source = some tag

section Survey

variable (tree : Tree) (root : Path)

/-- One more source declares its tag, if no source before it did. -/
theorem surveySource_paths (survey : Survey) (source : Path) :
    (tree.surveySource root survey source).paths =
      match tree.declaredTag? source with
      | none => survey.paths
      | some tag =>
        match survey.paths.lookup tag with
        | some _ => survey.paths
        | none => survey.paths ++ [(tag, source.recorded root)] := by
  unfold surveySource declaredTag?
  cases tree.readFirstLine source with
  | error error => rfl
  | ok line =>
    dsimp only [Except.toOption, Option.bind_some]
    cases Signature.declaredName? line with
    | none => rfl
    | some tag =>
      dsimp only
      cases survey.paths.lookup tag <;> rfl

theorem lookup_surveySource (survey : Survey) (source : Path) (tag : Text) :
    (tree.surveySource root survey source).paths.lookup tag =
      (survey.paths.lookup tag).or
        (if tree.declaredTag? source = some tag then some (source.recorded root) else none) := by
  rw [surveySource_paths]
  cases hdeclared : tree.declaredTag? source with
  | none => simp
  | some declared =>
    dsimp only
    by_cases hsame : declared = tag
    · subst hsame
      cases hkept : survey.paths.lookup declared with
      | none => simp [List.lookup_append, hkept]
      | some kept => simp [hkept]
    · have hother : (tag == declared) = false := beq_eq_false_iff_ne.mpr (Ne.symm hsame)
      rw [if_neg (by simpa using hsame), Option.or_none]
      split
      · rfl
      · simp [List.lookup_append, List.lookup_cons, hother]

/-- Of all sources the first one that declares a tag is recorded for it. -/
theorem lookup_foldl_surveySource (found : List Path) (survey : Survey) (tag : Text) :
    (found.foldl (tree.surveySource root) survey).paths.lookup tag =
      (survey.paths.lookup tag).or
        ((found.find? fun source => tree.declaredTag? source = some tag).map (Path.recorded · root)) := by
  -- The induction is on the sources: what the survey has already stays before what is still to come.
  induction found generalizing survey with
  | nil => simp
  | cons source found ih =>
    rw [List.foldl_cons, ih, lookup_surveySource, Option.or_assoc, List.find?_cons]
    by_cases hdeclared : tree.declaredTag? source = some tag <;> simp [hdeclared]

theorem lookup_components {root : Path} (hroot : tree.isDirectory root) (suffixes : List Text) (tag : Text) :
    (tree.components root suffixes).1.lookup tag =
      (tree.declaring? root suffixes tag).map (Path.recorded · root) := by
  rw [components, if_pos hroot]
  exact (lookup_foldl_surveySource tree root _ _ tag).trans rfl

end Survey

end ViewMarkup.Tree
