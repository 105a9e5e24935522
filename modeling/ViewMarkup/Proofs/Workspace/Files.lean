import ViewMarkup.Proofs.Workspace.Discovery

namespace ViewMarkup

/-- The place that names spell from a location; two dots go up. -/
def Location.follow (location : Location) (names : List Text) : Location :=
  names.foldl (fun location name => if name = ['.', '.'] then location.dropLast else location ++ [name]) location

/-- The suffix of the last name of a location. -/
def Location.suffix (location : Location) : Text :=
  (Path.splitName (location.getLast?.getD [])).2

namespace Location

@[simp]
theorem follow_nil (location : Location) : follow location [] = location := rfl

@[simp]
theorem follow_cons (location : Location) (name : Text) (names : List Text) :
    follow location (name :: names) =
      follow (if name = ['.', '.'] then location.dropLast else location ++ [name]) names := rfl

theorem follow_append (location : Location) (names others : List Text) :
    follow location (names ++ others) = follow (follow location names) others :=
  List.foldl_append

theorem follow_of_not_mem {names : List Text} (hnames : ['.', '.'] ∉ names) (location : Location) :
    follow location names = location ++ names := by
  induction names generalizing location with
  | nil => rw [follow_nil, List.append_nil]
  | cons name names ih =>
    obtain ⟨hname, hnames⟩ := not_or.mp (List.mem_cons.not.mp hnames)
    rw [follow_cons, if_neg (Ne.symm hname), ih hnames, List.append_assoc, List.singleton_append]

theorem suffix_concat (location : Location) (name : Text) : suffix (location ++ [name]) = (Path.splitName name).2 := by
  rw [suffix, List.getLast?_concat, Option.getD_some]

end Location

namespace Tree

variable {tree tree' : Tree} {path : Path} {location other : Location} {bytes : List UInt8}

section Directories

theorem isDirectoryAt_iff :
    tree.isDirectoryAt location ↔ location = [] ∨ (∃ directory ∈ tree.directories, location <+: directory) ∨
      ∃ file ∈ tree.files, location <+: file.1 ∧ location ≠ file.1 := by
  have hbelow (names ancestor : Location) : (Path.below? names ancestor).isSome ↔ ancestor <+: names := by
    rw [Option.isSome_iff_exists]
    exact ⟨fun ⟨rest, hrest⟩ => ⟨rest, (Path.below?_eq_some_iff.mp hrest).symm⟩,
      fun ⟨rest, hrest⟩ => ⟨rest, Path.below?_eq_some_iff.mpr hrest.symm⟩⟩
  have hproper (names ancestor : Location) :
      (Path.below? names ancestor).any (· != []) ↔ ancestor <+: names ∧ ancestor ≠ names := by
    rw [Option.any_eq_true]
    constructor
    · rintro ⟨rest, hrest, hne⟩
      obtain rfl := Path.below?_eq_some_iff.mp hrest
      exact ⟨List.prefix_append _ _, by simpa using hne⟩
    · rintro ⟨⟨rest, rfl⟩, hne⟩
      exact ⟨rest, Path.below?_eq_some_iff.mpr rfl, by simpa using hne⟩
  simp only [isDirectoryAt, Bool.or_eq_true, beq_iff_eq, List.any_eq_true, hbelow, hproper, or_assoc]

/-- Whatever is above a directory is a directory. -/
theorem isDirectoryAt_up (habove : location <+: other) (hdirectory : tree.isDirectoryAt other) :
    tree.isDirectoryAt location := by
  rw [isDirectoryAt_iff] at hdirectory ⊢
  obtain rfl | ⟨directory, hmem, hbelow⟩ | ⟨file, hmem, hbelow, hne⟩ := hdirectory
  · exact .inl (List.prefix_nil.mp habove)
  · exact .inr (.inl ⟨directory, hmem, habove.trans hbelow⟩)
  · refine .inr (.inr ⟨file, hmem, habove.trans hbelow, ?_⟩)
    rintro rfl
    exact hne (hbelow.eq_of_length_le habove.length_le)

theorem isDirectoryAt_above {file : Location × List UInt8} (hfile : file ∈ tree.files)
    (habove : location <+: file.1) (hne : location ≠ file.1) : tree.isDirectoryAt location :=
  isDirectoryAt_iff.mpr (.inr (.inr ⟨file, hfile, habove, hne⟩))

end Directories

section Walk

theorem walk_append (tree : Tree) (location : Location) (names others : List Text) :
    tree.walk location (names ++ others) =
      (tree.walk location names).bind fun middle => tree.walk middle others := by
  induction names generalizing location with
  | nil => rfl
  | cons name names ih =>
    simp only [List.cons_append, walk]
    split
    · rfl
    · exact ih _

/-- The last step of a walk starts in a directory. -/
theorem walk_concat_eq_ok_iff {names : List Text} {name : Text} {start : Location} :
    tree.walk start (names ++ [name]) = .ok location ↔
      ∃ middle, tree.walk start names = .ok middle ∧ tree.isDirectoryAt middle ∧
        location = if name = ['.', '.'] then middle.dropLast else middle ++ [name] := by
  rw [walk_append]
  cases tree.walk start names with
  | error fault => simp [Except.bind]
  | ok middle =>
    cases hdirectory : tree.isDirectoryAt middle with
    | false => simp [Except.bind, walk, hdirectory]
    | true => simp [Except.bind, walk, hdirectory, @eq_comm _ location]

theorem walk_eq_follow {names : List Text} {start : Location} (hwalk : tree.walk start names = .ok location) :
    location = Location.follow start names := by
  induction names generalizing start with
  | nil => exact (Except.ok.inj hwalk).symm
  | cons name names ih =>
    simp only [walk] at hwalk
    split at hwalk
    · cases hwalk
    · exact ih hwalk

/-- The names of a file lead to it from above. -/
theorem walk_below {names : List Text} {start : Location} {file : Location × List UInt8} (hfile : file ∈ tree.files)
    (hplace : file.1 = start ++ names) (hnames : ['.', '.'] ∉ names) :
    tree.walk start names = .ok (start ++ names) := by
  induction names generalizing start with
  | nil => rw [walk, List.append_nil]
  | cons name names ih =>
    obtain ⟨hname, hnames⟩ := not_or.mp (List.mem_cons.not.mp hnames)
    have hdirectory : tree.isDirectoryAt start :=
      isDirectoryAt_above hfile (hplace ▸ List.prefix_append _ _) (by simp [hplace])
    rw [walk, hdirectory, if_neg (by simp), if_neg (Ne.symm hname), ih (by simpa using hplace) hnames]
    simp

/-- The location from which a path is walked. -/
def start (tree : Tree) (path : Path) : Location :=
  if path.anchor = .here then tree.here else []

/-- The place that a path spells. -/
def place (tree : Tree) (path : Path) : Location :=
  Location.follow (tree.start path) path.names

theorem locate_eq_walk (tree : Tree) (path : Path) : tree.locate path = tree.walk (tree.start path) path.names := rfl

theorem locate_eq_place (hlocate : tree.locate path = .ok location) : location = tree.place path :=
  walk_eq_follow hlocate

/-- What is found at a path and is no directory stands in one, under the last name of the path. -/
theorem exists_parent_of_locate (hnames : path.names ≠ []) (hlocate : tree.locate path = .ok location)
    (hplain : tree.isDirectoryAt location = false) :
    ∃ middle, tree.locate path.parent = .ok middle ∧ tree.isDirectoryAt middle ∧
      location = middle ++ [path.name] := by
  rw [locate_eq_walk, ← Path.dropLast_append_name hnames, walk_concat_eq_ok_iff] at hlocate
  obtain ⟨middle, hmiddle, hdirectory, rfl⟩ := hlocate
  refine ⟨middle, hmiddle, hdirectory, ?_⟩
  split
  · rename_i hup
    -- Two dots lead from a directory to the directory above it.
    rw [if_pos hup, isDirectoryAt_up ( List.dropLast_prefix middle) hdirectory] at hplain
    cases hplain
  · rfl

end Walk

/-- No file is where a directory is. -/
def Apart (tree : Tree) : Prop :=
  ∀ location, (tree.bytes? location).isSome → tree.isDirectoryAt location = false

theorem isSome_bytes?_iff : (tree.bytes? location).isSome ↔ ∃ file ∈ tree.files, file.1 = location := by
  rw [bytes?, List.lookup_isSome_iff]
  simp only [beq_iff_eq, @eq_comm _ location]

theorem WellFormed.isApart (hformed : tree.WellFormed) : tree.Apart := by
  intro location hbytes
  obtain ⟨file, hfile, rfl⟩ := isSome_bytes?_iff.mp hbytes
  exact hformed.apart file hfile

/-- Nothing above a place in a directory is a file. -/
theorem Apart.not_isSome_above (hapart : tree.Apart) {middle : Location} {name : Text}
    (hdirectory : tree.isDirectoryAt middle) (habove : location <+: middle ++ [name])
    (hne : location ≠ middle ++ [name]) : ¬ (tree.bytes? location).isSome := by
  intro hbytes
  have hmiddle := (List.prefix_concat_iff.mp habove).resolve_left hne
  have hplain := hapart location hbytes
  rw [isDirectoryAt_up hmiddle hdirectory] at hplain
  cases hplain

/-- What stays in a tree while files are written: the directories, the files, and the bytes of each file that is
not written. -/
structure Keeps (written : Location → Prop) (before after : Tree) : Prop where
  here_eq : after.here = before.here
  directory : ∀ {location}, before.isDirectoryAt location → after.isDirectoryAt location
  file : ∀ {location}, (before.bytes? location).isSome → (after.bytes? location).isSome
  bytes_eq : ∀ {location}, ¬ written location → after.bytes? location = before.bytes? location
  apart : before.Apart → after.Apart

namespace Keeps

variable {written written' : Location → Prop} {before middle after : Tree}

theorem refl (tree : Tree) : Keeps written tree tree :=
  ⟨rfl, id, id, fun _ => rfl, id⟩

theorem trans (hfirst : Keeps written before middle) (hsecond : Keeps written middle after) :
    Keeps written before after where
  here_eq := hsecond.here_eq.trans hfirst.here_eq
  directory := fun hdirectory => hsecond.directory (hfirst.directory hdirectory)
  file := fun hfile => hsecond.file (hfirst.file hfile)
  bytes_eq := fun hother => (hsecond.bytes_eq hother).trans (hfirst.bytes_eq hother)
  apart := fun hapart => hsecond.apart (hfirst.apart hapart)

theorem mono (hkeeps : Keeps written before after) (hwritten : ∀ {location}, written location → written' location) :
    Keeps written' before after where
  here_eq := hkeeps.here_eq
  directory := hkeeps.directory
  file := hkeeps.file
  bytes_eq := fun hother => hkeeps.bytes_eq fun hlocation => hother (hwritten hlocation)
  apart := hkeeps.apart

theorem start_eq (hkeeps : Keeps written before after) (path : Path) : after.start path = before.start path := by
  rw [start, start, hkeeps.here_eq]

theorem place_eq (hkeeps : Keeps written before after) (path : Path) : after.place path = before.place path := by
  rw [place, place, hkeeps.start_eq]

theorem walk (hkeeps : Keeps written before after) {start : Location} {names : List Text}
    (hwalk : before.walk start names = .ok location) : after.walk start names = .ok location := by
  induction names generalizing start with
  | nil => exact hwalk
  | cons name names ih =>
    simp only [Tree.walk] at hwalk ⊢
    split at hwalk
    · cases hwalk
    · rename_i hdirectory
      rw [hkeeps.directory (by simpa using hdirectory)]
      exact ih hwalk

/-- A path leads where it led before. -/
theorem locate (hkeeps : Keeps written before after) (hlocate : before.locate path = .ok location) :
    after.locate path = .ok location := by
  rw [locate_eq_walk, hkeeps.start_eq]
  exact hkeeps.walk hlocate

theorem isDirectory (hkeeps : Keeps written before after) (hdirectory : before.isDirectory path) :
    after.isDirectory path := by
  unfold Tree.isDirectory at hdirectory ⊢
  cases hlocate : before.locate path with
  | error fault =>
    rw [hlocate] at hdirectory
    cases hdirectory
  | ok location =>
    rw [hlocate] at hdirectory
    rw [hkeeps.locate hlocate]
    exact hkeeps.directory hdirectory

/-- A file that is not written is read as before. -/
theorem read_eq (hkeeps : Keeps written before after) (hapart : before.Apart)
    (hlocate : before.locate path = .ok location) (hbytes : (before.bytes? location).isSome)
    (hother : ¬ written location) : after.read path = before.read path := by
  have hplain := hapart location hbytes
  have hplain' := hkeeps.apart hapart location (hkeeps.file hbytes)
  simp only [read, hkeeps.locate hlocate, hlocate, hplain, hplain', hkeeps.bytes_eq hother]

end Keeps

section Put

theorem lookup_cons_eq_ite (file : Location × List UInt8) (files : List (Location × List UInt8)) :
    (file :: files).lookup other = if other = file.1 then some file.2 else files.lookup other := by
  rw [List.lookup_cons]
  by_cases hother : other = file.1
  · rw [if_pos hother, beq_iff_eq.mpr hother]
  · rw [if_neg hother, beq_eq_false_iff_ne.mpr hother]

theorem lookup_putBytes (files : List (Location × List UInt8)) :
    (putBytes location bytes files).lookup other = if other = location then some bytes else files.lookup other := by
  induction files with
  | nil => rw [putBytes, lookup_cons_eq_ite]
  | cons file files ih =>
    rw [putBytes]
    split
    · rename_i hsame
      subst hsame
      simp only [lookup_cons_eq_ite]
      split <;> rfl
    · rename_i hne
      simp only [lookup_cons_eq_ite, ih]
      split
      · rename_i hfile
        rw [if_neg fun hsame => hne (hfile.symm.trans hsame)]
      · rfl

theorem bytes?_put :
    (tree.put location bytes).bytes? other = if other = location then some bytes else tree.bytes? other :=
  lookup_putBytes tree.files

theorem exists_mem_putBytes_iff {files : List (Location × List UInt8)} {p : Location → Prop} :
    (∃ file ∈ putBytes location bytes files, p file.1) ↔ p location ∨ ∃ file ∈ files, p file.1 := by
  induction files with
  | nil => simp [putBytes]
  | cons file files ih =>
    rw [putBytes]
    split
    · rename_i hsame
      subst hsame
      simp
    · simp only [List.exists_mem_cons_iff, ih]
      tauto

theorem map_fst_putBytes {files : List (Location × List UInt8)} (hfile : ∃ file ∈ files, file.1 = location) :
    (putBytes location bytes files).map Prod.fst = files.map Prod.fst := by
  induction files with
  | nil => simp at hfile
  | cons file files ih =>
    rw [putBytes]
    split
    · rename_i hsame
      rw [List.map_cons, List.map_cons, hsame]
    · rename_i hne
      obtain hsame | hfile := List.exists_mem_cons_iff _ _ _ |>.mp hfile
      · exact absurd hsame hne
      · rw [List.map_cons, List.map_cons, ih hfile]

theorem isDirectoryAt_put_iff : (tree.put location bytes).isDirectoryAt other ↔
    tree.isDirectoryAt other ∨ other <+: location ∧ other ≠ location := by
  have hfiles := @exists_mem_putBytes_iff location bytes tree.files fun place => other <+: place ∧ other ≠ place
  rw [isDirectoryAt_iff, isDirectoryAt_iff, put, hfiles]
  grind

/-- A file that is put into a directory takes the place of nothing but a file. -/
theorem keeps_put {middle : Location} {name : Text} (hdirectory : tree.isDirectoryAt middle)
    (hplain : tree.isDirectoryAt (middle ++ [name]) = false) :
    Keeps (· = middle ++ [name]) tree (tree.put (middle ++ [name]) bytes) where
  here_eq := rfl
  directory := fun hbefore => isDirectoryAt_put_iff.mpr (.inl hbefore)
  file := fun hbytes => by
    rw [bytes?_put]
    split
    · rfl
    · exact hbytes
  bytes_eq := fun hother => by rw [bytes?_put, if_neg hother]
  apart := fun hapart location hbytes => by
    rw [← Bool.not_eq_true, isDirectoryAt_put_iff]
    rw [bytes?_put] at hbytes
    rintro (hbefore | ⟨habove, hne⟩)
    · split at hbytes
      · rename_i hsame
        rw [hsame, hplain] at hbefore
        cases hbefore
      · rw [hapart location hbytes] at hbefore
        cases hbefore
    · rw [if_neg hne] at hbytes
      exact hapart.not_isSome_above hdirectory habove hne hbytes

end Put

section MakeDirectories

/-- A new directory takes the place of nothing. -/
theorem keeps_makeDirectory {written : Location → Prop} (hnames : path.names ≠ [])
    (hmake : tree.makeDirectory path = .ok tree') : Keeps written tree tree' := by
  unfold makeDirectory at hmake
  split at hmake
  · cases hmake
  rename_i location hlocate
  split at hmake
  · cases hmake
  rename_i hfree
  obtain ⟨hplain, hfree⟩ := not_or.mp (Bool.or_eq_true_iff.not.mp hfree)
  obtain ⟨middle, -, hdirectory, rfl⟩ := exists_parent_of_locate hnames hlocate (by simpa using hplain)
  obtain rfl := Except.ok.inj hmake
  have hmore (other : Location) :
      isDirectoryAt { tree with directories := tree.directories ++ [middle ++ [path.name]] } other ↔
        tree.isDirectoryAt other ∨ other <+: middle ++ [path.name] := by
    simp only [isDirectoryAt_iff, List.mem_append, List.mem_singleton, or_and_right, exists_or, exists_eq_left]
    grind
  refine ⟨rfl, fun hbefore => (hmore _).mpr (.inl hbefore), id, fun _ => rfl, fun hapart location hbytes => ?_⟩
  have hbytes : (tree.bytes? location).isSome := hbytes
  rw [← Bool.not_eq_true, hmore]
  rintro (hbefore | habove)
  · rw [hapart location hbytes] at hbefore
    cases hbefore
  · have hne : location ≠ middle ++ [path.name] := by
      rintro rfl
      exact hfree hbytes
    exact hapart.not_isSome_above hdirectory habove hne hbytes

theorem keeps_makeDirectoriesUp {written : Location → Prop} {anchor : Anchor} {names : List Text}
    (hmake : tree.makeDirectoriesUp anchor names = .ok tree') : Keeps written tree tree' := by
  -- The induction is on the names from the last one up, as the directories are looked for.
  induction names generalizing tree' with
  | nil =>
    obtain rfl := Except.ok.inj hmake
    exact .refl tree
  | cons name above ih =>
    have hnames : (name :: above).reverse ≠ [] := by simp
    simp only [makeDirectoriesUp] at hmake
    split at hmake
    · obtain rfl := Except.ok.inj hmake
      exact .refl tree
    split at hmake
    · rename_i made hmade
      obtain rfl := Except.ok.inj hmake
      exact keeps_makeDirectory hnames hmade
    · cases hup : tree.makeDirectoriesUp anchor above with
      | error error =>
        rw [hup] at hmake
        cases hmake
      | ok middle =>
        rw [hup] at hmake
        simp only [bind, Except.bind, pure, Except.pure] at hmake
        split at hmake
        · obtain rfl := Except.ok.inj hmake
          exact ih hup
        · cases hmade : middle.makeDirectory ⟨anchor, (name :: above).reverse⟩ with
          | error fault =>
            rw [hmade] at hmake
            cases hmake
          | ok made =>
            rw [hmade] at hmake
            obtain rfl := Except.ok.inj hmake
            exact (ih hup).trans (keeps_makeDirectory hnames hmade)
    · cases hmake

theorem keeps_makeDirectories {written : Location → Prop} (hmake : tree.makeDirectories path = .ok tree') :
    Keeps written tree tree' :=
  keeps_makeDirectoriesUp hmake

/-- Nothing is made where a directory is. -/
theorem makeDirectories_of_isDirectory (hdirectory : tree.isDirectory path) :
    tree.makeDirectories path = .ok tree := by
  unfold makeDirectories
  cases hnames : path.names.reverse with
  | nil => rfl
  | cons name above =>
    have hpath : (⟨path.anchor, (name :: above).reverse⟩ : Path) = path := by
      rw [← hnames, List.reverse_reverse]
    rw [makeDirectoriesUp]
    simp only [hpath, hdirectory, if_true]

end MakeDirectories

section Write

/-- A file is written where its path leads, and nothing else changes. -/
theorem write_eq_ok (hnames : path.names ≠ []) (hwrite : tree.write path bytes = .ok tree') :
    Keeps (· = tree.place path) tree tree' ∧ tree'.bytes? (tree.place path) = some bytes ∧
      tree.locate path = .ok (tree.place path) ∧ tree.isDirectory path.parent := by
  unfold write at hwrite
  split at hwrite
  · cases hwrite
  rename_i location hlocate
  split at hwrite
  · cases hwrite
  rename_i hplain
  have hplain : tree.isDirectoryAt location = false := by simpa using hplain
  obtain rfl := locate_eq_place hlocate
  obtain ⟨middle, hparent, hdirectory, hplace⟩ := exists_parent_of_locate hnames hlocate hplain
  obtain rfl := Except.ok.inj hwrite
  refine ⟨?_, by rw [bytes?_put, if_pos rfl], hlocate, by simp only [isDirectory, hparent, hdirectory]⟩
  rw [hplace] at hplain ⊢
  exact keeps_put hdirectory hplain

end Write

/-- Writes files in order, each with the directories above it. -/
def writeFiles (tree : Tree) : List (Path × List UInt8) → Except FileError Tree
  | [] => .ok tree
  | file :: files => do
    let tree ← tree.makeDirectories file.1.parent
    let tree ← tree.write file.1 file.2
    tree.writeFiles files

section WriteFiles

variable {files : List (Path × List UInt8)}

theorem writeFiles_cons_eq_ok_iff {file : Path × List UInt8} :
    tree.writeFiles (file :: files) = .ok tree' ↔ ∃ ready written, tree.makeDirectories file.1.parent = .ok ready ∧
      ready.write file.1 file.2 = .ok written ∧ written.writeFiles files = .ok tree' := by
  rw [writeFiles]
  cases tree.makeDirectories file.1.parent with
  | error error => simp [bind, Except.bind]
  | ok ready =>
    cases hwrite : ready.write file.1 file.2 <;> simp [bind, Except.bind, hwrite]

theorem writeFiles_append (tree : Tree) (files others : List (Path × List UInt8)) :
    tree.writeFiles (files ++ others) = (tree.writeFiles files).bind fun middle => middle.writeFiles others := by
  induction files generalizing tree with
  | nil => rfl
  | cons file files ih =>
    rw [List.cons_append, writeFiles, writeFiles]
    cases tree.makeDirectories file.1.parent with
    | error error => rfl
    | ok ready =>
      cases hwrite : ready.write file.1 file.2 with
      | error error => simp [bind, Except.bind, hwrite]
      | ok written => simp [bind, Except.bind, hwrite, ih]

theorem keeps_writeFiles (hnames : ∀ file ∈ files, file.1.names ≠ []) (hwrite : tree.writeFiles files = .ok tree') :
    Keeps (fun location => ∃ file ∈ files, location = tree.place file.1) tree tree' := by
  induction files generalizing tree with
  | nil =>
    obtain rfl := Except.ok.inj hwrite
    exact .refl tree
  | cons file files ih =>
    obtain ⟨ready, written, hmake, hfile, hrest⟩ := writeFiles_cons_eq_ok_iff.mp hwrite
    obtain ⟨hname, hnames⟩ := List.forall_mem_cons.mp hnames
    have hready : Keeps (fun location => ∃ other ∈ file :: files, location = tree.place other.1) tree ready :=
      keeps_makeDirectories hmake
    obtain ⟨hwritten, -⟩ := write_eq_ok hname hfile
    rw [hready.place_eq] at hwritten
    have hready := hready.trans (hwritten.mono fun hlocation => ⟨file, List.mem_cons_self, hlocation⟩)
    refine hready.trans ((ih hnames hrest).mono ?_)
    rintro location ⟨other, hother, rfl⟩
    exact ⟨other, List.mem_cons_of_mem file hother, hready.place_eq other.1⟩

/-- After files are written, each file holds what was written there last. -/
theorem bytes?_writeFiles (hnames : ∀ file ∈ files, file.1.names ≠ []) (hwrite : tree.writeFiles files = .ok tree')
    (location : Location) :
    tree'.bytes? location =
      ((files.reverse.find? fun file => tree.place file.1 = location).map Prod.snd).or (tree.bytes? location) := by
  induction files generalizing tree with
  | nil =>
    obtain rfl := Except.ok.inj hwrite
    rfl
  | cons file files ih =>
    obtain ⟨ready, written, hmake, hfile, hrest⟩ := writeFiles_cons_eq_ok_iff.mp hwrite
    obtain ⟨hname, hnames⟩ := List.forall_mem_cons.mp hnames
    have hready : Keeps (fun _ => False) tree ready := keeps_makeDirectories hmake
    obtain ⟨hwritten, hbytes, -⟩ := write_eq_ok hname hfile
    have hplace (path : Path) : written.place path = tree.place path :=
      (hwritten.place_eq path).trans (hready.place_eq path)
    rw [hready.place_eq] at hwritten hbytes
    rw [ih hnames hrest, List.reverse_cons, List.find?_append]
    simp only [hplace]
    -- The files after the first come before it in what was written last.
    cases files.reverse.find? fun file => tree.place file.1 = location with
    | some found => rfl
    | none =>
      rw [Option.map_none, Option.none_or, Option.none_or]
      by_cases hsame : tree.place file.1 = location
      · subst hsame
        simp [hbytes]
      · rw [hwritten.bytes_eq (Ne.symm hsame), hready.bytes_eq id]
        simp [hsame]

theorem locate_writeFiles (hnames : ∀ file ∈ files, file.1.names ≠ []) (hwrite : tree.writeFiles files = .ok tree')
    {file : Path × List UInt8} (hfile : file ∈ files) : tree'.locate file.1 = .ok (tree.place file.1) := by
  obtain ⟨before, after, rfl⟩ := List.append_of_mem hfile
  rw [writeFiles_append] at hwrite
  cases hbefore : tree.writeFiles before with
  | error error =>
    rw [hbefore] at hwrite
    cases hwrite
  | ok middle =>
    rw [hbefore] at hwrite
    obtain ⟨hbeforeNames, hafterNames⟩ := List.forall_mem_append.mp hnames
    obtain ⟨hname, hafterNames⟩ := List.forall_mem_cons.mp hafterNames
    obtain ⟨ready, written, hmake, hwritten, hrest⟩ := writeFiles_cons_eq_ok_iff.mp hwrite
    have hready : Keeps (fun _ => False) middle ready := keeps_makeDirectories hmake
    obtain ⟨hkeeps, -, hlocate, -⟩ := write_eq_ok hname hwritten
    rw [hready.place_eq, (keeps_writeFiles hbeforeNames hbefore).place_eq] at hlocate
    exact (keeps_writeFiles hafterNames hrest).locate (hkeeps.locate hlocate)

/-- The last file that is written at a place is read from there. -/
theorem read_writeFiles (hapart : tree.Apart) {before after : List (Path × List UInt8)} {file : Path × List UInt8}
    (hnames : ∀ other ∈ before ++ file :: after, other.1.names ≠ [])
    (hwrite : tree.writeFiles (before ++ file :: after) = .ok tree')
    (hlast : ∀ other ∈ after, tree.place other.1 ≠ tree.place file.1) : tree'.read file.1 = .ok file.2 := by
  have hbytes : tree'.bytes? (tree.place file.1) = some file.2 := by
    have hafter : (after.reverse.find? fun other => tree.place other.1 = tree.place file.1) = none := by
      simpa using hlast
    rw [bytes?_writeFiles hnames hwrite, List.reverse_append, List.reverse_cons, List.append_assoc, List.find?_append,
      hafter]
    simp
  have hplain := (keeps_writeFiles hnames hwrite).apart hapart _ (Option.isSome_of_eq_some hbytes)
  rw [read, locate_writeFiles hnames hwrite (by simp)]
  simp only [hplain, hbytes, Bool.false_eq_true, if_false]

end WriteFiles

end Tree

end ViewMarkup
