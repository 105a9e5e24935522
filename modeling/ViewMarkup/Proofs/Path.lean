import ViewMarkup.Path
import ViewMarkup.Proofs.Text.Lines

namespace ViewMarkup

/-- A name that a file or directory can have. -/
structure Text.IsFileName (name : Text) : Prop where
  ne_nil : name ≠ []
  ne_dot : name ≠ ['.']
  not_mem_slash : '/' ∉ name

instance (name : Text) : Decidable name.IsFileName :=
  decidable_of_iff (name ≠ [] ∧ name ≠ ['.'] ∧ '/' ∉ name)
    ⟨fun h => ⟨h.1, h.2.1, h.2.2⟩, fun h => ⟨h.ne_nil, h.ne_dot, h.not_mem_slash⟩⟩

/-- What can stand behind the dot of a suffix. -/
structure Text.IsExtension (extension : Text) : Prop where
  ne_nil : extension ≠ []
  not_mem_dot : '.' ∉ extension
  not_mem_slash : '/' ∉ extension

namespace Path

section Suffix

variable {name stem extension : Text}

theorem splitName_fst_isPrefix (name : Text) : (splitName name).1 <+: name := by
  unfold splitName
  dsimp only
  split
  · exact List.prefix_refl name
  · exact List.take_prefix _ _

theorem splitName_fst_ne_nil (hname : name ≠ []) : (splitName name).1 ≠ [] := by
  unfold splitName
  dsimp only
  split
  · exact hname
  · rename_i hcut
    exact (not_or.mp hcut).2

/-- A suffix is found again behind the name to which it was added. -/
theorem splitName_append (hstem : stem ≠ []) (hextension : Text.IsExtension extension) :
    splitName (stem ++ '.' :: extension) = (stem, '.' :: extension) := by
  have hreverse : (stem ++ '.' :: extension).reverse = extension.reverse ++ '.' :: stem.reverse := by simp
  have hdots : ∀ c ∈ extension.reverse, (c != '.') = true := fun c hc =>
    bne_iff_ne.mpr fun hdot => hextension.not_mem_dot (hdot ▸ List.mem_reverse.mp hc)
  have hbehind : ((stem ++ '.' :: extension).reverse.takeWhile (· != '.')).reverse = extension := by
    rw [hreverse, List.takeWhile_append_of_pos hdots]
    simp
  have hlength : (stem ++ '.' :: extension).length - extension.length - 1 = stem.length := by
    rw [List.length_append, List.length_cons]
    omega
  unfold splitName
  dsimp only
  rw [hbehind, hlength, List.take_left, if_neg (by simp [hextension.ne_nil, hstem])]

theorem isSuffix_cons (hextension : Text.IsExtension extension) : isSuffix ('.' :: extension) := by
  simp [isSuffix, hextension.ne_nil, hextension.not_mem_slash]

/-- A name with a suffix is longer than one dot or two. -/
theorem two_lt_length_append (hstem : stem ≠ []) (hextension : Text.IsExtension extension) :
    2 < (stem ++ '.' :: extension).length := by
  have hstem := List.length_pos_iff.mpr hstem
  have hextension := List.length_pos_iff.mpr hextension.ne_nil
  rw [List.length_append, List.length_cons]
  omega

end Suffix

section Text

variable {names : List Text}

/-- The text of a path spells the path, but for names that are a single dot. -/
theorem ofText_toText (hnames : ∀ name ∈ names, name ≠ [] ∧ '/' ∉ name) :
    ofText (toText ⟨.here, names⟩) = (Path.mk .here names).withoutDots := by
  cases names with
  | nil => rfl
  | cons name names =>
    have hsplit : Text.split '/' (Text.join "/" (name :: names)) = name :: names := by
      rw [Text.split_eq_splitOn]
      exact List.splitOn_intercalate '/' (fun other hother => (hnames other hother).2) (List.cons_ne_nil _ _)
    -- The text starts with the first character of a name, so it is not taken for one that starts at the root.
    obtain ⟨hne, hslash⟩ := hnames name List.mem_cons_self
    obtain ⟨c, rest, rfl⟩ := List.exists_cons_of_ne_nil hne
    have hstart : ∃ after, Text.join "/" ((c :: rest) :: names) = c :: after := by
      cases names with
      | nil => exact ⟨rest, by simp [Text.join]⟩
      | cons other names => exact ⟨_, by rw [Text.join, List.intercalate_cons_cons]; rfl⟩
    obtain ⟨after, hafter⟩ := hstart
    have hc : c ≠ '/' := fun hc => hslash (hc ▸ List.mem_cons_self)
    have htext : toText ⟨.here, (c :: rest) :: names⟩ = Text.join "/" ((c :: rest) :: names) := rfl
    have hfilter : ((c :: rest) :: names).filter (fun name => name != [] && name != ['.']) =
        ((c :: rest) :: names).filter (· != ['.']) :=
      List.filter_congr fun other hother => by simp [(hnames other hother).1]
    unfold ofText
    rw [htext, hsplit, hfilter, hafter]
    congr 1
    split <;> simp_all

end Text

theorem below?_eq_some_iff {names ancestor rest : List Text} :
    below? names ancestor = some rest ↔ names = ancestor ++ rest := by
  fun_induction below? names ancestor with
  | case1 names => simp [eq_comm]
  | case2 => simp
  | case3 names other ancestor ih => simp [ih]
  | case4 name names other ancestor hne => simp [hne]

/-- The path from a root to a path below it. -/
theorem relativeTo?_join (root : Path) (names : List Text) :
    (root.join ⟨.here, names⟩).relativeTo? root = some ⟨.here, names⟩ := by
  rw [relativeTo?, join, if_pos rfl, below?_eq_some_iff.mpr rfl, Option.map_some]

/-- Two paths with the same names, but for those that are a single dot. -/
def SamePlace (path other : Path) : Prop :=
  path.withoutDots = other.withoutDots

instance (path other : Path) : Decidable (path.SamePlace other) :=
  inferInstanceAs (Decidable (_ = _))

/-- The path of a source below a root, without its suffix. -/
def recorded (source root : Path) : Text :=
  (((source.relativeTo? root).getD source).replaceSuffix []).toText

section Output

variable {above above' : List Text} {name name' extension : Text} (root directory : Path)

theorem ofText_recorded (hnames : ∀ other ∈ above ++ [name], Text.IsFileName other) :
    ofText (recorded (root.join ⟨.here, above ++ [name]⟩) root) =
      (Path.mk .here (above ++ [(splitName name).1])).withoutDots := by
  have hreplaced : (Path.mk .here (above ++ [name])).replaceSuffix [] =
      ⟨.here, above ++ [(splitName name).1]⟩ := by
    simp [replaceSuffix, Path.name]
  rw [recorded, relativeTo?_join, Option.getD_some, hreplaced]
  obtain ⟨habove, hname⟩ := List.forall_mem_append.mp hnames
  have hname := List.forall_mem_singleton.mp hname
  refine ofText_toText (List.forall_mem_append.mpr ⟨fun other hother => ?_, List.forall_mem_singleton.mpr ?_⟩)
  · exact ⟨(habove other hother).ne_nil, (habove other hother).not_mem_slash⟩
  · exact ⟨splitName_fst_ne_nil hname.ne_nil, fun hslash =>
      hname.not_mem_slash ((splitName_fst_isPrefix name).subset hslash)⟩

/-- The output of a source below the root has the same place below the directory. -/
theorem output_join (hnames : ∀ other ∈ above ++ [name], Text.IsFileName other)
    (hextension : Text.IsExtension extension) :
    (root.join ⟨.here, above ++ [name]⟩).output root directory ('.' :: extension) =
      .ok (directory.join ⟨.here, above ++ [(splitName name).1 ++ '.' :: extension]⟩) := by
  obtain ⟨habove, hname⟩ := List.forall_mem_append.mp hnames
  have hname := List.forall_mem_singleton.mp hname
  have hlast : (Path.mk .here (above ++ [name])).name = name := by simp [Path.name]
  have hdots : (Path.mk .here (above ++ [(splitName name).1 ++ '.' :: extension])).withoutDots =
      ⟨.here, above ++ [(splitName name).1 ++ '.' :: extension]⟩ := by
    rw [withoutDots, List.filter_eq_self.mpr]
    refine List.forall_mem_append.mpr ⟨fun other hother => ?_, List.forall_mem_singleton.mpr ?_⟩
    · exact bne_iff_ne.mpr (habove other hother).ne_dot
    · -- With a suffix the last name is too long for a single dot.
      refine bne_iff_ne.mpr fun hdot => ?_
      have hlength := two_lt_length_append (splitName_fst_ne_nil hname.ne_nil) hextension
      simp [hdot] at hlength
  rw [output, relativeTo?_join, Option.getD_some, withSuffix, isSuffix_cons hextension, hlast, if_neg (by simp),
    if_neg hname.ne_nil, replaceSuffix, hlast, List.dropLast_concat]
  exact congrArg Except.ok (congrArg directory.join hdots)

theorem parent_join : (root.join ⟨.here, above ++ [name]⟩).parent = root.join ⟨.here, above⟩ := by
  simp [parent, join, ← List.append_assoc]

theorem parent_join_eq_iff : (root.join ⟨.here, above ++ [name]⟩).parent = root ↔ above = [] := by
  rw [parent_join]
  obtain ⟨anchor, names⟩ := root
  simp [join]

theorem replaceSuffix_join {stem : Text} (hstem : stem ≠ []) (hextension : Text.IsExtension extension)
    (suffix : Text) :
    (directory.join ⟨.here, above ++ [stem ++ '.' :: extension]⟩).replaceSuffix suffix =
      directory.join ⟨.here, above ++ [stem ++ suffix]⟩ := by
  have hlast : (directory.join ⟨.here, above ++ [stem ++ '.' :: extension]⟩).name = stem ++ '.' :: extension := by
    simp [Path.name, join, ← List.append_assoc]
  rw [replaceSuffix, hlast, splitName_append hstem hextension]
  simp [join, ← List.append_assoc]

/-- A recorded path leads from the directory of one output to another output without its suffix exactly if the
first output stands right in the output directory. -/
theorem samePlace_recorded_iff {file : Text} (habove : ∀ other ∈ above, Text.IsFileName other)
    (hnames : ∀ other ∈ above' ++ [name'], Text.IsFileName other) (hextension : Text.IsExtension extension) :
    SamePlace
        ((directory.join ⟨.here, above ++ [file]⟩).parent.join
          (ofText (recorded (root.join ⟨.here, above' ++ [name']⟩) root)))
        ((directory.join ⟨.here, above' ++ [(splitName name').1 ++ '.' :: extension]⟩).replaceSuffix []) ↔
      above = [] := by
  have hname := List.forall_mem_singleton.mp (List.forall_mem_append.mp hnames).2
  have hkept : above.filter (· != ['.']) = above :=
    List.filter_eq_self.mpr fun other hother => bne_iff_ne.mpr (habove other hother).ne_dot
  rw [parent_join, ofText_recorded root hnames, replaceSuffix_join directory (splitName_fst_ne_nil hname.ne_nil)
    hextension, List.append_nil]
  simp [SamePlace, withoutDots, join, hkept]

end Output

section Place

variable {source root directory output : Path} {extension : Text}

/-- The last name without its suffix. -/
def stem (path : Path) : Text :=
  (splitName path.name).1

/-- The names between a root and the last name of a source below it; there are none if the source is not below
the root. -/
def between (source root : Path) : List Text :=
  ((source.relativeTo? root).map fun relative => relative.names.dropLast).getD []

theorem relativeTo?_eq_some_iff {relative : Path} :
    source.relativeTo? root = some relative ↔ relative.anchor = .here ∧ source = root.join relative := by
  obtain ⟨anchor, names⟩ := relative
  constructor
  · intro hrelative
    unfold relativeTo? at hrelative
    split at hrelative
    · rename_i hanchor
      obtain ⟨rest, hrest, hsame⟩ := Option.map_eq_some_iff.mp hrelative
      obtain ⟨rfl, rfl⟩ := Path.mk.inj hsame
      exact ⟨rfl, by rw [join, ← hanchor, ← below?_eq_some_iff.mp hrest]⟩
    · cases hrelative
  · rintro ⟨hanchor, rfl⟩
    obtain rfl : anchor = .here := hanchor
    exact relativeTo?_join root names

theorem dropLast_append_name {path : Path} (hnames : path.names ≠ []) :
    path.names.dropLast ++ [path.name] = path.names := by
  rw [name, List.getLast?_eq_some_getLast hnames, Option.getD_some, List.dropLast_append_getLast]

theorem name_join {relative : Path} (hanchor : relative.anchor = .here) (hnames : relative.names ≠ []) :
    (root.join relative).name = relative.name := by
  rw [join, hanchor, name, name, List.getLast?_append_of_ne_nil _ hnames]

theorem stem_ne_nil {path : Path} (hname : path.name ≠ []) : path.stem ≠ [] :=
  splitName_fst_ne_nil hname

/-- What stands for a source below the root: its path from there, or only its name. -/
def standIn (source root : Path) : Path :=
  (source.relativeTo? root).getD ⟨.here, if source.name = [] then [] else [source.name]⟩

theorem standIn_of_output (hextension : Text.IsExtension extension)
    (houtput : source.output root directory ('.' :: extension) = .ok output) :
    (source.standIn root).name ≠ [] ∧
      output = directory.join ((source.standIn root).replaceSuffix ('.' :: extension)).withoutDots := by
  have hmap : source.output root directory ('.' :: extension) =
      ((source.standIn root).withSuffix ('.' :: extension)).map fun named => directory.join named.withoutDots := rfl
  rw [hmap, withSuffix, isSuffix_cons hextension, if_neg (by simp)] at houtput
  split at houtput
  · cases houtput
  · rename_i hname
    exact ⟨hname, (Except.ok.inj houtput).symm⟩

theorem exists_standIn (hname : (source.standIn root).name ≠ []) :
    source.name ≠ [] ∧ ∃ names, source.standIn root = ⟨.here, names⟩ ∧ names.dropLast = source.between root ∧
      (Path.mk .here names).name = source.name := by
  unfold standIn at hname ⊢
  cases hrelative : source.relativeTo? root with
  | none =>
    rw [hrelative, Option.getD_none] at hname
    have hsource : source.name ≠ [] := fun hempty => hname (by rw [if_pos hempty]; rfl)
    refine ⟨hsource, [source.name], ?_, ?_, ?_⟩
    · rw [Option.getD_none, if_neg hsource]
    · rw [between, hrelative]
      rfl
    · rw [name, List.getLast?_singleton, Option.getD_some]
  | some relative =>
    rw [hrelative, Option.getD_some] at hname
    obtain ⟨anchor, names⟩ := relative
    obtain ⟨rfl, rfl⟩ := relativeTo?_eq_some_iff.mp hrelative
    have hnames : names ≠ [] := fun hempty => hname (by rw [hempty]; rfl)
    have hsame := @name_join root ⟨.here, names⟩ rfl hnames
    refine ⟨hsame ▸ hname, names, rfl, ?_, hsame.symm⟩
    rw [between, hrelative]
    rfl

/-- Where an output is: below the directory as its source is below the root, with the name of the source and
another suffix. -/
theorem output_eq_ok (hextension : Text.IsExtension extension)
    (houtput : source.output root directory ('.' :: extension) = .ok output) :
    source.name ≠ [] ∧ output = directory.join
      ⟨.here, (source.between root).filter (· != ['.']) ++ [source.stem ++ '.' :: extension]⟩ := by
  obtain ⟨hname, rfl⟩ := standIn_of_output hextension houtput
  obtain ⟨hsource, names, hstand, hbetween, hnames⟩ := exists_standIn hname
  have hlast : ((splitName source.name).1 ++ '.' :: extension) != ['.'] := by
    have hlength := two_lt_length_append (splitName_fst_ne_nil hsource) hextension
    refine bne_iff_ne.mpr fun hdot => ?_
    simp [hdot] at hlength
  refine ⟨hsource, ?_⟩
  rw [hstand, replaceSuffix, hnames, hbetween]
  simp only [withoutDots, stem, List.filter_append, List.filter_cons, hlast, if_true, List.filter_nil]

end Place

end Path

end ViewMarkup
