import Mathlib.Data.List.Lex
import ViewMarkup.Proofs.Document.Diagnostics
import ViewMarkup.Proofs.Text.Lines
import ViewMarkup.Proofs.Workspace.Isolation

namespace ViewMarkup

/-- The order of characters by their code points. -/
def codeBefore (c d : Char) : Prop :=
  c.toNat < d.toNat

instance : Std.Asymm codeBefore :=
  ⟨fun _ _ => Nat.lt_asymm⟩

instance : Std.Trichotomous codeBefore :=
  ⟨fun _ _ hnot hnot' => Char.toNat_inj.mp (Nat.le_antisymm (Nat.not_lt.mp hnot') (Nat.not_lt.mp hnot))⟩

instance : IsOrderConnected Char codeBefore :=
  ⟨fun _ d _ hlt => (Nat.lt_or_ge _ d.toNat).imp_right fun hle => Nat.lt_of_le_of_lt hle hlt⟩

/-- The order of names, character by character. -/
def Text.Precedes : Text → Text → Prop :=
  List.Lex codeBefore

instance : Std.Asymm Text.Precedes :=
  inferInstanceAs (Std.Asymm (List.Lex codeBefore))

instance : Std.Trichotomous Text.Precedes :=
  inferInstanceAs (Std.Trichotomous (List.Lex codeBefore))

instance : IsOrderConnected Text Text.Precedes :=
  inferInstanceAs (IsOrderConnected (List Char) (List.Lex codeBefore))

theorem Text.comesBefore_iff {t u : Text} : Text.comesBefore t u ↔ Text.Precedes t u := by
  unfold Text.Precedes
  fun_induction Text.comesBefore t u with
  | case1 => simp
  | case2 => simp
  | case3 t c u ih => simp [List.cons_lex_cons_iff, codeBefore, ih]
  | case4 c t d u hne => simp [List.cons_lex_cons_iff, codeBefore, hne]

namespace Location

/-- The order of locations, name by name. -/
def Precedes : Location → Location → Prop :=
  List.Lex Text.Precedes

instance : Std.Asymm Precedes :=
  inferInstanceAs (Std.Asymm (List.Lex Text.Precedes))

instance : Std.Trichotomous Precedes :=
  inferInstanceAs (Std.Trichotomous (List.Lex Text.Precedes))

instance : IsOrderConnected Location Precedes :=
  inferInstanceAs (IsOrderConnected (List Text) (List.Lex Text.Precedes))

theorem comesBefore_iff {names names' : Location} : comesBefore names names' ↔ Precedes names names' := by
  have hirrefl (t : Text) : ¬ Text.Precedes t t := fun hlex => Std.Asymm.asymm t t hlex hlex
  unfold Precedes
  fun_induction comesBefore names names' with
  | case1 => simp
  | case2 => simp
  | case3 names name names' ih => simp [List.cons_lex_cons_iff, hirrefl, ih]
  | case4 name names name' names' hne => simp [List.cons_lex_cons_iff, Text.comesBefore_iff, hne]

/-- The first one of the locations with a property. -/
def IsFirst (holds : Location → Prop) (names : Location) : Prop :=
  holds names ∧ ∀ other, holds other → other = names ∨ Precedes names other

/-- Different locations that are sorted follow each other. -/
theorem pairwise_mergeSort {found : List Location} (hnodup : found.Nodup) :
    (found.mergeSort fun a b => !comesBefore b a).Pairwise Precedes := by
  have hle {a b : Location} : (!comesBefore b a) = true ↔ ¬ Precedes b a := by
    rw [Bool.not_eq_true', ← comesBefore_iff, Bool.not_eq_true]
  have hsorted : (found.mergeSort fun a b => !comesBefore b a).Pairwise fun a b => !comesBefore b a := by
    refine List.pairwise_mergeSort (fun a b c hab hbc => hle.mpr fun hca => ?_) (fun a b => ?_) found
    · exact (IsOrderConnected.conn c b a hca).elim (hle.mp hbc) (hle.mp hab)
    · rw [Bool.or_eq_true, hle, hle]
      by_cases hba : Precedes b a
      · exact .inr (Std.Asymm.asymm b a hba)
      · exact .inl hba
  have hdistinct := (List.mergeSort_perm found fun a b => !comesBefore b a).nodup_iff.mpr hnodup
  refine (hsorted.and hdistinct).imp fun {a b} hboth => ?_
  by_contra hnot
  exact hboth.2 (Std.Trichotomous.trichotomous a b hnot (hle.mp hboth.1))

/-- What is found first in a sorted list is the first one in order. -/
theorem find?_eq_some_iff {found : List Location} (hsorted : found.Pairwise Precedes) {holds : Location → Bool}
    {names : Location} :
    found.find? holds = some names ↔ IsFirst (fun other => other ∈ found ∧ holds other) names := by
  rw [List.find?_eq_some_iff_append]
  constructor
  · rintro ⟨hholds, before, after, rfl, hbefore⟩
    refine ⟨⟨by simp, hholds⟩, fun other ⟨hother, hholds'⟩ => ?_⟩
    obtain hother | hother := List.mem_append.mp hother
    · have hnot := hbefore other hother
      simp [hholds'] at hnot
    · obtain rfl | hother := List.mem_cons.mp hother
      · exact .inl rfl
      · exact .inr ((List.pairwise_cons.mp (List.pairwise_append.mp hsorted).2.1).1 other hother)
  · rintro ⟨⟨hnames, hholds⟩, hfirst⟩
    obtain ⟨before, after, rfl⟩ := List.append_of_mem hnames
    refine ⟨hholds, before, after, rfl, fun other hother => ?_⟩
    have hprecedes := (List.pairwise_append.mp hsorted).2.2 other hother names List.mem_cons_self
    rw [Bool.not_eq_true']
    by_contra hnot
    obtain rfl | hafter := hfirst other ⟨List.mem_append_left _ hother, Bool.not_eq_false _ ▸ hnot⟩
    · exact Std.Asymm.asymm _ _ hprecedes hprecedes
    · exact Std.Asymm.asymm _ _ hprecedes hafter

end Location

theorem Utf8.firstLine_of_fault {bytes : List UInt8} {error : Utf8Error} (hdecode : Utf8.decodeLines bytes = .error error)
    (hfault : error.fault ≠ .unexpectedEnd) : Utf8.firstLine bytes = .error error := by
  unfold Utf8.decodeLines at hdecode
  unfold Utf8.firstLine
  cases hbytes : Utf8.decode bytes with
  | error other =>
    rw [hbytes] at hdecode
    obtain rfl := Except.error.inj hdecode
    exact if_pos hfault
  | ok raw =>
    rw [hbytes] at hdecode
    cases hdecode

theorem Text.not_mem_foldNewlines (t : Text) : '\r' ∉ Text.foldNewlines t := by
  fun_induction Text.foldNewlines t with
  | case1 => exact List.not_mem_nil
  | case2 rest ih => simpa using ih
  | case3 c rest _ ih =>
    refine List.not_mem_cons_of_ne_of_not_mem ?_ ih
    split
    · decide
    · rename_i hother
      exact Ne.symm hother

/-- The first line of a text without carriage returns is what stands before its first line feed. -/
theorem Text.exists_lines_eq {t : Text} (hreturns : '\r' ∉ t) : ∃ body, Text.lines t = Utf8.leadingLine t :: body := by
  have hleading : '\n' ∉ Utf8.leadingLine t := fun hmem => by simpa using List.mem_takeWhile_imp hmem
  have hsplit : Utf8.leadingLine t ++ t.dropWhile (· != '\n') = t := List.takeWhile_append_dropWhile
  cases hrest : t.dropWhile (· != '\n') with
  | nil =>
    rw [hrest, List.append_nil] at hsplit
    rw [hsplit] at hleading ⊢
    exact ⟨[], Text.lines_of_not_mem hleading hreturns⟩
  | cons c rest =>
    have hfeed : c = '\n' := by
      have hhead := List.head?_dropWhile_not (· != '\n') t
      simpa [hrest] using hhead
    rw [hrest, hfeed] at hsplit
    rw [← hsplit] at hreturns
    obtain ⟨hfirst, hbody⟩ : '\r' ∉ Utf8.leadingLine t ∧ '\r' ∉ rest := by simpa using hreturns
    refine ⟨Text.lines rest, ?_⟩
    conv_lhs => rw [← hsplit]
    exact Text.lines_append hleading hfirst hbody

namespace Signature

variable {source : Text}

theorem name_read {name parameters : Text} (hparts : parts? (Text.trim source) = some (name, parameters)) (line : Int) :
    (read source line).1.name = name := by
  rw [read, hparts]

theorem exists_fault (hparts : parts? (Text.trim source) = none) (line : Int) :
    ∃ fault ∈ (read source line).2, fault.code = .invalidComponentSignature := by
  rw [read, hparts]
  exact ⟨_, List.mem_singleton_self _, rfl⟩

end Signature

/-- Only a first line that is no signature has a fault as a whole. -/
theorem Reports.of_invalidComponentSignature {raw message fragment : Text} {line : Nat} {code : DiagnosticCode}
    {column : Int} (hreports : Reports raw line code message column fragment)
    (hcode : code = .invalidComponentSignature) : line = 0 ∧ Signature.parts? (Text.trim raw) = none := by
  cases hreports with
  | signature hparts => exact ⟨rfl, hparts⟩
  | value _ kind => cases kind <;> cases hcode
  | _ => cases hcode

namespace Document

/-- A document of a component, without a fault in its signature as a whole. -/
def Declares (document : Document) (tag : Text) : Prop :=
  (∃ signature, document.signature? = some signature ∧ signature.name = tag) ∧
    ∀ fault ∈ document.diagnostics, fault.code ≠ .emptyFile ∧ fault.code ≠ .invalidComponentSignature

theorem mem_diagnostics_of_signature {first : Text} {fault : Diagnostic} (hfault : fault ∈ (Signature.read first 0).2)
    (body : List Text) : fault ∈ (draft first body).diagnostics := by
  obtain ⟨faults, _, hdiagnostics⟩ := ((Draft.empty_shaped (Signature.read first 0).2).grows_run 1 body).diagnostics
  rw [draft, hdiagnostics]
  exact List.mem_append_left _ hfault

/-- A document declares what its first line declares. -/
theorem declares_iff {t first tag : Text} {body : List Text} (hlines : Text.lines t = first :: body) :
    (ofText t).Declares tag ↔ Signature.declaredName? first = some tag := by
  constructor
  · rintro ⟨⟨signature, hsignature, rfl⟩, hfaults⟩
    have hfirst : Text.trim first ≠ [] := by
      intro hblank
      rw [ofText_of_blank hlines hblank] at hsignature
      cases hsignature
    rw [ofText_of_lines hlines hfirst] at hsignature hfaults
    obtain rfl := Option.some.inj hsignature
    cases hparts : Signature.parts? (Text.trim first) with
    | none =>
      obtain ⟨fault, hfault, hcode⟩ := Signature.exists_fault hparts 0
      exact absurd hcode (hfaults fault (mem_diagnostics_of_signature hfault body)).2
    | some parts => rw [Signature.declaredName?, hparts, Signature.name_read hparts, Option.map_some]
  · intro hname
    obtain ⟨⟨_, parameters⟩, hparts, rfl⟩ := Option.map_eq_some_iff.mp hname
    have hfirst : Text.trim first ≠ [] := by
      intro hblank
      rw [hblank] at hparts
      cases hparts
    rw [ofText_of_lines hlines hfirst]
    refine ⟨⟨_, rfl, Signature.name_read hparts 0⟩, fun fault hfault => ?_⟩
    -- a fault of the signature as a whole would be on the first line, which is a signature
    obtain ⟨l, raw, hraw, _, _, _, _, _, hreports, _⟩ := (draft_surveyed hfirst body).points fault hfault
    constructor
    · intro hcode
      obtain ⟨rfl, hblank, -⟩ := hreports.of_emptyFile hcode
      obtain rfl : first = raw := by simpa using hraw
      exact hfirst hblank
    · intro hcode
      obtain ⟨rfl, hnone⟩ := hreports.of_invalidComponentSignature hcode
      obtain rfl : first = raw := by simpa using hraw
      simp [hparts] at hnone

end Document

namespace Tree

variable {tree : Tree} {root source : Path} {suffixes : List Text} {tag : Text}

/-- A file that can be read as a document and declares a component. -/
def Declares (tree : Tree) (source : Path) (tag : Text) : Prop :=
  ∃ document log, tree.readDocument source = .ok (document, log) ∧ document.Declares tag

/-- A file that is decoded as a whole: its first line can be read only if all of it can. The file may be no text, but
it does not end inside a character behind its first line. -/
def DecodedWhole (tree : Tree) (source : Path) : Prop :=
  ∀ line, tree.readFirstLine source = .ok line → ∃ t, tree.readText source = .ok t

theorem decodedWhole_of_readText {t : Text} (hread : tree.readText source = .ok t) : tree.DecodedWhole source :=
  fun _ _ => ⟨t, hread⟩

/-- Bytes that are no character anywhere in a file keep its first line from being read. -/
theorem decodedWhole_of_fault {error : Utf8Error} (hread : tree.readText source = .error (.utf8 error))
    (hfault : error.fault ≠ .unexpectedEnd) : tree.DecodedWhole source := by
  intro line hline
  unfold readText at hread
  unfold readFirstLine at hline
  split at hread
  · cases hread
  · rename_i bytes hbytes
    have hdecode : Utf8.decodeLines bytes = .error error := by
      cases hlines : Utf8.decodeLines bytes with
      | error other =>
        rw [hlines] at hread
        rw [ReadError.utf8.inj (Except.error.inj hread)]
      | ok t => rw [hlines] at hread; cases hread
    rw [hbytes] at hline
    dsimp only at hline
    rw [Utf8.firstLine_of_fault hdecode hfault] at hline
    cases hline

-- a file that ends inside a character behind its first line has a first line only
example : let tree : Tree := ⟨[(["a.lnr"], Utf8.encode "Card()\n" ++ [0xe2])], [], []⟩
    tree.readFirstLine (Path.ofText "a.lnr") = .ok "Card()" ∧
      tree.readText (Path.ofText "a.lnr") = .error (.utf8 ⟨.unexpectedEnd, 7, 1, 0xe2⟩) := by
  decide +kernel

/-- The first line of a text that can be read is read as well when nothing else is. -/
theorem exists_lines_of_readText {t : Text} (hread : tree.readText source = .ok t) :
    ∃ first body, tree.readFirstLine source = .ok first ∧ Text.lines t = first :: body := by
  unfold readText at hread
  unfold readFirstLine
  split at hread
  · cases hread
  · rename_i bytes hbytes
    obtain ⟨raw, hraw⟩ : ∃ raw, Utf8.decodeLines bytes = .ok (Text.foldNewlines raw) := by
      unfold Utf8.decodeLines at hread ⊢
      cases hdecode : Utf8.decode bytes with
      | error => rw [hdecode] at hread; cases hread
      | ok raw => exact ⟨raw, rfl⟩
    rw [hraw] at hread
    obtain rfl := Except.ok.inj hread
    obtain ⟨body, hlines⟩ := Text.exists_lines_eq (Text.not_mem_foldNewlines raw)
    exact ⟨_, body, congrArg (Except.mapError ReadError.utf8) (Utf8.firstLine_of_decodeLines hraw), hlines⟩

/-- The first line of a file that is decoded as a whole tells what the file declares. -/
theorem DecodedWhole.declares_iff (hwhole : tree.DecodedWhole source) :
    tree.Declares source tag ↔ tree.declaredTag? source = some tag := by
  unfold Declares readDocument declaredTag?
  cases hread : tree.readText source with
  | error error =>
    cases hline : tree.readFirstLine source with
    | error => simp [Except.map, Except.toOption]
    | ok line =>
      obtain ⟨t, ht⟩ := hwhole line hline
      rw [hread] at ht
      cases ht
  | ok t =>
    obtain ⟨first, body, hfirst, hlines⟩ := exists_lines_of_readText hread
    rw [hfirst]
    refine Iff.trans ⟨?_, fun hdeclares => ⟨_, _, rfl, hdeclares⟩⟩ (Document.declares_iff hlines)
    rintro ⟨document, log, hdocument, hdeclares⟩
    have hsame : (Document.read t).1 = document := congrArg Prod.fst (Except.ok.inj hdocument)
    exact hsame ▸ hdeclares

/-- A file below a directory, by the names that lead to it, with one of some suffixes. -/
structure HasSource (tree : Tree) (root : Path) (suffixes : List Text) (names : Location) : Prop where
  ne_nil : names ≠ []
  isSome : (tree.bytes? (tree.place root ++ names)).isSome
  suffix : (root.join ⟨.here, names⟩).suffix ∈ suffixes

theorem mem_filesBelow_iff {location names : Location} :
    names ∈ tree.filesBelow location ↔ names ≠ [] ∧ (tree.bytes? (location ++ names)).isSome := by
  constructor
  · intro hnames
    obtain ⟨hne, hfile⟩ := mem_filesBelow hnames
    exact ⟨hne, isSome_bytes?_iff.mpr hfile⟩
  · rintro ⟨hne, hbytes⟩
    obtain ⟨file, hfile, hplace⟩ := isSome_bytes?_iff.mp hbytes
    refine List.mem_filterMap.mpr ⟨file, hfile, Option.filter_eq_some_iff.mpr ⟨?_, decide_eq_true hne⟩⟩
    exact Path.below?_eq_some_iff.mpr hplace

/-- The sources below a directory are its files with the suffixes, in the order of paths. -/
theorem Regular.exists_names (hregular : tree.Regular) (hroot : tree.isDirectory root) (suffixes : List Text) :
    ∃ found : List Location, tree.sources root suffixes = found.map (fun names => root.join ⟨.here, names⟩) ∧
      found.Pairwise Location.Precedes ∧ ∀ names, names ∈ found ↔ tree.HasSource root suffixes names := by
  obtain ⟨location, hlocate⟩ : ∃ location, tree.locate root = .ok location := by
    unfold isDirectory at hroot
    split at hroot
    · exact ⟨_, ‹_›⟩
    · cases hroot
  have hsources : tree.sources root suffixes =
      (((tree.filesBelow location).mergeSort fun a b => !Location.comesBefore b a).filter fun names =>
        suffixes.contains (root.join ⟨.here, names⟩).suffix).map fun names => root.join ⟨.here, names⟩ := by
    unfold sources
    dsimp only
    rw [hregular.isFile_eq_false hroot, if_neg Bool.false_ne_true, hlocate]
    exact List.filter_map
  refine ⟨_, hsources, (Location.pairwise_mergeSort (hregular.nodup_filesBelow location)).filter _, fun names => ?_⟩
  rw [List.mem_filter, List.mem_mergeSort, mem_filesBelow_iff, List.contains_iff_mem, locate_eq_place hlocate]
  exact ⟨fun ⟨⟨hne, hbytes⟩, hsuffix⟩ => ⟨hne, hbytes, hsuffix⟩,
    fun hsource => ⟨⟨hsource.ne_nil, hsource.isSome⟩, hsource.suffix⟩⟩

/-- A tag is recorded with the path of the first source, in the order of paths, that can be read and whose document
declares it. -/
theorem lookup_components_iff (hregular : tree.Regular) (hroot : tree.isDirectory root) (suffixes : List Text)
    (hwhole : ∀ source ∈ tree.sources root suffixes, tree.DecodedWhole source) (tag path : Text) :
    (tree.components root suffixes).1.lookup tag = some path ↔
      ∃ names, Location.IsFirst (fun names => tree.HasSource root suffixes names ∧
          tree.Declares (root.join ⟨.here, names⟩) tag) names ∧
        path = ((Path.mk .here names).replaceSuffix []).toText := by
  obtain ⟨found, hsources, hsorted, hfound⟩ := hregular.exists_names hroot suffixes
  have hfirst (names : Location) :
      found.find? (fun names => tree.declaredTag? (root.join ⟨.here, names⟩) = some tag) = some names ↔
        Location.IsFirst (fun names => tree.HasSource root suffixes names ∧
          tree.Declares (root.join ⟨.here, names⟩) tag) names := by
    have hsame : (fun names => names ∈ found ∧
        decide (tree.declaredTag? (root.join ⟨.here, names⟩) = some tag) = true) =
          fun names => tree.HasSource root suffixes names ∧ tree.Declares (root.join ⟨.here, names⟩) tag := by
      funext names
      rw [decide_eq_true_iff, ← hfound]
      refine propext (and_congr_right fun hnames => ?_)
      have hsource := List.mem_map_of_mem (f := fun names => root.join ⟨.here, names⟩) hnames
      exact (hwhole _ (hsources ▸ hsource)).declares_iff.symm
    rw [Location.find?_eq_some_iff hsorted, hsame]
  rw [lookup_components tree hroot, declaring?, hsources, List.find?_map, Option.map_map, Option.map_eq_some_iff]
  refine exists_congr fun names => and_congr (hfirst names) ?_
  rw [Function.comp_apply, Path.recorded, Path.relativeTo?_join, Option.getD_some]
  exact eq_comm

/-- Four sources that begin with the name of a card: no text, a text with other line ends, a text, and a text whose
first line is no signature. -/
def sharedTagTree : Tree where
  files := [(["src", "a.lnr"], Utf8.encode "Card()\n" ++ [0xff]), (["src", "b", "c.lunor"], Utf8.encode "\u00a0Card()\r:Badge"),
    (["src", "b.lnr"], Utf8.encode "Card()"), (["src", "d.lnr"], Utf8.encode "Card")]
  directories := []
  here := []

theorem lookup_components_iff_shared :
    (sharedTagTree.components (Path.ofText "src") Document.suffixes).1.lookup "Card".toList = some "b/c".toList ∧
      ∃ names, Location.IsFirst (fun names => sharedTagTree.HasSource (Path.ofText "src") Document.suffixes names ∧
          sharedTagTree.Declares ((Path.ofText "src").join ⟨.here, names⟩) "Card") names ∧
        "b/c".toList = ((Path.mk .here names).replaceSuffix []).toText := by
  have hroot : sharedTagTree.isDirectory (Path.ofText "src") := by decide +kernel
  have hsources : sharedTagTree.sources (Path.ofText "src") Document.suffixes =
      [Path.ofText "src/a.lnr", Path.ofText "src/b/c.lunor", Path.ofText "src/b.lnr", Path.ofText "src/d.lnr"] := by
    rw [@sources_of_pairwise sharedTagTree (Path.ofText "src") ["src"] (by decide +kernel) (by decide +kernel)
      (by decide +kernel)]
    decide +kernel
  have hwhole : ∀ source ∈ sharedTagTree.sources (Path.ofText "src") Document.suffixes,
      sharedTagTree.DecodedWhole source := by
    have hbroken : sharedTagTree.readText (Path.ofText "src/a.lnr") = .error (.utf8 ⟨.invalidStart, 7, 1, 0xff⟩) := by
      decide +kernel
    rw [hsources]
    simp only [List.forall_mem_cons]
    refine ⟨decodedWhole_of_fault hbroken (by decide),
      decodedWhole_of_readText (t := "\u00a0Card()\n:Badge") (by decide +kernel),
      decodedWhole_of_readText (t := "Card()") (by decide +kernel),
      decodedWhole_of_readText (t := "Card") (by decide +kernel), by simp⟩
  have hlookup : (sharedTagTree.components (Path.ofText "src") Document.suffixes).1.lookup "Card".toList = some "b/c".toList := by
    rw [lookup_components sharedTagTree hroot, declaring?, hsources]
    decide +kernel
  exact ⟨hlookup, (lookup_components_iff (by decide +kernel) hroot Document.suffixes hwhole "Card" "b/c").mp hlookup⟩

end Tree

end ViewMarkup
