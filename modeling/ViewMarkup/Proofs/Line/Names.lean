import ViewMarkup.Proofs.Line.Outcome
import ViewMarkup.Proofs.Node.Preorder
import ViewMarkup.Proofs.Text.Scan

namespace ViewMarkup

theorem toNat_le_of_isAlpha {c : Char} (hletter : c.isAlpha) : c.toNat ≤ 122 := by
  obtain hupper | hlower := Bool.or_eq_true_iff.mp hletter
  · have hle : c.val ≤ 'Z'.val := (of_decide_eq_true hupper).2
    exact (UInt32.le_iff_toNat_le.mp hle).trans (by decide)
  · have hle : c.val ≤ 'z'.val := of_decide_eq_true (Bool.and_eq_true_iff.mp hlower).2
    exact UInt32.le_iff_toNat_le.mp hle

/-- An ASCII letter is a word character. -/
theorem isWord_of_isAlpha {c : Char} (hletter : c.isAlpha) : isWord c := by
  have hascii : c.toNat < 128 := (toNat_le_of_isAlpha hletter).trans_lt (by decide)
  have halphanum : c.isAlphanum := Bool.or_eq_true_iff.mpr (.inl hletter)
  rw [isWord, if_pos hascii, halphanum, Bool.true_or]

/-- An ASCII letter is no digit. -/
theorem isDigit_eq_false_of_isAlpha {c : Char} (hletter : c.isAlpha) : isDigit c = false := by
  have hascii : c.toNat < 123 := (toNat_le_of_isAlpha hletter).trans_lt (by decide)
  have hall : ∀ code < 123, (Char.ofNat code).isAlpha → isDigit (Char.ofNat code) = false := by decide +kernel
  have hdigit := hall c.toNat hascii
  rw [Char.ofNat_toNat] at hdigit
  exact hdigit hletter

/-- A word that starts with an ASCII letter or the underscore. -/
structure Text.IsName (t : Text) : Prop where
  start : ∃ c ∈ t.head?, isNameStart c
  word : ∀ c ∈ t, isWord c

instance (t : Text) : Decidable (Text.IsName t) :=
  decidable_of_iff (t.head?.any isNameStart ∧ t.all isWord) <| by
    rw [Option.any_eq_true, List.all_eq_true]
    exact ⟨fun ⟨hstart, hword⟩ => ⟨hstart, hword⟩, fun hname => ⟨hname.start, hname.word⟩⟩

theorem Text.IsName.exists_cons {t : Text} (hname : IsName t) : ∃ c rest, t = c :: rest ∧ isNameStart c := by
  obtain ⟨c, hc, hstart⟩ := hname.start
  cases t with
  | nil => cases hc
  | cons d rest =>
    obtain rfl := Option.mem_some_iff.mp hc
    exact ⟨d, rest, rfl, hstart⟩

theorem Text.IsName.ne_nil {t : Text} (hname : IsName t) : t ≠ [] := by
  obtain ⟨c, rest, rfl, _⟩ := hname.exists_cons
  exact List.cons_ne_nil c rest

/-- A fetch as lines declare it: its answer goes to a word, it sends nothing, and no header but that of an
authorized one. -/
structure Fetch.IsDeclared (fetch : Fetch) : Prop where
  word : ∀ c ∈ fetch.result, isWord c
  headers : fetch.headers = [] ∨ fetch.headers = [("Authorization".toList, "Bearer $\x7btoken\x7d".toList)]
  body : fetch.body? = none

/-- A component has a name, and a fetch is one that a line can declare; nothing is asked of other content. -/
def Content.Named : Content → Prop
  | component name _ => Text.IsName name
  | fetch request => request.IsDeclared
  | _ => True

theorem Text.isName_of_name? {t name rest : Text} (hname : name? t = some (name, rest)) : IsName name := by
  obtain ⟨hsplit, hword⟩ := eq_of_name? hname
  refine ⟨?_, hword⟩
  unfold name? at hname
  split at hname
  · cases hname
  · rename_i c t
    split at hname
    · rename_i hstart
      cases name with
      | nil =>
        simp only [word?] at hname
        split at hname <;> simp_all
      | cons d name =>
        obtain ⟨rfl, -⟩ := List.cons.inj hsplit
        exact ⟨c, rfl, hstart⟩
    · cases hname

theorem isName_of_componentParts? {t name props : Text} (hparts : componentParts? t = some (name, props)) :
    Text.IsName name := by
  simp only [componentParts?, Option.bind_eq_bind, Option.bind_eq_some_iff] at hparts
  obtain ⟨_, _, ⟨name', rest⟩, hname, hparts⟩ := hparts
  have hname := Text.isName_of_name? hname
  split at hparts
  · cases hparts
    exact hname
  · obtain ⟨props', _, hparts⟩ := Option.bind_eq_some_iff.mp hparts
    split at hparts
    · cases hparts
      exact hname
    · cases hparts

theorem loop?_named {t : Text} {content : Content} (hread : loop? t = some content) : content.Named := by
  simp only [loop?, Option.bind_eq_bind, Option.bind_eq_some_iff] at hread
  obtain ⟨_, _, _, _, _, _, _, _, _, _, hread⟩ := hread
  split at hread
  · cases hread
    trivial
  · cases hread

theorem guard?_named {t : Text} {content : Content} (hread : guard? t = some content) : content.Named := by
  simp only [guard?, Option.bind_eq_bind, Option.bind_eq_some_iff] at hread
  obtain ⟨_, _, _, _, hread⟩ := hread
  cases hread
  trivial

theorem isWord_of_fetchParts? {t result seed : Text} {tail : FetchTail}
    (hparts : fetchParts? t = some (result, seed, tail)) : ∀ c ∈ result, isWord c := by
  simp only [fetchParts?, Option.bind_eq_bind, Option.bind_eq_some_iff] at hparts
  obtain ⟨_, _, ⟨word, rest⟩, hword, _, _, _, _, hparts⟩ := hparts
  cases hparts
  exact (Text.eq_of_word? hword).2

theorem fetch?_named {t : Text} {reading : Reading} (hread : fetch? t = some reading) :
    ∀ node ∈ reading.node?, ∃ fetch : Fetch, node = .leaf (.fetch fetch) ∧ fetch.IsDeclared := by
  obtain ⟨⟨result, seed, tail⟩, hparts, rfl⟩ := Option.map_eq_some_iff.mp hread
  rintro node ⟨⟩
  refine ⟨_, rfl, isWord_of_fetchParts? hparts, ?_, rfl⟩
  cases tail.isAuthorized with
  | true => exact .inr rfl
  | false => exact .inl rfl

theorem script?_named {t : Text} {content : Content} (hread : script? t = some content) : content.Named := by
  simp only [script?, Option.bind_eq_bind, Option.bind_eq_some_iff] at hread
  obtain ⟨_, _, hread⟩ := hread
  split at hread
  · cases hread
    trivial
  · obtain ⟨_, _, hread⟩ := Option.bind_eq_some_iff.mp hread
    cases hread
    trivial

theorem Node.leaf_named {content : Content} (hnamed : content.Named) :
    ∀ below ∈ (leaf content).preorder, below.content.Named := by
  intro below hbelow
  obtain rfl := List.mem_singleton.mp hbelow
  exact hnamed

theorem SourceLine.directive?_named {line : SourceLine} {reading : Reading}
    (hread : line.directive? = some reading) :
    ∀ node ∈ reading.node?, ∀ below ∈ node.preorder, below.content.Named := by
  have hcontent {content? : Option Content} (hnamed : ∀ content, content? = some content → content.Named)
      (hsome : (content?.map fun content => Reading.ofNode (.leaf content)) = some reading) :
      ∀ node ∈ reading.node?, ∀ below ∈ node.preorder, below.content.Named := by
    obtain ⟨content, hcontent, rfl⟩ := Option.map_eq_some_iff.mp hsome
    rintro node ⟨⟩
    exact Node.leaf_named (hnamed content hcontent)
  simp only [SourceLine.directive?, Option.orElse_eq_orElse, Option.orElse_eq_or,
    Option.or_eq_some_iff] at hread
  obtain hloop | ⟨_, hguard | ⟨_, hfetch | ⟨_, hscript | ⟨_, hmalformed⟩⟩⟩⟩ := hread
  · exact hcontent (fun _ => loop?_named) hloop
  · exact hcontent (fun _ => guard?_named) hguard
  · intro node hnode
    obtain ⟨fetch, rfl, hdeclared⟩ := fetch?_named hfetch node hnode
    exact Node.leaf_named hdeclared
  · exact hcontent (fun _ => script?_named) hscript
  · split at hmalformed
    · split at hmalformed
      · cases hmalformed
        rintro node ⟨⟩
      · cases hmalformed
    · cases hmalformed

/-- Prose holds no component. -/
theorem Node.Prose.named {inList : Bool} {node : Node} (hprose : node.Prose inList) :
    ∀ below ∈ node.preorder, below.content.Named := by
  intro below hbelow
  obtain rfl | hbelow := Node.mem_preorder_iff.mp hbelow
  · cases hprose <;> trivial
  obtain ⟨child, hchild, hbelow⟩ := Node.mem_preorderForest.mp hbelow
  cases hprose with
  | plain | item => cases hchild
  | list | emphasis =>
    obtain rfl := List.mem_singleton.mp hchild
    obtain rfl := List.mem_singleton.mp hbelow
    trivial

/-- Whatever is read from a line, its components have names and its fetches are declared. -/
theorem SourceLine.read?_named {line : SourceLine} {reading : Reading} (hread : line.read? = some reading) :
    ∀ node ∈ reading.node?, ∀ below ∈ node.preorder, below.content.Named := by
  simp only [SourceLine.read?, Option.orElse_eq_orElse, Option.orElse_eq_or,
    Option.or_eq_some_iff] at hread
  obtain hcomment | ⟨_, hdeclaration | ⟨_, hdirective | ⟨_, hcomponent | ⟨_, hprose⟩⟩⟩⟩ := hread
  · obtain ⟨text, _, rfl⟩ := Option.map_eq_some_iff.mp hcomment
    rintro node ⟨⟩
    exact Node.leaf_named trivial
  · obtain ⟨parts, _, rfl⟩ := Option.map_eq_some_iff.mp hdeclaration
    cases Value.declared parts.value with
    | ok value =>
      rintro node ⟨⟩
      cases parts.kind <;> exact Node.leaf_named trivial
    | error error => rintro node ⟨⟩
  · exact directive?_named hdirective
  · obtain ⟨⟨name, props⟩, hparts, rfl⟩ := Option.map_eq_some_iff.mp hcomponent
    rintro node ⟨⟩
    have hnamed (fields : Fields Value) : (Content.component name fields).Named :=
      isName_of_componentParts? hparts
    exact Node.leaf_named (hnamed _)
  · obtain ⟨node, hnode, rfl⟩ := Option.map_eq_some_iff.mp hprose
    rintro _ ⟨⟩
    exact (prose?_prose hnode).named

end ViewMarkup
