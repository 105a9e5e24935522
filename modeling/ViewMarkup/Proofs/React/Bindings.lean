import Mathlib.Data.List.DropRight
import ViewMarkup.Proofs.React.Imports

namespace ViewMarkup

theorem Document.signatureName_of_lines {t first name : Text} {body : List Text}
    (hlines : Text.lines t = first :: body) (hname : Signature.declaredName? first = some name) :
    (ofText t).signatureName = name := by
  obtain ⟨⟨_, parameters⟩, hparts, rfl⟩ := Option.map_eq_some_iff.mp hname
  have hfirst : Text.trim first ≠ [] := by
    intro hblank
    rw [hblank] at hparts
    cases hparts
  rw [signatureName, ofText_of_lines hlines hfirst, Signature.read, hparts]
  rfl

namespace React

/-- The function is named as the signature, without the underscores at the end, if the name starts with a
letter. -/
theorem identifier_eq_rdropWhile {c : Char} {rest : Text} (hletter : c.isAlpha)
    (hword : ∀ d ∈ c :: rest, isWord d) : identifier (c :: rest) = (c :: rest).rdropWhile (· == '_') := by
  have hkept : (c :: rest).map (fun d => if isWord d then d else '_') = c :: rest :=
    (List.map_congr_left fun d hd => if_pos (hword d hd)).trans (List.map_id _)
  have hstart : (c == '_') = false := by
    rw [beq_eq_false_iff_ne]
    rintro rfl
    cases hletter
  -- Something is left when the underscores at the end are gone, and it starts with the same letter.
  have hhead : ∃ rest', (c :: rest).rdropWhile (· == '_') = c :: rest' := by
    obtain ⟨dropped, hsplit⟩ := List.rdropWhile_prefix (· == '_') (l := c :: rest)
    cases hstripped : (c :: rest).rdropWhile (· == '_') with
    | nil =>
      have hall := List.rdropWhile_eq_nil_iff.mp hstripped c List.mem_cons_self
      simp [hstart] at hall
    | cons d rest' =>
      rw [hstripped] at hsplit
      obtain ⟨rfl, -⟩ := List.cons.inj hsplit
      exact ⟨rest', rfl⟩
  obtain ⟨rest', hhead⟩ := hhead
  have hstripped : ((c :: rest).reverse.dropWhile (· == '_')).reverse = c :: rest' := hhead
  unfold identifier
  dsimp only
  rw [hkept, List.dropWhile_cons_of_neg (by simp [hstart]), hstripped, hhead]
  exact if_neg (by simp [isDigit_eq_false_of_isAlpha hletter])

/-- The function has the name of a component in upper case unless the name ends in an underscore. -/
theorem identifier_eq_self_iff {name : Text} (hname : Text.IsName name) (hupper : name.StartsUpper) :
    identifier name = name ↔ name.getLast? ≠ some '_' := by
  obtain ⟨c, hhead, hstart⟩ := hname.start
  obtain ⟨c', hhead', hupper⟩ := hupper
  obtain rfl : c = c' := Option.mem_unique hhead hhead'
  obtain ⟨rest, rfl⟩ := List.head?_eq_some_iff.mp hhead
  have hletter : c.isAlpha := by
    obtain hletter | hunder := Bool.or_eq_true_iff.mp hstart
    · exact hletter
    · obtain rfl := beq_iff_eq.mp hunder
      exact absurd hupper (by decide)
  rw [identifier_eq_rdropWhile hletter hname.word, List.rdropWhile_eq_self_iff,
    List.getLast?_eq_some_getLast (List.cons_ne_nil c rest)]
  simp

section Members

variable {document : Document} {tag : Text}

theorem mem_imported :
    tag ∈ (moduleHead document).imported ↔
      document.Needs tag ∨
        document.Refers tag ∧ (tag ∈ routerTags ∨ tag.StartsUpper ∧ tag ≠ (moduleHead document).function) := by
  rw [ModuleHead.imported, List.mem_append, List.mem_append, mem_locals, mem_router, mem_runtime]
  tauto

/-- A tag in upper case is left out of the imports only if it is taken for the component itself. -/
theorem not_mem_imported_iff (hupper : tag.StartsUpper) (hrefers : document.Refers tag) :
    tag ∉ (moduleHead document).imported ↔
      tag = (moduleHead document).function ∧ tag ∉ routerTags ∧ ¬ document.Needs tag := by
  rw [mem_imported]
  tauto

theorem function_mem_imported_iff :
    (moduleHead document).function ∈ (moduleHead document).imported ↔
      document.Needs (moduleHead document).function ∨
        (moduleHead document).function ∈ routerTags ∧ document.Refers (moduleHead document).function := by
  rw [mem_imported]
  tauto

/-- No hook is a tag of the router, and the fragment is the only one in upper case. -/
theorem eq_fragment_of_needs (hneeds : document.Needs tag) :
    tag ∉ routerTags ∧ (tag.StartsUpper → tag = "Fragment") := by
  obtain ⟨content, _, hhook⟩ := hneeds
  have hhooks : ∀ hook ∈ ["useState".toList, "useEffect".toList, "Fragment".toList],
      hook ∉ routerTags ∧ (isIntrinsic hook = false → hook = "Fragment") := by decide
  rw [← isIntrinsic_eq_false_iff]
  exact hhooks tag (mem_of_mem_hooks hhook)

/-- The only name that is imported twice is the fragment, as a tag and as what a loop needs. -/
theorem nodup_imported_iff :
    (moduleHead document).imported.Nodup ↔
      ¬ ("Fragment".toList ∈ (moduleHead document).locals ∧ document.Needs "Fragment") := by
  rw [ModuleHead.imported, List.nodup_append]
  constructor
  · rintro ⟨_, _, hdisjoint⟩ ⟨hlocal, hneeds⟩
    exact hdisjoint _ (List.mem_append_left _ hlocal) _ (mem_runtime.mpr hneeds) rfl
  · intro hclash
    refine ⟨nodup_locals_append_router document, nodup_eraseDups _, fun tag htag hook hhook => ?_⟩
    rintro rfl
    obtain ⟨hrouter, hfragment⟩ := eq_fragment_of_needs (mem_runtime.mp hhook)
    obtain hlocal | hrouted := List.mem_append.mp htag
    · obtain rfl := hfragment (mem_locals.mp hlocal).1
      exact hclash ⟨hlocal, mem_runtime.mp hhook⟩
    · exact hrouter (mem_router.mp hrouted).1

/-- A module binds a name twice exactly if its function has the name of a tag of the router that it uses or
of a hook that it needs, or if it uses a component of the name `Fragment` next to a loop. -/
theorem nodup_names_iff :
    (moduleHead document).names.Nodup ↔
      ¬ ((moduleHead document).function ∈ routerTags ∧ document.Refers (moduleHead document).function) ∧
      ¬ document.Needs (moduleHead document).function ∧
      ¬ (document.Refers "Fragment" ∧ document.Needs "Fragment") := by
  have hfragment : "Fragment".toList ∈ (moduleHead document).locals ↔
      "Fragment".toList ≠ (moduleHead document).function ∧ document.Refers "Fragment" := by
    rw [mem_locals]
    exact ⟨fun h => h.2.2, fun h => ⟨⟨'F', rfl, rfl⟩, by decide, h⟩⟩
  rw [ModuleHead.names, ← List.concat_eq_append, List.nodup_concat, nodup_imported_iff,
    function_mem_imported_iff, hfragment]
  constructor
  · rintro ⟨hfunction, hclash⟩
    refine ⟨fun h => hfunction (.inr h), fun h => hfunction (.inl h), ?_⟩
    rintro ⟨hrefers, hneeds⟩
    -- A component of the name `Fragment` is imported unless it is the function, and then the loop clashes with
    -- the function.
    refine hclash ⟨⟨fun hsame => hfunction (.inl ?_), hrefers⟩, hneeds⟩
    exact hsame ▸ hneeds
  · rintro ⟨hrouter, hneeds, hclash⟩
    exact ⟨fun h => h.elim hneeds hrouter, fun h => hclash ⟨h.1.2, h.2⟩⟩

end Members

section Document

variable {t : Text}

theorem refers_of_mem_componentName? {document : Document} {tag : Text}
    (htag : tag ∈ document.contents.filterMap componentName?) : document.Refers tag := by
  obtain ⟨content, hcontent, hname⟩ := List.mem_filterMap.mp htag
  obtain ⟨index, hindex⟩ := List.mem_iff_getElem?.mp hcontent
  cases content with
  | component name props =>
    cases hname
    exact ⟨(index, 0), _, hindex, .name _ props⟩
  | _ => cases hname

/-- A component imports the tags in upper case that it uses, its own name left out. Two things go wrong with its
own name. It is imported if it belongs to the router or to a needed hook, or ends in an underscore; and if the
function is not named as the signature, a tag with the name of the function is not imported. -/
theorem imports_used_components (t : Text) (options : Options) {first name code : Text} {body : List Text}
    (hlines : Text.lines t = first :: body) (hname : Signature.declaredName? first = some name)
    (hhoisted : (Document.ofText t).imports = [])
    (hcode : generate (Document.ofText t) Resolver.default options = .ok code) :
    ∃ head : ModuleHead, head.Opens [] options code ∧ head.hoisted = [] ∧ head.function = identifier name ∧
      (name ∈ head.imported ↔
        (Document.ofText t).Needs name ∨
          (Document.ofText t).Refers name ∧
            (name ∈ routerTags ∨ name.StartsUpper ∧ name.getLast? = some '_')) ∧
      ∀ tag ∈ (Document.ofText t).contents.filterMap componentName?, tag.StartsUpper →
        (tag ∉ head.imported ↔
          tag = identifier name ∧ tag ∉ routerTags ∧ ¬ (Document.ofText t).Needs tag) := by
  have hfunction : (moduleHead (Document.ofText t)).function = identifier name := by
    rw [moduleHead, Document.signatureName_of_lines hlines hname]
  refine ⟨_, opens_moduleHead hcode, hoisted_moduleHead hhoisted, hfunction, ?_, fun tag htag hupper => ?_⟩
  · rw [mem_imported, hfunction]
    refine or_congr_right (and_congr_right fun hrefers => or_congr_right (and_congr_right fun hupper => ?_))
    rw [ne_comm, ne_eq, identifier_eq_self_iff hrefers.isName hupper, not_not]
  · rw [← hfunction]
    exact not_mem_imported_iff hupper (refers_of_mem_componentName? htag)

/-- A page that refers to itself and to a badge. -/
def selfPage : Text :=
  "Page()\n:Page\n:Badge"

theorem imports_used_components_badge :
    ∃ (code : Text) (head : ModuleHead),
      generate (Document.ofText selfPage) Resolver.default Options.default = .ok code ∧
      head.Opens [] Options.default code ∧ "Page".toList ∉ head.imported ∧ "Badge".toList ∈ head.imported := by
  have hcode := generate_ofText selfPage Resolver.default Options.default
  rw [show (Document.ofText selfPage).contents.findSome? contentFailure? = none by decide +kernel] at hcode
  obtain ⟨head, hopens, _, _, hself, hothers⟩ := @imports_used_components selfPage Options.default
    "Page()" "Page" _ [":Page", ":Badge"] (by decide +kernel) (by decide +kernel) (by decide +kernel) hcode
  refine ⟨_, head, hcode, hopens, ?_, ?_⟩
  · rw [hself]
    decide +kernel
  · refine not_not.mp ((hothers "Badge" (by decide +kernel) (by decide)).not.mpr ?_)
    decide +kernel

/-- A component with the name of a tag of the router imports that name, and one whose name starts with an
underscore does not import the tag without it, which is the name of its function. -/
theorem link_imports_itself :
    Signature.declaredName? "Link()" = some "Link".toList ∧
      generate (Document.ofText "Link()\n:Link") Resolver.default Options.default = .ok
        (Text.join "\n" ["// AUTO-GENERATED by lunor", "import \x7b Link \x7d from 'react-router-dom';", "",
          "export default function Link() \x7b", "  return (", "    <>", "      <Link />", "    </>", "  );", "\x7d",
          ""]) ∧
      Signature.declaredName? "_Card()" = some "_Card".toList ∧
      generate (Document.ofText "_Card()\n:Card") Resolver.default Options.default = .ok
        (Text.join "\n" ["// AUTO-GENERATED by lunor", "", "export default function Card() \x7b", "  return (", "    <>",
          "      <Card />", "    </>", "  );", "\x7d", ""]) := by
  refine ⟨?_, ?_, ?_, ?_⟩ <;> decide +kernel

/-- The names that a module binds are distinct unless its function has the name of a tag of the router that it
uses or of a hook that it needs, or it uses a component of the name `Fragment` next to a loop. -/
theorem names_distinct_iff (t : Text) (options : Options) {code : Text}
    (hhoisted : (Document.ofText t).imports = [])
    (hcode : generate (Document.ofText t) Resolver.default options = .ok code) :
    ∃ head : ModuleHead, head.Opens [] options code ∧ head.hoisted = [] ∧
      head.function = identifier (Document.ofText t).signatureName ∧
      (head.names.Nodup ↔
        ¬ (head.function ∈ routerTags ∧ (Document.ofText t).Refers head.function) ∧
        ¬ (Document.ofText t).Needs head.function ∧
        ¬ ((Document.ofText t).Refers "Fragment" ∧ (Document.ofText t).Needs "Fragment")) :=
  ⟨_, opens_moduleHead hcode, hoisted_moduleHead hhoisted, rfl, nodup_names_iff⟩

/-- A page with tags of its own and of the router, a state variable and a loop. -/
def busyPage : Text :=
  Text.join "\n" ["Page()", ":state n=1", ":Route element=\x7b<Home />\x7d", ":for x in xs", "  :Card"]

theorem names_distinct_iff_busy :
    ∃ (code : Text) (head : ModuleHead),
      generate (Document.ofText busyPage) Resolver.default Options.default = .ok code ∧
      head.Opens [] Options.default code ∧ head.names.Nodup := by
  have hcode := generate_ofText busyPage Resolver.default Options.default
  rw [show (Document.ofText busyPage).contents.findSome? contentFailure? = none by decide +kernel] at hcode
  obtain ⟨head, hopens, _, hfunction, hnodup⟩ :=
    names_distinct_iff busyPage Options.default (by decide +kernel) hcode
  have hname : head.function = "Page".toList := hfunction.trans (by decide +kernel)
  refine ⟨_, head, hcode, hopens, hnodup.mpr ?_⟩
  rw [hname]
  decide +kernel

/-- A component of the name `Fragment` next to a loop: the name is imported twice. -/
theorem fragment_bound_twice :
    generate (Document.ofText "Page()\n:Fragment\n:for x in xs\n  :Card") Resolver.default Options.default = .ok
      (Text.join "\n" ["// AUTO-GENERATED by lunor", "import Fragment from './Fragment';",
        "import Card from './Card';", "import \x7b Fragment \x7d from 'react';", "",
        "export default function Page() \x7b", "  return (", "    <>", "      <Fragment />",
        "      \x7bxs.map((x, xIndex) => (", "        <Fragment key=\x7bxIndex\x7d>", "          <Card />",
        "        </Fragment>", "      ))\x7d", "    </>", "  );", "\x7d", ""]) := by
  decide +kernel

end Document

end React

end ViewMarkup
