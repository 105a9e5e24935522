import ViewMarkup.Proofs.React.Declarations

namespace ViewMarkup

/-- A text that starts with a letter in upper case, of any script. -/
def Text.StartsUpper (t : Text) : Prop :=
  ∃ c ∈ t.head?, isUpper c

theorem isIntrinsic_eq_false_iff {tag : Text} : isIntrinsic tag = false ↔ tag.StartsUpper := by
  cases tag <;> simp [isIntrinsic, Text.StartsUpper]

instance (t : Text) : Decidable t.StartsUpper :=
  decidable_of_iff _ isIntrinsic_eq_false_iff

/-- A hook is needed by some node of the document. -/
def Document.Needs (document : Document) (hook : Text) : Prop :=
  ∃ content ∈ document.contents, hook ∈ React.hooks content

instance (document : Document) (hook : Text) : Decidable (document.Needs hook) :=
  decidable_of_iff ((document.contents.flatMap React.hooks).contains hook)
    (List.contains_iff_mem.trans List.mem_flatMap)

/-- The name in the signature of a document. -/
def Document.signatureName (document : Document) : Text :=
  (document.signature?.map Signature.name).getD React.defaultName

namespace React

/-- What the head of a module names: tags that come from the files that declare them, imports hoisted out of
scripts as they are, tags of the router, hooks, and the function. -/
structure ModuleHead where
  locals : List Text
  hoisted : List Text
  router : List Text
  runtime : List Text
  function : Text
  deriving DecidableEq, Repr

namespace ModuleHead

/-- The import lines of a head. -/
def importLines (head : ModuleHead) (paths : Fields Text) (options : Options) : List Text :=
  head.locals.map (localImport paths) ++ head.hoisted ++
    (if head.router = [] then []
      else ["import \x7b " ++ Text.join ", " head.router ++ " \x7d from '" ++ options.routerModule ++ "';"]) ++
    (if head.runtime = [] then []
      else ["import \x7b " ++ Text.join ", " head.runtime ++ " \x7d from '" ++ options.runtimeModule ++ "';"])

/-- The names that the import lines of a head bind, besides those that are hoisted. -/
def imported (head : ModuleHead) : List Text :=
  head.locals ++ head.router ++ head.runtime

/-- The names that a head binds, besides those that are hoisted. -/
def names (head : ModuleHead) : List Text :=
  head.imported ++ [head.function]

/-- A module opens with a head: the first line, the import lines, an empty line, the type of the props if
there are any, and the line that opens the function. The names are words, so that the lines tell them apart. -/
structure Opens (head : ModuleHead) (paths : Fields Text) (options : Options) (code : Text) : Prop where
  words : ∀ name ∈ head.names, ∀ c ∈ name, isWord c
  lines : ∃ (signature : Signature) (rest : List Text), code = Text.join "\n"
    ([header] ++ head.importLines paths options ++ [[]] ++
      (if signature.parameters = [] then [] else [propsType signature head.function options.unit, []]) ++
      [functionLine signature head.function] ++ rest)

end ModuleHead

/-- The head of the module of a document. -/
def moduleHead (document : Document) : ModuleHead where
  locals := (componentNames document.nodes).filter fun tag =>
    !isIntrinsic tag && !routerTags.contains tag && tag != identifier document.signatureName
  hoisted := document.imports.eraseDups
  router := (componentNames document.nodes).filter routerTags.contains
  runtime := (document.contents.flatMap hooks).eraseDups
  function := identifier document.signatureName

section Members

variable {document : Document} {tag : Text}

theorem mem_locals :
    tag ∈ (moduleHead document).locals ↔
      tag.StartsUpper ∧ tag ∉ routerTags ∧ tag ≠ (moduleHead document).function ∧ document.Refers tag := by
  rw [moduleHead, List.mem_filter, mem_componentNames, ← isIntrinsic_eq_false_iff]
  simp only [Bool.and_eq_true, Bool.not_eq_true', bne_iff_ne, List.contains_eq_mem, decide_eq_false_iff_not]
  tauto

theorem mem_router : tag ∈ (moduleHead document).router ↔ tag ∈ routerTags ∧ document.Refers tag := by
  rw [moduleHead, List.mem_filter, mem_componentNames, List.contains_iff_mem, and_comm]

theorem mem_runtime {hook : Text} : hook ∈ (moduleHead document).runtime ↔ document.Needs hook := by
  rw [moduleHead, List.mem_eraseDups, List.mem_flatMap, Document.Needs]

/-- No tag is imported both from a file and from the router. -/
theorem nodup_locals_append_router (document : Document) :
    ((moduleHead document).locals ++ (moduleHead document).router).Nodup := by
  refine List.nodup_append.mpr ⟨(nodup_componentNames document).filter _,
    (nodup_componentNames document).filter _, fun tag hlocal other hrouter => ?_⟩
  rintro rfl
  exact (mem_locals.mp hlocal).2.1 (mem_router.mp hrouter).1

theorem mem_of_mem_hooks {content : Content} {hook : Text} (hhook : hook ∈ hooks content) :
    hook ∈ ["useState".toList, "useEffect".toList, "Fragment".toList] := by
  cases content with
  | state | loop =>
    obtain rfl := List.mem_singleton.mp hhook
    decide
  | fetch => exact List.mem_append_left ["Fragment".toList] hhook
  | _ => cases hhook

end Members

section Lines

variable {paths : Fields Text}

theorem localImport_of_lookup {tag path : Text} (hpath : paths.lookup tag = some path) :
    localImport paths tag = "import " ++ tag ++ " from './" ++ path ++ "';" := by
  unfold localImport
  rw [hpath, Option.getD_some]

/-- A tag is the word between the first two blanks of its import. -/
theorem eq_of_localImport_eq {first second : Text} (hfirst : ∀ c ∈ first, isWord c)
    (hsecond : ∀ c ∈ second, isWord c) (hsame : localImport paths first = localImport paths second) :
    first = second := by
  have hblank {tag : Text} (hword : ∀ c ∈ tag, isWord c) : ' ' ∉ tag := fun hmem =>
    absurd (hword ' ' hmem) (by decide)
  have hquote : " from './".toList = ' ' :: "from './".toList := rfl
  unfold localImport at hsame
  rw [hquote] at hsame
  simp only [List.append_assoc, List.append_cancel_left_eq, List.cons_append] at hsame
  have hcut := congrArg (Text.cut ' ') hsame
  rw [Text.cut_append (hblank hfirst), Text.cut_append (hblank hsecond)] at hcut
  exact congrArg Prod.fst hcut

/-- The import of a tag names it right behind the keyword, without a brace. -/
theorem localImport_not_mem {tag : Text} (hword : ∀ c ∈ tag, isWord c) (names : List Text) (module : Text) :
    localImport paths tag ∉
      if names = [] then [] else ["import \x7b " ++ Text.join ", " names ++ " \x7d from '" ++ module ++ "';"] := by
  intro hmem
  split at hmem
  · cases hmem
  · have hsame := List.mem_singleton.mp hmem
    have hbrace : "import \x7b ".toList = "import ".toList ++ ['\x7b', ' '] := rfl
    have hquote : " from './".toList = ' ' :: "from './".toList := rfl
    unfold localImport at hsame
    rw [hbrace, hquote] at hsame
    simp only [List.append_assoc, List.append_cancel_left_eq, List.cons_append] at hsame
    cases tag with
    | nil => cases hsame
    | cons c tag =>
      obtain ⟨rfl, -⟩ := List.cons.inj hsame
      exact absurd (hword _ List.mem_cons_self) (by decide)

theorem localImport_mem_importLines_iff {head : ModuleHead} (hhoisted : head.hoisted = [])
    (hlocals : ∀ tag ∈ head.locals, Text.IsName tag) (options : Options) {tag : Text}
    (hword : ∀ c ∈ tag, isWord c) :
    localImport paths tag ∈ head.importLines paths options ↔ tag ∈ head.locals := by
  simp only [ModuleHead.importLines, hhoisted, List.append_nil, List.mem_append, List.mem_map,
    localImport_not_mem hword, or_false]
  constructor
  · rintro ⟨other, hother, hsame⟩
    exact eq_of_localImport_eq (hlocals other hother).word hword hsame ▸ hother
  · exact fun hlocal => ⟨tag, hlocal, rfl⟩

end Lines

section Document

variable {t : Text} {options : Options} {code : Text}

/-- A generated module imports the hooks that its nodes need. -/
theorem exists_emitted {resolver : Resolver}
    (hcode : generate (Document.ofText t) resolver options = .ok code) :
    ∃ emitted : Emitted, emitted.runtime = ((Document.ofText t).contents.flatMap hooks).eraseDups ∧
      code = moduleText (Document.ofText t) resolver options emitted := by
  have hnone := findSome?_failure_of_generate hcode
  have hfails := List.findSome?_eq_none_iff.mp hnone
  refine ⟨(Emitted.empty.add (forestEffects options.format (Document.ofText t).nodes)).1, ?_, ?_⟩
  · rw [forestEffects_ofText, add_contents _ (Document.named_content t) hfails]
  · rw [generate_ofText, hnone] at hcode
    exact (Except.ok.inj hcode).symm

/-- The lines of a module up to the one that opens its function. -/
theorem exists_moduleLines (unit : Text) (signature : Signature) (imports body : List Text) (emitted : Emitted) :
    ∃ rest, moduleLines unit signature imports body emitted =
      [header] ++ imports ++ [[]] ++
        (if signature.parameters = [] then [] else [propsType signature (identifier signature.name) unit, []]) ++
        [functionLine signature (identifier signature.name)] ++ rest := by
  unfold moduleLines
  simp only [List.append_assoc, List.append_cancel_left_eq]
  exact ⟨_, rfl⟩

theorem importLines_eq (document : Document) (paths : Fields Text) (options : Options) :
    importLines (componentNames document.nodes) (identifier document.signatureName) ⟨paths, routerTags⟩
        document.imports (document.contents.flatMap hooks).eraseDups options.runtimeModule options.routerModule =
      (moduleHead document).importLines paths options := by
  unfold importLines ModuleHead.importLines
  dsimp only
  rw [namedImport_eq, namedImport_eq]
  simp only [localImport_eq]
  rfl

theorem isWord_of_mem_identifier {name : Text} {c : Char} (hc : c ∈ identifier name) : isWord c := by
  have hreplaced : ∀ c ∈ name.map fun c => if isWord c then c else '_', isWord c := by
    rw [List.forall_mem_map]
    intro c _
    split
    · assumption
    · rfl
  have hdefault : ∀ c ∈ defaultName, isWord c := List.all_eq_true.mp (by decide)
  have hstripped {t : Text} : ((t.dropWhile (· == '_')).reverse.dropWhile (· == '_')).reverse ⊆ t := by
    intro d hd
    have hd := List.mem_reverse.mp ((List.dropWhile_sublist _).subset (List.mem_reverse.mp hd))
    exact (List.dropWhile_sublist _).subset hd
  unfold identifier at hc
  dsimp only at hc
  split at hc
  · exact hdefault c hc
  · rename_i d rest hcons
    split at hc
    · exact hdefault c hc
    · exact hreplaced c (hstripped (hcons ▸ hc))

/-- Every name that a head binds is a word. -/
theorem isWord_of_mem_names : ∀ name ∈ (moduleHead (Document.ofText t)).names, ∀ c ∈ name, isWord c := by
  intro name hname
  rw [ModuleHead.names, ModuleHead.imported] at hname
  simp only [List.mem_append, List.mem_singleton, mem_locals, mem_router, mem_runtime] at hname
  obtain ((⟨_, _, _, hrefers⟩ | ⟨_, hrefers⟩) | ⟨content, _, hhook⟩) | rfl := hname
  · exact hrefers.isName.word
  · exact hrefers.isName.word
  · have hhooks : ["useState".toList, "useEffect".toList, "Fragment".toList].all (·.all isWord) := by decide
    exact List.all_eq_true.mp (List.all_eq_true.mp hhooks name (mem_of_mem_hooks hhook))
  · exact fun c => isWord_of_mem_identifier

/-- A generated module opens with its head. -/
theorem opens_moduleHead {paths : Fields Text}
    (hcode : generate (Document.ofText t) ⟨paths, routerTags⟩ options = .ok code) :
    (moduleHead (Document.ofText t)).Opens paths options code := by
  obtain ⟨emitted, hruntime, hmodule⟩ := exists_emitted hcode
  have hname : ((Document.ofText t).signature?.getD ⟨defaultName, []⟩).name = (Document.ofText t).signatureName := by
    unfold Document.signatureName
    cases (Document.ofText t).signature? <;> rfl
  unfold moduleText at hmodule
  dsimp only at hmodule
  rw [hname, hruntime, importLines_eq] at hmodule
  obtain ⟨rest, hlines⟩ := exists_moduleLines options.unit ((Document.ofText t).signature?.getD ⟨defaultName, []⟩)
    ((moduleHead (Document.ofText t)).importLines paths options)
    (forestMarkup options.unit 3 (Document.ofText t).nodes) emitted
  rw [hlines, hname] at hmodule
  exact ⟨isWord_of_mem_names, _, rest, hmodule⟩

theorem hoisted_moduleHead {document : Document} (hhoisted : document.imports = []) :
    (moduleHead document).hoisted = [] := by
  rw [moduleHead, hhoisted]
  rfl

/-- The imports of a module are the tags that its document refers to. A tag in upper case has a line of its own
unless the function has its name or the router has it; the tags of the router are on one line. No tag is
imported twice, and on both sides the tags come in the order in which they are first referred to. -/
theorem imports_each_reference_once (t : Text) (paths : Fields Text) (options : Options) {code : Text}
    (hhoisted : (Document.ofText t).imports = [])
    (hcode : generate (Document.ofText t) ⟨paths, routerTags⟩ options = .ok code) :
    ∃ head : ModuleHead, head.Opens paths options code ∧ head.hoisted = [] ∧
      head.function = identifier (Document.ofText t).signatureName ∧
      (∀ tag, tag ∈ head.locals ↔
        tag.StartsUpper ∧ tag ∉ routerTags ∧ tag ≠ head.function ∧ (Document.ofText t).Refers tag) ∧
      (∀ tag, (∀ c ∈ tag, isWord c) →
        (localImport paths tag ∈ head.importLines paths options ↔ tag ∈ head.locals)) ∧
      (∀ tag, tag ∈ head.router ↔ tag ∈ routerTags ∧ (Document.ofText t).Refers tag) ∧
      (head.locals ++ head.router).Nodup ∧
      head.locals.Pairwise (Document.ofText t).RefersFirst ∧
      head.router.Pairwise (Document.ofText t).RefersFirst := by
  have hempty := hoisted_moduleHead hhoisted
  have hnames : ∀ tag ∈ (moduleHead (Document.ofText t)).locals, Text.IsName tag := fun tag htag =>
    (mem_locals.mp htag).2.2.2.isName
  refine ⟨moduleHead (Document.ofText t), opens_moduleHead hcode, hempty, rfl, fun tag => mem_locals, ?_,
    fun tag => mem_router, nodup_locals_append_router _, ?_, ?_⟩
  · exact fun tag hword => localImport_mem_importLines_iff hempty hnames options hword
  · exact (pairwise_componentNames _).filter _
  · exact (pairwise_componentNames _).filter _

/-- A page that refers to itself, and to a card first from an `element` prop. -/
def routedPage : Text :=
  Text.join "\n" ["Page()", ":Routes", "  :Route element=\x7b<Home><Card /></Home>\x7d", "  :Page", "- a", "  :Card"]

theorem imports_each_reference_once_routed :
    ∃ (code : Text) (head : ModuleHead),
      generate (Document.ofText routedPage) ⟨[("Card", "ui/Card")], routerTags⟩ Options.default = .ok code ∧
      head.Opens [("Card", "ui/Card")] Options.default code ∧
      "import Card from './ui/Card';".toList ∈ head.importLines [("Card", "ui/Card")] Options.default ∧
      "Page".toList ∉ head.locals ∧ "Route".toList ∈ head.router ∧ (head.locals ++ head.router).Nodup := by
  have hcode := generate_ofText routedPage ⟨[("Card", "ui/Card")], routerTags⟩ Options.default
  rw [show (Document.ofText routedPage).contents.findSome? contentFailure? = none by decide +kernel] at hcode
  obtain ⟨head, hopens, _, hfunction, hlocals, hlines, hrouter, hnodup, _, _⟩ :=
    imports_each_reference_once routedPage [("Card", "ui/Card")] Options.default (by decide +kernel) hcode
  have hname : head.function = "Page".toList := hfunction.trans (by decide +kernel)
  have hcard : "Card".toList ∈ head.locals := (hlocals _).mpr
    ⟨⟨'C', rfl, rfl⟩, by decide, by rw [hname]; decide, mem_componentNames.mp (by decide +kernel)⟩
  have hroute : "Route".toList ∈ head.router :=
    (hrouter _).mpr ⟨by decide, mem_componentNames.mp (by decide +kernel)⟩
  have hword : ∀ c ∈ "Card".toList, isWord c := List.all_eq_true.mp (by decide)
  refine ⟨_, head, hcode, hopens, (hlines _ hword).mpr hcard, fun hpage => ?_, hroute, hnodup⟩
  exact ((hlocals _).mp hpage).2.2.1 hname.symm

/-- A page that refers to a tag which starts with a letter beyond ASCII. -/
def accentedPage : Text :=
  "Page()\n:Route element=\x7b<Éa />\x7d"

/-- Only tags that start with an ASCII letter are looked for in an `element` prop: the tag starts in upper
case, it is no tag of the router, it stands behind a `<`, and still it is not imported. -/
theorem accented_tag_not_imported :
    (Document.ofText accentedPage).imports = [] ∧ Text.StartsUpper "Éa" ∧ "Éa".toList ∉ routerTags ∧
      "<Éa />".toList ∈ (Document.ofText accentedPage).contents.filterMap elementExpression? ∧
      generate (Document.ofText accentedPage) Resolver.default Options.default = .ok
        (Text.join "\n" ["// AUTO-GENERATED by lunor", "import \x7b Route \x7d from 'react-router-dom';", "",
          "export default function Page() \x7b", "  return (", "    <>", "      <Route element=\x7b<Éa />\x7d />",
          "    </>", "  );", "\x7d", ""]) := by
  refine ⟨by decide +kernel, ⟨'É', rfl, by decide⟩, by decide, by decide +kernel, ?_⟩
  decide +kernel

end Document

end React

end ViewMarkup
