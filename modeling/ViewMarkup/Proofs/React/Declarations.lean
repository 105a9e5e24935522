import ViewMarkup.Proofs.Json.Reading
import ViewMarkup.Proofs.React.References

namespace ViewMarkup

theorem Text.times_two (t : Text) : times t 2 = t ++ t := by
  change t ++ (t ++ []) = t ++ t
  rw [List.append_nil]

namespace React

/-- The hooks that a node needs. -/
def hooks : Content → List Text
  | .state .. => ["useState"]
  | .fetch .. => ["useState", "useEffect"]
  | .loop .. => ["Fragment"]
  | _ => []

/-- The call that makes the state variable of a fetch, by its seed: a type of lists starts as an empty list, JSON
as it is written, in quotes of either kind, and any other type as `null`. -/
inductive StateCall (seed : Text) : Text → Prop where
  | empty (hseed : seed = []) : StateCall seed "useState(null)"
  | list (hlist : "[]".toList <:+ seed) : StateCall seed ("useState<" ++ seed ++ ">([])")
  | literal (hseed : seed ≠ []) (hlist : ¬ "[]".toList <:+ seed) {value : Json}
      (hjson : Json.Document (Text.replaceChar '\'' '"' seed) value) : StateCall seed ("useState(" ++ seed ++ ")")
  | type (hseed : seed ≠ []) (hlist : ¬ "[]".toList <:+ seed)
      (hjson : ∀ value, ¬ Json.Document (Text.replaceChar '\'' '"' seed) value) :
      StateCall seed ("useState<" ++ seed ++ " | null>(null)")

/-- The seed decides the call. -/
theorem StateCall.unique {seed first second : Text} (hfirst : StateCall seed first)
    (hsecond : StateCall seed second) : first = second := by
  cases hfirst <;> cases hsecond <;> simp_all

/-- The request of a fetch that a line declares: it runs once, and its answer goes to the state variable. -/
def requestBlock (format : Format) (fetch : Fetch) : Text :=
  Text.join "\n" [
    "useEffect(() => \x7b",
    format.unit ++ "fetch(" ++
      (match fetch.url with
        | .expression raw => raw
        | .text url => Json.writeString .ascii url) ++ ", \x7b",
    format.unit ++ format.unit ++ "method: \"" ++ fetch.method.name ++ "\",",
    format.unit ++ format.unit ++ "headers: " ++
      (if fetch.headers = [] then "\x7b\x7d".toList
        else "\x7b \"Authorization\": `Bearer $\x7b" ++ format.authToken ++ "\x7d` \x7d") ++ ",",
    format.unit ++ format.unit ++ "body: null,",
    format.unit ++ "\x7d)",
    format.unit ++ format.unit ++ ".then((response) => response.json())",
    format.unit ++ format.unit ++ ".then((result) => set" ++ Text.capitalize fetch.result ++ "(result))",
    format.unit ++ format.unit ++ ".catch((error) => console.error(\"Fetch error:\", error));",
    "\x7d, []);"]

/-- The declarations of a node: one for a constant or a state variable, and two for a fetch, its state
variable and then its request. The calls that make the state variables of fetches are given. -/
def declarationBlocks (format : Format) (calls : Fetch → Text) : Content → List Text
  | .data name (.expression raw) => ["const " ++ name ++ " = " ++ raw ++ ";"]
  | .data name (.literal value) => ["const " ++ name ++ " = " ++ Json.write .unicode value ++ ";"]
  | .state name (.expression raw) =>
    ["const [" ++ name ++ ", set" ++ Text.capitalize name ++ "] = useState(" ++ raw ++ ");"]
  | .state name (.literal value) =>
    ["const [" ++ name ++ ", set" ++ Text.capitalize name ++ "] = useState(" ++ Json.write .unicode value ++ ");"]
  | .fetch fetch =>
    ["const [" ++ fetch.result ++ ", set" ++ Text.capitalize fetch.result ++ "] = " ++ calls fetch ++ ";",
     requestBlock format fetch]
  | _ => []

/-- The function of a node: one for a script that has a signature or lines. -/
def functionBlocks (format : Format) : Content → List Text
  | .script signature body =>
    if signature ≠ [] then
      [Text.join "\n" (["function " ++ signature ++ " \x7b"] ++ body.map (format.unit ++ ·) ++ ["\x7d".toList])]
    else if body ≠ [] then [Text.join "\n" body]
    else []
  | _ => []

theorem append_setterName (lead name : Text) :
    lead ++ ", " ++ setterName name = lead ++ ", set" ++ Text.capitalize name := by
  rw [List.append_assoc, List.append_assoc]
  rfl

theorem writeString_name (method : Method) :
    Json.writeString .ascii method.name = "\"" ++ method.name ++ "\"" := by
  cases method <;> decide +kernel

/-- The token takes the place of its name in the template. -/
theorem headerValue_bearer (authToken : Text) :
    headerValue authToken "Bearer $\x7btoken\x7d" = "`Bearer $\x7b" ++ authToken ++ "\x7d`" := by
  have hescaped : Text.replace "`" "\\`" "Bearer $\x7btoken\x7d" = "Bearer $\x7btoken\x7d".toList := by
    decide +kernel
  have hreplaced (token : Text) : Text.replace "$\x7btoken\x7d" token "Bearer $\x7btoken\x7d" = "Bearer " ++ token :=
    congrArg ("Bearer ".toList ++ ·) (List.append_nil token)
  unfold headerValue inBraces
  dsimp only
  rw [hescaped, hreplaced]
  simp only [List.append_assoc]
  rfl

/-- The headers that a declared fetch sends. -/
theorem headerObject_eq (authToken : Text) {fetch : Fetch} (hfetch : fetch.IsDeclared) :
    headerObject authToken fetch.headers =
      if fetch.headers = [] then "\x7b\x7d".toList
      else "\x7b \"Authorization\": `Bearer $\x7b" ++ authToken ++ "\x7d` \x7d" := by
  obtain hnone | hauthorized := hfetch.headers
  · rw [hnone]
    rfl
  · have hkey : Json.writeString .ascii "Authorization" = "\"Authorization\"".toList := by decide +kernel
    rw [hauthorized, if_neg (List.cons_ne_nil _ _)]
    unfold headerObject
    dsimp only
    rw [List.map_singleton, hkey, headerValue_bearer, Text.join, List.intercalate_singleton]
    simp only [List.append_assoc]
    rfl

theorem fetchEffect_eq (format : Format) {fetch : Fetch} (hfetch : fetch.IsDeclared) :
    fetchEffect format fetch = requestBlock format fetch := by
  have hmethod : "method: \"".toList = "method: ".toList ++ "\"".toList := rfl
  have hbody : "body: null,".toList = "body: ".toList ++ "null".toList ++ ",".toList := rfl
  have hset : ".then((result) => set".toList = ".then((result) => ".toList ++ "set".toList := by decide +kernel
  unfold fetchEffect requestBlock setterName
  dsimp only
  rw [Text.times_two, writeString_name, headerObject_eq _ hfetch, hfetch.body, hmethod, hbody, hset]
  simp only [List.append_assoc]
  rfl

/-- The call that makes the state variable of a fetch for which something can be generated. -/
def stateCall (fetch : Fetch) : Text :=
  match InitialState.ofSeed fetch.seed with
  | .ok ⟨some type, initial⟩ => "useState<" ++ type ++ ">(" ++ initial ++ ")"
  | .ok ⟨none, initial⟩ => "useState(" ++ initial ++ ")"
  | .error _ => []

section Fetch

variable {fetch : Fetch} {state : InitialState} (hstate : InitialState.ofSeed fetch.seed = .ok state)

include hstate

theorem fetchBinding_eq :
    fetchBinding fetch state =
      "const [" ++ fetch.result ++ ", set" ++ Text.capitalize fetch.result ++ "] = " ++ stateCall fetch ++ ";" := by
  unfold fetchBinding stateCall
  rw [hstate, append_setterName]
  obtain ⟨_ | type, initial⟩ := state
  · simp only [List.append_assoc]
    rfl
  · simp only [List.append_assoc]
    rfl

/-- The state variable of a fetch starts as its seed says. -/
theorem stateCall_of_ofSeed : StateCall (Text.trim fetch.seed) (stateCall fetch) := by
  unfold stateCall
  rw [hstate]
  unfold InitialState.ofSeed at hstate
  dsimp only at hstate
  split at hstate
  · rename_i hnil
    cases hstate
    exact .empty hnil
  rename_i hne
  split at hstate
  · rename_i hsome
    cases hstate
    have hcall (seed : Text) :
        "useState<" ++ seed ++ ">(" ++ "[]".toList ++ ")" = "useState<" ++ seed ++ ">([])" := by
      simp only [List.append_assoc]
      rfl
    dsimp only
    rw [hcall]
    exact .list (Text.isSome_before?_iff.mp hsome)
  rename_i hnone
  rw [Text.isSome_before?_iff] at hnone
  -- A seed with an integer that is too long has failed by now, so a seed that is not read is no JSON.
  split at hstate
  · rename_i hread
    cases hstate
    exact .literal hne hnone (Json.read_eq_ok_iff.mp hread)
  · cases hstate
  · rename_i hread
    cases hstate
    have hcall (seed : Text) :
        "useState<" ++ (seed ++ " | null") ++ ">(" ++ "null".toList ++ ")" =
          "useState<" ++ seed ++ " | null>(null)" := by
      simp only [List.append_assoc]
      rfl
    dsimp only
    rw [hcall]
    refine .type hne hnone fun value hvalue => ?_
    rw [Json.read_eq_ok_iff.mpr hvalue] at hread
    cases hread

end Fetch

/-- The seeds decide what is declared. -/
theorem declarationBlocks_congr (format : Format) {calls : Fetch → Text} {content : Content}
    (hfails : contentFailure? content = none)
    (hcalls : ∀ fetch, content = .fetch fetch → StateCall (Text.trim fetch.seed) (calls fetch)) :
    declarationBlocks format calls content = declarationBlocks format stateCall content := by
  cases content with
  | fetch fetch =>
    obtain ⟨_, _, hstate⟩ := fetchFailure?_eq_none_iff.mp hfails
    rw [declarationBlocks, declarationBlocks, (hcalls fetch rfl).unique (stateCall_of_ofSeed hstate)]
  | data name value | state name value => cases value <;> rfl
  | _ => rfl

/-- What a node emits by itself, if something can be generated for it. -/
theorem filterMap_contentEffects (format : Format) {content : Content} (hnamed : content.Named)
    (hfails : contentFailure? content = none) :
    (contentEffects format content).filterMap Effect.hook? = hooks content ∧
      (contentEffects format content).filterMap Effect.declaration? = declarationBlocks format stateCall content ∧
      (contentEffects format content).filterMap Effect.function? = functionBlocks format content := by
  cases content with
  | data name value => cases value <;> exact ⟨rfl, rfl, rfl⟩
  | state name value =>
    rw [contentEffects, append_setterName]
    cases value <;> exact ⟨rfl, rfl, rfl⟩
  | fetch fetch =>
    obtain ⟨hurl, state, hstate⟩ := fetchFailure?_eq_none_iff.mp hfails
    have heffects : contentEffects format (.fetch fetch) = [.use "useState", .use "useEffect",
        .declare (fetchBinding fetch state), .declare (fetchEffect format fetch)] := by
      simp [contentEffects, fetchEffects, hurl, hstate]
    rw [heffects, fetchBinding_eq hstate, fetchEffect_eq format hnamed]
    exact ⟨rfl, rfl, rfl⟩
  | script signature body =>
    unfold contentEffects scriptBlock functionBlocks
    cases signature with
    | nil => cases body <;> exact ⟨rfl, rfl, rfl⟩
    | cons c signature => exact ⟨rfl, rfl, rfl⟩
  | unknown => cases hfails
  | _ => exact ⟨rfl, rfl, rfl⟩

/-- What nodes emit together, if something can be generated for each of them. -/
theorem add_contents (format : Format) {contents : List Content} (hnamed : ∀ content ∈ contents, content.Named)
    (hfails : ∀ content ∈ contents, contentFailure? content = none) :
    (Emitted.empty.add (contents.flatMap (contentEffects format))).1 =
      ⟨(contents.flatMap hooks).eraseDups, contents.flatMap (declarationBlocks format stateCall),
       contents.flatMap (functionBlocks format)⟩ := by
  have hnone : (contents.flatMap (contentEffects format)).findSome? Effect.failure? = none := by
    rw [failure_flatMap]
    exact List.findSome?_eq_none_iff.mpr hfails
  have hemits : ∀ content ∈ contents, _ := fun content hcontent =>
    filterMap_contentEffects format (hnamed content hcontent) (hfails content hcontent)
  rw [Emitted.add_emitted hnone [] rfl, List.filterMap_flatMap, List.filterMap_flatMap,
    List.filterMap_flatMap, List.flatMap_congr fun content hcontent => (hemits content hcontent).1,
    List.flatMap_congr fun content hcontent => (hemits content hcontent).2.1,
    List.flatMap_congr fun content hcontent => (hemits content hcontent).2.2]
  simp [Emitted.empty]

/-- The line that imports a tag from the file that declares it, or else from a file with its name. -/
def localImport (paths : Fields Text) (tag : Text) : Text :=
  "import " ++ tag ++ " from './" ++ (paths.lookup tag).getD tag ++ "';"

/-- A module below its imports: the type of the props if there are any, and the function, where blocks stand one
level in, an empty line of a block stays empty, and an empty line keeps the blocks from the markup. -/
def functionLines (signature : Signature) (unit : Text) (blocks markup : List Text) : List Text :=
  (if signature.parameters = [] then [] else [propsType signature (identifier signature.name) unit, []]) ++
    [functionLine signature (identifier signature.name)] ++
    (blocks.flatMap fun block => (Text.split '\n' block).map fun line => if line = [] then [] else unit ++ line) ++
    (if blocks = [] then [] else [[]]) ++
    [unit ++ "return (", unit ++ unit ++ "<>"] ++ markup ++ [unit ++ unit ++ "</>", unit ++ ");", "\x7d", []]

theorem namedImport_eq (names : List Text) (module : Text) :
    namedImport names module =
      if names = [] then [] else ["import \x7b " ++ Text.join ", " names ++ " \x7d from '" ++ module ++ "';"] := by
  cases names <;> rfl

theorem localImport_eq (resolver : Resolver) (tag : Text) :
    "import " ++ tag ++ " from '" ++ resolver.importPath tag ++ "';" = localImport resolver.paths tag := by
  have hquote : " from './".toList = " from '".toList ++ "./".toList := rfl
  unfold localImport Resolver.importPath
  rw [hquote]
  simp only [List.append_assoc]

theorem moduleLines_eq (unit : Text) (signature : Signature) (imports markup : List Text) (emitted : Emitted) :
    moduleLines unit signature imports markup emitted = ["// AUTO-GENERATED by lunor".toList] ++ imports ++ [[]] ++
      functionLines signature unit (emitted.declarations ++ emitted.functions) markup := by
  unfold moduleLines functionLines header
  simp only [Text.times_two, List.append_assoc]
  rfl

section Document

variable {t : Text}

theorem findSome?_failure_of_generate {resolver : Resolver} {options : Options} {code : Text}
    (hcode : generate (Document.ofText t) resolver options = .ok code) :
    (Document.ofText t).contents.findSome? contentFailure? = none := by
  rw [generate_ofText] at hcode
  split at hcode
  · cases hcode
  · assumption

/-- A generated module is put together around what its nodes declare. Nothing is lost or comes twice: its blocks are
the declarations and then the functions of all nodes of the document in order. One line imports each hook that a
node needs once and no other; the lines above it are for tags that the document refers to, and those that were
hoisted out of scripts. -/
theorem declares_each_once (t : Text) (resolver : Resolver) (options : Options) {code : Text}
    (hcode : generate (Document.ofText t) resolver options = .ok code) :
    ∃ (emitted : Emitted) (calls : Fetch → Text) (locals router : List Text),
      Emitted.empty.add (forestEffects options.format (Document.ofText t).nodes) = (emitted, none) ∧
      (∀ fetch, .fetch fetch ∈ (Document.ofText t).contents → StateCall (Text.trim fetch.seed) (calls fetch)) ∧
      emitted.declarations = (Document.ofText t).contents.flatMap (declarationBlocks options.format calls) ∧
      emitted.functions = (Document.ofText t).contents.flatMap (functionBlocks options.format) ∧
      emitted.runtime = ((Document.ofText t).contents.flatMap hooks).eraseDups ∧
      (∀ hook, emitted.runtime.count hook =
        if hook ∈ (Document.ofText t).contents.flatMap hooks then 1 else 0) ∧
      (∀ tag ∈ locals ++ router, (Document.ofText t).Refers tag) ∧
      code = Text.join "\n" (["// AUTO-GENERATED by lunor".toList] ++
        (locals.map (localImport resolver.paths) ++ (Document.ofText t).imports.eraseDups ++
          (if router = [] then []
            else ["import \x7b " ++ Text.join ", " router ++ " \x7d from '" ++ options.routerModule ++ "';"]) ++
          (if emitted.runtime = [] then []
            else ["import \x7b " ++ Text.join ", " emitted.runtime ++ " \x7d from '" ++ options.runtimeModule ++
              "';"])) ++
        [[]] ++
        functionLines ((Document.ofText t).signature?.getD ⟨defaultName, []⟩) options.unit
          (emitted.declarations ++ emitted.functions) (forestMarkup options.unit 3 (Document.ofText t).nodes)) := by
  have hnone := findSome?_failure_of_generate hcode
  have hfails := List.findSome?_eq_none_iff.mp hnone
  have hadded := add_contents options.format (Document.named_content t) hfails
  rw [← forestEffects_ofText] at hadded
  refine ⟨_, stateCall, (componentNames (Document.ofText t).nodes).filter fun tag => !isIntrinsic tag &&
      !resolver.isWellKnown tag && tag != identifier ((Document.ofText t).signature?.getD ⟨defaultName, []⟩).name,
    (componentNames (Document.ofText t).nodes).filter resolver.isWellKnown,
    Prod.ext hadded ((add_ofText_failure t options.format).trans hnone), ?_, rfl, rfl, rfl, ?_, ?_, ?_⟩
  · intro fetch hfetch
    obtain ⟨_, _, hstate⟩ := fetchFailure?_eq_none_iff.mp (hfails _ hfetch)
    exact stateCall_of_ofSeed hstate
  · intro hook
    rw [(nodup_eraseDups _).count]
    simp only [List.mem_eraseDups]
  · intro tag htag
    refine mem_componentNames.mp ?_
    obtain hlocal | hrouter := List.mem_append.mp htag
    · exact List.mem_of_mem_filter hlocal
    · exact List.mem_of_mem_filter hrouter
  · rw [generate_ofText, hnone, hadded] at hcode
    rw [← Except.ok.inj hcode]
    unfold moduleText importLines
    dsimp only
    rw [moduleLines_eq, namedImport_eq, namedImport_eq]
    simp only [localImport_eq]

/-- A page with a state variable and an authorized fetch, each below another node, and a function. -/
def fetchingPage : Text :=
  Text.join "\n" ["Page()", "- a", "  :state n=1", ":for x in xs", "  :fetch y(T[]) from \"/u\" GET auth", ":js f()",
    "  go()"]

theorem declares_each_once_nested :
    ∃ (code : Text) (emitted : Emitted) (rest : List Text),
      generate (Document.ofText fetchingPage) Resolver.default Options.default = .ok code ∧
      Emitted.empty.add (forestEffects Options.default.format (Document.ofText fetchingPage).nodes) =
        (emitted, none) ∧
      emitted.declarations =
        ["const [n, setN] = useState(1);".toList,
         "const [y, setY] = useState<T[]>([]);".toList,
         Text.join "\n" ["useEffect(() => \x7b", "  fetch(\"/u\", \x7b", "    method: \"GET\",",
           "    headers: \x7b \"Authorization\": `Bearer $\x7blocalStorage.getItem(\"token\")\x7d` \x7d,",
           "    body: null,", "  \x7d)", "    .then((response) => response.json())",
           "    .then((result) => setY(result))",
           "    .catch((error) => console.error(\"Fetch error:\", error));", "\x7d, []);"]] ∧
      emitted.functions = ["function f() \x7b\n  go()\n\x7d".toList] ∧
      emitted.runtime = ["useState".toList, "Fragment".toList, "useEffect".toList] ∧
      code = Text.join "\n" (["// AUTO-GENERATED by lunor".toList,
        "import \x7b useState, Fragment, useEffect \x7d from 'react';".toList, []] ++ rest) := by
  have hnone : (Document.ofText fetchingPage).contents.findSome? contentFailure? = none := by decide +kernel
  obtain ⟨code, hcode⟩ : ∃ code,
      generate (Document.ofText fetchingPage) Resolver.default Options.default = .ok code := by
    rw [generate_ofText, hnone]
    exact ⟨_, rfl⟩
  obtain ⟨emitted, calls, locals, router, hadd, hcalls, hdeclarations, hfunctions, hruntime, _, htags, hlines⟩ :=
    declares_each_once fetchingPage Resolver.default Options.default hcode
  have hblocks : ∀ content ∈ (Document.ofText fetchingPage).contents, _ := fun content hcontent =>
    declarationBlocks_congr Options.default.format (List.findSome?_eq_none_iff.mp hnone content hcontent)
      fun fetch hfetch => hcalls fetch (hfetch ▸ hcontent)
  have hnames : componentNames (Document.ofText fetchingPage).nodes = [] := by decide +kernel
  have hempty : locals ++ router = [] := List.eq_nil_iff_forall_not_mem.mpr fun tag htag => by
    have hmem := mem_componentNames.mpr (htags tag htag)
    rw [hnames] at hmem
    cases hmem
  obtain ⟨rfl, rfl⟩ := List.append_eq_nil_iff.mp hempty
  have hhoisted : (Document.ofText fetchingPage).imports.eraseDups = [] := by decide +kernel
  have hhooks : emitted.runtime = ["useState".toList, "Fragment".toList, "useEffect".toList] :=
    hruntime.trans (by decide +kernel)
  have hline : "import \x7b " ++ Text.join ", " ["useState".toList, "Fragment".toList, "useEffect".toList] ++
      " \x7d from '" ++ Options.default.runtimeModule ++ "';" =
        "import \x7b useState, Fragment, useEffect \x7d from 'react';".toList := by decide +kernel
  rw [hhoisted, hhooks, if_pos rfl, if_neg (List.cons_ne_nil _ _), hline] at hlines
  refine ⟨code, emitted, _, hcode, hadd, ?_, hfunctions.trans (by decide +kernel), hhooks, hlines⟩
  rw [hdeclarations, List.flatMap_congr hblocks]
  decide +kernel

end Document

end React

end ViewMarkup
