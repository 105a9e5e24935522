import ViewMarkup.Proofs.React.Effects
import ViewMarkup.Proofs.React.MarkupLines
import ViewMarkup.Proofs.Text.Flush

namespace ViewMarkup.React

/-- The effect with its code at the left margin. -/
def Effect.flush : Effect → Effect
  | declare block => declare (Text.flush block)
  | define block => define (Text.flush block)
  | effect => effect

/-- What has been added, with its code at the left margin. -/
def Emitted.flush (emitted : Emitted) : Emitted :=
  { emitted with
    declarations := emitted.declarations.map Text.flush
    functions := emitted.functions.map Text.flush }

theorem Emitted.add_flush (emitted : Emitted) (effects : List Effect) :
    emitted.flush.add (effects.map Effect.flush) = ((emitted.add effects).1.flush, (emitted.add effects).2) := by
  induction effects generalizing emitted with
  | nil => rfl
  | cons effect effects ih =>
    cases effect with
    | fail failure => rfl
    | use hook =>
      exact ih { emitted with
        runtime := if emitted.runtime.contains hook then emitted.runtime else emitted.runtime ++ [hook] }
    | declare block =>
      have hblock := ih { emitted with declarations := emitted.declarations ++ [block] }
      rw [Emitted.flush, List.map_append] at hblock
      exact hblock
    | define block =>
      have hblock := ih { emitted with functions := emitted.functions ++ [block] }
      rw [Emitted.flush, List.map_append] at hblock
      exact hblock

section

variable {unit : Text} (hunit : ∀ c ∈ unit, c = ' ')

include hunit

theorem flush_times_append (count : Int) (t : Text) :
    Text.flush (Text.times unit count ++ t) = Text.flush t :=
  Text.flush_append (fun c hc => hunit c (Text.mem_of_mem_times hc)) t

theorem flush_fetchEffect (token : Text) (fetch : Fetch) :
    Text.flush (fetchEffect ⟨unit, token⟩ fetch) = Text.flush (fetchEffect ⟨[], token⟩ fetch) := by
  have hnil : ∀ c ∈ ([] : Text), c = ' ' := by simp
  simp only [fetchEffect, Text.flush_join, List.map_cons, List.append_assoc, Text.flush_append hunit,
    flush_times_append hunit, flush_times_append hnil, List.nil_append]

theorem map_flush_scriptBlock (token signature : Text) (body : List Text) :
    (scriptBlock ⟨unit, token⟩ signature body).map Text.flush =
      (scriptBlock ⟨[], token⟩ signature body).map Text.flush := by
  unfold scriptBlock
  split
  · rfl
  · simp only [List.map_append, List.map_map, Function.comp_def, Text.flush_append hunit, List.nil_append]

theorem map_flush_contentEffects (token : Text) (content : Content) :
    (contentEffects ⟨unit, token⟩ content).map Effect.flush =
      (contentEffects ⟨[], token⟩ content).map Effect.flush := by
  cases content with
  | fetch fetch =>
    simp only [contentEffects, fetchEffects]
    split
    · rfl
    · cases InitialState.ofSeed fetch.seed with
      | error error => rfl
      | ok state => simp only [List.map_append, List.map_cons, Effect.flush, flush_fetchEffect hunit]
  | script signature body =>
    have hblock := map_flush_scriptBlock hunit token signature body
    simp only [contentEffects]
    generalize scriptBlock ⟨unit, token⟩ signature body = lines at hblock
    generalize scriptBlock ⟨[], token⟩ signature body = lines' at hblock
    cases lines with
    | nil =>
      obtain rfl : lines' = [] := List.map_eq_nil_iff.mp hblock.symm
      rfl
    | cons line lines =>
      cases lines' with
      | nil => cases hblock
      | cons line' lines' =>
        simp only [List.map_singleton, Effect.flush, Text.flush_join, hblock]
  | _ => rfl

theorem map_flush_effects (token : Text) (node : Node) :
    (effects ⟨unit, token⟩ node).map Effect.flush = (effects ⟨[], token⟩ node).map Effect.flush := by
  induction node using Node.induction with
  | mk content span? children ih =>
    rw [effects, effects, List.map_append, List.map_append, map_flush_contentEffects hunit]
    congr 1
    split
    · rw [forestEffects_eq_flatMap, forestEffects_eq_flatMap, List.map_flatMap, List.map_flatMap]
      exact List.flatMap_congr ih
    · rfl

theorem map_flush_forestEffects (token : Text) (nodes : List Node) :
    (forestEffects ⟨unit, token⟩ nodes).map Effect.flush =
      (forestEffects ⟨[], token⟩ nodes).map Effect.flush := by
  rw [forestEffects_eq_flatMap, forestEffects_eq_flatMap, List.map_flatMap, List.map_flatMap]
  exact List.flatMap_congr fun node _ => map_flush_effects hunit token node

theorem flush_propsType (signature : Signature) (name : Text) :
    Text.flush (propsType signature name unit) = Text.flush (propsType signature name []) := by
  simp only [propsType, Text.flush_join, List.map_append, List.map_map, Function.comp_def, List.append_assoc,
    Text.flush_append hunit, List.nil_append]

/-- An indented block has the lines of the block. -/
theorem map_flush_blockLines (block : Text) :
    (blockLines unit block).map Text.flush = Text.split '\n' (Text.flush block) := by
  rw [blockLines, List.map_map, Text.split_flush]
  apply List.map_congr_left
  intro line hline
  rw [← Text.flush_of_not_mem (Text.of_mem_split hline).1, Function.comp_apply]
  split
  · rename_i hnil
    rw [hnil]
  · exact Text.flush_append hunit line

theorem map_flush_blocks (blocks : List Text) :
    (blocks.flatMap (blockLines unit)).map Text.flush = (blocks.map Text.flush).flatMap (Text.split '\n') := by
  rw [List.map_flatMap, List.flatMap_map]
  exact List.flatMap_congr fun block _ => map_flush_blockLines hunit block

/-- A module depends on the indentation only through the code that it is made of. -/
theorem map_flush_moduleLines (signature : Signature) (imports : List Text) {body body' : List Text}
    (hbody : body.map Text.flush = body'.map Text.flush) {emitted emitted' : Emitted}
    (hemitted : emitted.flush = emitted'.flush) :
    (moduleLines unit signature imports body emitted).map Text.flush =
      (moduleLines [] signature imports body' emitted').map Text.flush := by
  have hnil : ∀ c ∈ ([] : Text), c = ' ' := by simp
  have hblocks : (emitted.declarations ++ emitted.functions).map Text.flush =
      (emitted'.declarations ++ emitted'.functions).map Text.flush := by
    have hdeclarations := congrArg Emitted.declarations hemitted
    have hfunctions := congrArg Emitted.functions hemitted
    simp only [Emitted.flush] at hdeclarations hfunctions
    rw [List.map_append, List.map_append, hdeclarations, hfunctions]
  have hempty : emitted.declarations ++ emitted.functions = [] ↔
      emitted'.declarations ++ emitted'.functions = [] := by
    rw [← List.map_eq_nil_iff, hblocks, List.map_eq_nil_iff]
  have hprops : (if signature.parameters = [] then [] else
        [propsType signature (identifier signature.name) unit, []]).map Text.flush =
      (if signature.parameters = [] then [] else
        [propsType signature (identifier signature.name) [], []]).map Text.flush := by
    split
    · rfl
    · simp only [List.map_cons, flush_propsType hunit]
  simp only [moduleLines]
  generalize emitted.declarations ++ emitted.functions = blocks at hblocks hempty
  generalize emitted'.declarations ++ emitted'.functions = blocks' at hblocks hempty
  simp only [List.map_append, hbody, map_flush_blocks hunit, map_flush_blocks hnil, hblocks, hempty, hprops,
    List.map_cons, Text.flush_append hunit, flush_times_append hunit, flush_times_append hnil, List.nil_append]

theorem map_flush_forestMarkup (hne : unit ≠ []) (nodes : List Node) {level : Int} (hlevel : 1 ≤ level) :
    (forestMarkup unit level nodes).map Text.flush =
      ((forestLines nodes).map MarkupLine.text).map Text.flush := by
  rw [forestMarkup_eq_print hne nodes hlevel, List.map_map, List.map_map]
  exact List.map_congr_left fun line _ => flush_times_append hunit _ line.text

end

/-- The module of a document without any indentation, or the failure. -/
def generateFlush (document : Document) (resolver : Resolver) (options : Options) : Except Failure Text :=
  let signature := document.signature?.getD ⟨defaultName, []⟩
  match Emitted.empty.add (forestEffects ⟨[], options.authToken⟩ document.nodes) with
  | (_, some failure) => .error failure
  | (emitted, none) => .ok (Text.flush (Text.join "\n" (moduleLines [] signature
      (importLines (componentNames document.nodes) (identifier signature.name) resolver document.imports
        emitted.runtime options.runtimeModule options.routerModule)
      ((forestLines document.nodes).map MarkupLine.text) emitted)))

theorem generate_flush (document : Document) (resolver : Resolver) {options : Options}
    (hwidth : 1 ≤ options.indentWidth) :
    (generate document resolver options).map Text.flush = generateFlush document resolver options := by
  have hunit : ∀ c ∈ options.unit, c = ' ' := fun c hc => List.mem_singleton.mp (Text.mem_of_mem_times hc)
  have hne : options.unit ≠ [] := pad_ne_nil (List.cons_ne_nil ' ' []) hwidth
  have hbody := map_flush_forestMarkup hunit hne document.nodes (show (1 : Int) ≤ 3 by omega)
  have hadd : (Emitted.empty.add (forestEffects options.format document.nodes)).2 =
        (Emitted.empty.add (forestEffects ⟨[], options.authToken⟩ document.nodes)).2 ∧
      (Emitted.empty.add (forestEffects options.format document.nodes)).1.flush =
        (Emitted.empty.add (forestEffects ⟨[], options.authToken⟩ document.nodes)).1.flush := by
    have hleft := Emitted.empty.add_flush (forestEffects options.format document.nodes)
    have hright := Emitted.empty.add_flush (forestEffects ⟨[], options.authToken⟩ document.nodes)
    rw [Options.format, map_flush_forestEffects hunit, hright] at hleft
    exact ⟨(congrArg Prod.snd hleft).symm, (congrArg Prod.fst hleft).symm⟩
  rw [generate_eq, generateFlush]
  generalize Emitted.empty.add (forestEffects options.format document.nodes) = result at hadd
  generalize Emitted.empty.add (forestEffects ⟨[], options.authToken⟩ document.nodes) = result' at hadd
  obtain ⟨emitted, failure?⟩ := result
  obtain ⟨emitted', failure?'⟩ := result'
  obtain ⟨rfl, hemitted⟩ := hadd
  cases failure? with
  | some failure => rfl
  | none =>
    have hruntime : emitted.flush.runtime = emitted'.flush.runtime := congrArg Emitted.runtime hemitted
    simp only [Emitted.flush] at hruntime
    simp only [Except.map, moduleText, Text.flush_join, map_flush_moduleLines hunit _ _ hbody hemitted, hruntime]

/-- The width of the indentation affects leading blanks only. Under any two widths generation fails alike, or
gives as many lines, which are equal but for the blanks in front of them. -/
theorem generate_indentWidth (document : Document) (resolver : Resolver) (options : Options) {width width' : Int}
    (hwidth : 1 ≤ width) (hwidth' : 1 ≤ width') :
    (generate document resolver { options with indentWidth := width }).map
        (fun code => (Text.split '\n' code).map Text.trimStart) =
      (generate document resolver { options with indentWidth := width' }).map
        (fun code => (Text.split '\n' code).map Text.trimStart) := by
  have hlines (result : Except Failure Text) : result.map (fun code => (Text.split '\n' code).map Text.trimStart) =
      (result.map Text.flush).map (Text.split '\n') := by
    cases result with
    | error failure => rfl
    | ok code => exact congrArg Except.ok (Text.split_flush code).symm
  rw [hlines, hlines, generate_flush document resolver hwidth, generate_flush document resolver hwidth']
  rfl

/-- A page with a parameter, a script, and a list inside a loop, at one and at four blanks. -/
theorem generate_indentWidth_page :
    let document := Document.ofText
      "Page(user: string)\n:js go()\n  run()\n:for row in rows\n  - a\n    :Card x=\x7brow\x7d"
    let code (width : Int) := generate document Resolver.default { Options.default with indentWidth := width }
    (code 1).map (fun code => (Text.split '\n' code).map Text.trimStart) =
        (code 4).map (fun code => (Text.split '\n' code).map Text.trimStart) ∧ (code 1).isOk :=
  ⟨generate_indentWidth _ _ _ (by decide) (by decide), by decide +kernel⟩

end ViewMarkup.React
