import ViewMarkup.Outline
import ViewMarkup.Proofs.Node.Preorder

namespace ViewMarkup

/-- Content with an entry in an outline. -/
def Content.isOutlined : Content → Bool
  | loop .. | guard .. | state .. | data .. => true
  | _ => false

namespace Node

mutual

/-- The node and all nodes below it in order, each with the nodes above it, the nearest one first. -/
def lineages (above : List Node) : Node → List (Node × List Node)
  | mk content span? children =>
    (mk content span? children, above) :: lineagesForest (mk content span? children :: above) children

/-- The nodes of a forest in order, each with the nodes above it, the nearest one first. -/
def lineagesForest (above : List Node) : List Node → List (Node × List Node)
  | [] => []
  | node :: nodes => lineages above node ++ lineagesForest above nodes

end

/-- Without the nodes above them the nodes are those of the forest in order. -/
theorem map_fst_lineagesForest (above nodes : List Node) :
    (lineagesForest above nodes).map Prod.fst = preorderForest nodes := by
  induction nodes using forestInduction generalizing above with
  | nil => rfl
  | cons content span? children nodes hchildren hnodes =>
    rw [lineagesForest, lineages, preorderForest, preorder, List.map_append, List.map_cons, hchildren, hnodes]

end Node

namespace Symbol

mutual

/-- The entry and all entries below it, each before the entries below it. -/
def preorder : Symbol → List Symbol
  | mk name kind range selection children =>
    mk name kind range selection children :: preorderForest children

/-- The entries of a forest, each before the entries below it. -/
def preorderForest : List Symbol → List Symbol
  | [] => []
  | symbol :: symbols => preorder symbol ++ preorderForest symbols

end

mutual

/-- All entries below an entry in order, each with the entry right above it. -/
def parents : Symbol → List (Symbol × Symbol)
  | mk name kind range selection children =>
    parentsForest (mk name kind range selection children) children

/-- The entries of a forest below an entry in order, each with the entry right above it. -/
def parentsForest (parent : Symbol) : List Symbol → List (Symbol × Symbol)
  | [] => []
  | symbol :: symbols => (symbol, parent) :: parents symbol ++ parentsForest parent symbols

end

/-- Induction on a forest from what is below its first entry and from its other entries. -/
@[elab_as_elim] theorem forestInduction {motive : List Symbol → Prop} (nil : motive [])
    (cons : ∀ name kind range selection children symbols, motive children → motive symbols →
      motive (.mk name kind range selection children :: symbols)) : ∀ symbols, motive symbols
  | [] => nil
  | .mk name kind range selection children :: symbols =>
    cons name kind range selection children symbols (forestInduction nil cons children)
      (forestInduction nil cons symbols)

/-- Without their parents the entries are those of the forest in order. -/
theorem map_fst_parentsForest (parent : Symbol) (symbols : List Symbol) :
    (parentsForest parent symbols).map Prod.fst = preorderForest symbols := by
  induction symbols using forestInduction generalizing parent with
  | nil => rfl
  | cons name kind range selection children symbols hchildren hsymbols =>
    rw [parentsForest, parents, preorderForest, preorder, List.map_append, List.map_cons, hchildren, hsymbols]

theorem mem_preorder_iff {symbol root : Symbol} :
    symbol ∈ root.preorder ↔ symbol = root ∨ symbol ∈ preorderForest root.children := by
  cases root
  simp [preorder, children]

theorem mem_preorderForest_of_mem {symbol : Symbol} {symbols : List Symbol} (hsymbol : symbol ∈ symbols) :
    symbol ∈ preorderForest symbols := by
  induction symbols with
  | nil => cases hsymbol
  | cons other symbols ih =>
    rw [preorderForest, List.mem_append]
    obtain rfl | hsymbol := List.mem_cons.mp hsymbol
    · exact .inl (mem_preorder_iff.mpr (.inl rfl))
    · exact .inr (ih hsymbol)

theorem parentsForest_append (parent : Symbol) (first second : List Symbol) :
    parentsForest parent (first ++ second) = parentsForest parent first ++ parentsForest parent second := by
  induction first with
  | nil => rfl
  | cons symbol first ih => simp [parentsForest, ih]

end Symbol

namespace Outline

/-- What an entry shows of its node: its name and kind, and its lines both as its range and as what is
selected. -/
structure Shows (symbol : Symbol) (node : Node) : Prop where
  entry : entry? node.content = some (symbol.name, symbol.kind)
  range : symbol.range = lineRange node.span?
  selection : symbol.selection = lineRange node.span?

/-- The entry of a node that has one. -/
def symbolOf (node : Node) : Symbol :=
  let shown := entry? node.content
  let (name, kind) := shown.getD ([], .component)
  .mk name kind (lineRange node.span?) (lineRange node.span?) (forestSymbols node.children)

theorem children_symbolOf (node : Node) : (symbolOf node).children = forestSymbols node.children :=
  rfl

theorem parents_symbolOf (node : Node) :
    (symbolOf node).parents = Symbol.parentsForest (symbolOf node) (forestSymbols node.children) :=
  rfl

theorem shows_symbolOf {node : Node} (houtlined : node.content.isOutlined) : Shows (symbolOf node) node := by
  refine ⟨?_, rfl, rfl⟩
  obtain ⟨content, span?, children⟩ := node
  cases content with
  | loop | guard | state | data => rfl
  | _ => cases houtlined

/-- A node with an entry shows what is below it in the entry. Of any other node only what is below it shows. -/
theorem symbols_eq (node : Node) :
    symbols node = if node.content.isOutlined then [symbolOf node] else forestSymbols node.children := by
  obtain ⟨content, span?, children⟩ := node
  rw [symbols]
  cases content <;> rfl

/-- The entry of the nearest one of some nodes, or the root if none of them has an entry. -/
def nearest (root : Symbol) (above : List Node) : Symbol :=
  (above.find? fun node => node.content.isOutlined).elim root symbolOf

/-- The entries of a forest with their parents. Those that are not below others are below the nearest entry
of the nodes above the forest. -/
theorem parentsForest_forestSymbols (root : Symbol) (above nodes : List Node) :
    Symbol.parentsForest (nearest root above) (forestSymbols nodes) =
      ((Node.lineagesForest above nodes).filter fun one => one.1.content.isOutlined).map fun one =>
        (symbolOf one.1, nearest root one.2) := by
  induction nodes using Node.forestInduction generalizing above with
  | nil => rfl
  | cons content span? children nodes hchildren hnodes =>
    have hbelow := hchildren (.mk content span? children :: above)
    rw [forestSymbols, Symbol.parentsForest_append, hnodes, symbols_eq, Node.lineagesForest, Node.lineages,
      List.filter_append, List.map_append, List.append_left_inj]
    cases houtlined : content.isOutlined with
    | true =>
      -- the node is the nearest one for everything below it
      have hnearest : nearest root (.mk content span? children :: above) = symbolOf (.mk content span? children) := by
        simp [nearest, Node.content, houtlined]
      rw [hnearest] at hbelow
      simp [Node.content, houtlined, Symbol.parentsForest, parents_symbolOf, Node.children, hbelow]
    | false =>
      have hnearest : nearest root (.mk content span? children :: above) = nearest root above := by
        simp [nearest, Node.content, houtlined]
      rw [hnearest] at hbelow
      simp [Node.content, houtlined, Node.children, hbelow]

/-- The entries of a forest are those of the nodes that have one, in the order of the nodes. -/
theorem preorderForest_forestSymbols (nodes : List Node) :
    Symbol.preorderForest (forestSymbols nodes) =
      ((Node.preorderForest nodes).filter fun node => node.content.isOutlined).map symbolOf := by
  have hparents := congrArg (List.map Prod.fst) (parentsForest_forestSymbols (symbolOf (.leaf .unknown)) [] nodes)
  rw [Symbol.map_fst_parentsForest, List.map_map] at hparents
  rw [hparents, ← Node.map_fst_lineagesForest [], List.filter_map, List.map_map]
  rfl

/-- The entries below the root are those of the nodes that have one, one for each and in the order of the
tree; each stands below the entry of the nearest such node above its own node, or below the root. -/
theorem outline_filters_tree (nodes : List Node) (signature : Signature) (diagnostics : List Diagnostic)
    (imports : List Text) (lineCount : Int) :
    ∃ (root : Symbol) (entry : Node → Symbol),
      ofDocument ⟨nodes, some signature, diagnostics, imports⟩ lineCount = [root] ∧
      root.name = signature.name ∧ root.kind = .component ∧
      (∀ node, node.content.isOutlined → Shows (entry node) node) ∧
      Symbol.preorderForest root.children =
        ((Node.preorderForest nodes).filter fun node => node.content.isOutlined).map entry ∧
      root.parents =
        ((Node.lineagesForest [] nodes).filter fun one => one.1.content.isOutlined).map fun one =>
          (entry one.1, (one.2.find? fun node => node.content.isOutlined).elim root entry) := by
  refine ⟨_, symbolOf, rfl, rfl, rfl, fun node => shows_symbolOf, preorderForest_forestSymbols nodes, ?_⟩
  exact parentsForest_forestSymbols _ [] nodes

end Outline

end ViewMarkup
