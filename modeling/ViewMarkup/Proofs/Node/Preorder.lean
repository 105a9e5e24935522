import ViewMarkup.Node.Basic

namespace ViewMarkup.Node

theorem preorderForest_eq_flatMap (nodes : List Node) :
    preorderForest nodes = nodes.flatMap preorder := by
  induction nodes with
  | nil => simp [preorderForest]
  | cons node nodes ih => simp [preorderForest, ih]

@[simp] theorem mem_preorderForest {node : Node} {nodes : List Node} :
    node ∈ preorderForest nodes ↔ ∃ root ∈ nodes, node ∈ root.preorder := by
  simp [preorderForest_eq_flatMap]

theorem preorderForest_append (first second : List Node) :
    preorderForest (first ++ second) = preorderForest first ++ preorderForest second := by
  simp [preorderForest_eq_flatMap]

theorem mem_preorder_iff {node root : Node} :
    node ∈ root.preorder ↔ node = root ∨ node ∈ preorderForest root.children := by
  cases root
  simp [preorder, children]

/-- Induction on a node from the nodes right below it. -/
@[elab_as_elim] theorem induction {motive : Node → Prop}
    (mk : ∀ content span? children, (∀ child ∈ children, motive child) →
      motive (.mk content span? children)) : ∀ node, motive node
  | .mk content span? children => mk content span? children fun child _ => induction mk child
termination_by node => sizeOf node

/-- Induction on a forest from what is below its first node and from its other nodes. -/
@[elab_as_elim] theorem forestInduction {motive : List Node → Prop} (nil : motive [])
    (cons : ∀ content span? children nodes, motive children → motive nodes →
      motive (.mk content span? children :: nodes)) : ∀ nodes, motive nodes
  | [] => nil
  | .mk content span? children :: nodes =>
    cons content span? children nodes (forestInduction nil cons children) (forestInduction nil cons nodes)

/-- What holds of a node and passes on to children holds of everything below the node. -/
theorem forall_mem_preorder {P : Node → Prop} (hchildren : ∀ node, P node → ∀ child ∈ node.children, P child)
    {root node : Node} (hroot : P root) (hnode : node ∈ root.preorder) : P node := by
  induction root using induction with
  | mk content span? children ih =>
    obtain rfl | hbelow := mem_preorder_iff.mp hnode
    · exact hroot
    · obtain ⟨child, hchild, hbelow⟩ := mem_preorderForest.mp hbelow
      exact ih child hchild (hchildren _ hroot child hchild) hbelow

theorem mem_preorder_self (node : Node) : node ∈ node.preorder :=
  mem_preorder_iff.mpr (.inl rfl)

theorem mem_preorderForest_of_mem {node : Node} {nodes : List Node} (hnode : node ∈ nodes) :
    node ∈ preorderForest nodes :=
  mem_preorderForest.mpr ⟨node, hnode, mem_preorder_self node⟩

theorem sublist_preorderForest {root : Node} {nodes : List Node} (hroot : root ∈ nodes) :
    root.preorder.Sublist (preorderForest nodes) := by
  rw [preorderForest_eq_flatMap, List.flatMap]
  exact List.sublist_flatten_of_mem (List.mem_map_of_mem hroot)

theorem sublist_preorder {root node : Node} (hnode : node ∈ root.preorder) :
    node.preorder.Sublist root.preorder := by
  induction root using induction with
  | mk content span? children ih =>
    obtain rfl | hbelow := mem_preorder_iff.mp hnode
    · exact List.Sublist.refl _
    · obtain ⟨child, hchild, hbelow⟩ := mem_preorderForest.mp hbelow
      rw [preorder]
      exact ((ih child hchild hbelow).trans (sublist_preorderForest hchild)).cons _

/-- The nodes below a node keep their order in the whole forest. -/
theorem sublist_of_mem_preorderForest {node : Node} {nodes : List Node}
    (hnode : node ∈ preorderForest nodes) : node.preorder.Sublist (preorderForest nodes) := by
  obtain ⟨root, hroot, hbelow⟩ := mem_preorderForest.mp hnode
  exact (sublist_preorder hbelow).trans (sublist_preorderForest hroot)

theorem child_mem_preorderForest {node child : Node} {nodes : List Node}
    (hnode : node ∈ preorderForest nodes) (hchild : child ∈ node.children) :
    child ∈ preorderForest nodes :=
  (sublist_of_mem_preorderForest hnode).subset
    (mem_preorder_iff.mpr (.inr (mem_preorderForest_of_mem hchild)))

end ViewMarkup.Node
