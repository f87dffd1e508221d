import PocketReader.Proofs.Focus

/-! A walk as it is asked for, one node at a time. The handles still to be taken are kept so that the next one is at
the end, the children of a node in the other order than they stand in. All the same the nodes come in reading order,
and the index lists those that can be selected. -/
namespace PocketReader.Document

/-- Handles are taken from the end of those kept until one of them finds a node. This is the next one of the walk, and
its children are kept as well, the first of them at the end. -/
def next? (d : Document) (kept : Array Handle) : Option ((Handle × Node) × Array Handle) :=
  if left : 0 < kept.size then
    match d.get? (kept.back left) with
    | none => d.next? kept.pop
    | some node => some ((kept.back left, node), kept.pop ++ node.children.reverse)
  else none
termination_by kept.size
decreasing_by
  rw [Array.size_pop]
  omega

/-- The nodes a walk comes to, up to its end. -/
inductive Yields (d : Document) : Array Handle → List (Handle × Node) → Prop
  | done {kept : Array Handle} : d.next? kept = none → Yields d kept []
  | next {kept left : Array Handle} {entry : Handle × Node} {later : List (Handle × Node)} :
      d.next? kept = some (entry, left) → Yields d left later → Yields d kept (entry :: later)

variable {d : Document}

theorem next?_empty : d.next? #[] = none := by
  rw [next?]
  rfl

theorem next?_push_of_lost {h : Handle} (lost : d.get? h = none) (kept : Array Handle) :
    d.next? (kept.push h) = d.next? kept := by
  rw [next?, dif_pos (Array.size_push h ▸ Nat.succ_pos _)]
  simp [Array.back, lost]

theorem next?_push_of_found {h : Handle} {node : Node} (found : d.get? h = some node) (kept : Array Handle) :
    d.next? (kept.push h) = some ((h, node), kept ++ node.children.reverse) := by
  rw [next?, dif_pos (Array.size_push h ▸ Nat.succ_pos _)]
  simp [Array.back, found]

namespace Yields

variable {kept kept' : Array Handle} {nodes nodes' : List (Handle × Node)}

theorem congr (same : d.next? kept = d.next? kept') (yields : d.Yields kept nodes) : d.Yields kept' nodes := by
  cases yields with
  | done ended => exact .done (same ▸ ended)
  | next step later => exact .next (same ▸ step) later

theorem unique (yields : d.Yields kept nodes) (yields' : d.Yields kept nodes') : nodes = nodes' := by
  induction yields generalizing nodes' with
  | done ended =>
    cases yields' with
    | done _ => rfl
    | next step _ => cases ended.symm.trans step
  | next step _ ih =>
    cases yields' with
    | done ended => cases ended.symm.trans step
    | next step' later' =>
      obtain ⟨rfl, rfl⟩ := Prod.mk.inj (Option.some.inj (step.symm.trans step'))
      rw [ih later']

end Yields

/-- With the handles waiting kept the other way round, a walk asked for step by step comes to the same nodes. -/
theorem Walks.yields {waiting : List Handle} {nodes : List (Handle × Node)} (walks : d.Walks waiting nodes) :
    d.Yields waiting.reverse.toArray nodes := by
  induction walks with
  | done => exact .done next?_empty
  | @stale h waiting nodes lost _ ih =>
    refine ih.congr ?_
    rw [List.reverse_cons, ← List.push_toArray, next?_push_of_lost lost]
  | @met h node waiting nodes found _ ih =>
    have step : d.next? (h :: waiting).reverse.toArray =
        some ((h, node), (node.children ++ waiting).reverse.toArray) := by
      rw [List.reverse_cons, ← List.push_toArray, next?_push_of_found found]
      simp
    exact .next step ih

/-- However a document came about, a walk comes to the nodes of its trees in reading order, each before its children
and those left to right. The index holds the ones that can be selected, whatever stands above them, each once and with
nothing known of its extent. -/
theorem Reachable.index_reads_in_order (reachable : d.Reachable) :
    (d.located.rootHandles = d.top ∧ d.Holds d.located) ∧
    (d.walk = d.located.nodes ∧ ∀ nodes, d.Yields d.top.reverse.toArray nodes ↔ nodes = d.walk) ∧
    d.walk.map (fun entry => entry.2.content) = d.forest.preorder ∧
    Focus.index d =
      (d.located.preorder.filter (·.content.selectable)).map (fun n => { node := n.handle, extent := ⟨0, 0⟩ }) ∧
    ((Focus.index d).map Focus.Entry.node).Nodup ∧
    (Focus.index d).length = d.forest.preorder.countP (·.selectable) := by
  have represents := reachable.represents
  have listed : Focus.index d =
      (d.located.preorder.filter (·.content.selectable)).map (fun n => { node := n.handle, extent := ⟨0, 0⟩ }) := by
    rw [Focus.index, represents.walk_eq, Forest.preorder_eq_map_nodes, List.filter_map, List.map_map]
    rfl
  refine ⟨⟨represents.top, represents.holds⟩, ⟨represents.walk_eq, fun nodes => ?_⟩, ?_, listed, ?_, ?_⟩
  · exact ⟨fun yields => yields.unique represents.walks.yields, fun same => same ▸ represents.walks.yields⟩
  · rw [represents.walk_eq, forest, Forest.preorder_map, Forest.preorder_eq_map_nodes, List.map_map]
    rfl
  · rw [represents.map_node_index]
    exact represents.nodup_focusable
  · rw [listed, List.length_map, forest, Forest.preorder_map, List.countP_map, List.countP_eq_length_filter]
    rfl

/-- The link in a division is replaced by a link with a link inside, which moves into its slot and a new one. The
division can be selected itself. -/
theorem index_reads_in_order_refilled :
    let link := fun kids => Forest.single { kind := .link, selectable := true : Content } kids
    let division := fun kids => Forest.single { kind := .container, selectable := true : Content } kids
    let page := ofForest (.single { kind := .body } (division (link .nil) ++ link .nil))
    let d := (page.replaceChildren? ⟨1, 0⟩ (link (link .nil))).getD page
    d.Reachable ∧ (Focus.index d).map Focus.Entry.node = [⟨1, 0⟩, ⟨4, 0⟩, ⟨0, 1⟩, ⟨2, 0⟩] ∧
      d.Yields d.top.reverse.toArray d.walk ∧ d.walk.map Prod.fst = [⟨3, 0⟩, ⟨1, 0⟩, ⟨4, 0⟩, ⟨0, 1⟩, ⟨2, 0⟩] ∧
      (Focus.index d).length = d.forest.preorder.countP (·.selectable) := by
  intro link division page d
  have reachable : d.Reachable := .replace _ _ (.ofForest _)
  obtain ⟨-, ⟨-, yields⟩, -, -, -, length⟩ := reachable.index_reads_in_order
  exact ⟨reachable, by decide, (yields d.walk).mpr rfl, by decide, length⟩

end PocketReader.Document
