import PocketReader.Proofs.Page.Graft

/-! The loops that go through a document and keep a list of handles waiting. Each relation here runs its loop without
a bound on the handles taken, so that a derivation is a run that ends. On trees that stand in a document the bounded
loops are such runs, and what they give is read off the trees. -/
namespace PocketReader

/-- The nodes of trees with their handles, in reading order. -/
def Forest.nodes : Forest Located → List (Handle × Node)
  | .nil => []
  | .node n kids rest => (n.handle, ⟨n.content, kids.rootHandles⟩) :: (kids.nodes ++ rest.nodes)

@[simp] theorem Forest.nodes_append (f g : Forest Located) : (f ++ g).nodes = f.nodes ++ g.nodes := by
  induction f with
  | nil => rfl
  | node n kids rest _ ih => simp only [node_append, nodes, ih, List.cons_append, List.append_assoc]

theorem Forest.map_fst_nodes (f : Forest Located) : f.nodes.map Prod.fst = f.handles := by
  induction f with
  | nil => rfl
  | node n kids rest ihk ihr => simp only [nodes, List.map_cons, List.map_append, ihk, ihr, handles_node]

theorem Forest.preorder_eq_map_nodes (f : Forest Located) :
    f.preorder = f.nodes.map fun entry => ⟨entry.1, entry.2.content⟩ := by
  induction f with
  | nil => rfl
  | node n kids rest ihk ihr => simp only [preorder, nodes, List.map_cons, List.map_append, ihk, ihr]

/-- The nodes one below the other. -/
def Forest.depth : Forest Located → Nat
  | .nil => 0
  | .node _ kids rest => max (kids.depth + 1) rest.depth

theorem Forest.depth_le_size (f : Forest Located) : f.depth ≤ f.size := by
  induction f with
  | nil => exact Nat.le_refl _
  | node n kids rest ihk ihr =>
    simp only [depth, size]
    omega

namespace Document

/-- A walk: the children of a node go in front of the handles still waiting. -/
inductive Walks (d : Document) : List Handle → List (Handle × Node) → Prop
  | done : Walks d [] []
  | stale {h waiting nodes} : d.get? h = none → Walks d waiting nodes → Walks d (h :: waiting) nodes
  | met {h node waiting nodes} : d.get? h = some node → Walks d (node.children ++ waiting) nodes →
      Walks d (h :: waiting) ((h, node) :: nodes)

/-- A search by name: the children of a node go behind the handles still waiting. -/
inductive Searches (d : Document) (id : String) : List Handle → Option Handle → Prop
  | done : Searches d id [] none
  | stale {h waiting result} : d.get? h = none → Searches d id waiting result → Searches d id (h :: waiting) result
  | found {h node waiting} : d.get? h = some node → node.content.id? = some id → Searches d id (h :: waiting) (some h)
  | passed {h node waiting result} : d.get? h = some node → node.content.id? ≠ some id →
      Searches d id (waiting ++ node.children) result → Searches d id (h :: waiting) result

/-- A removal: each node met is vacated, and its children, the last one first, go in front of the handles still
waiting. -/
inductive Clears : Document → List Handle → Document → Prop
  | done {d} : Clears d [] d
  | stale {d h waiting last} : d.get? h = none → Clears d waiting last → Clears d (h :: waiting) last
  | vacated {d h node waiting last} : d.get? h = some node →
      Clears (d.vacate h) (node.children.reverse ++ waiting) last → Clears d (h :: waiting) last

theorem walks_visit {d : Document} {f : Forest Located} (holds : d.Holds f) {budget : Nat}
    (enough : f.size ≤ budget) :
    Walks d f.rootHandles f.nodes ∧ d.visit budget f.rootHandles = f.nodes := by
  induction budget generalizing f with
  | zero =>
    cases f with
    | nil => exact ⟨.done, rfl⟩
    | node n kids rest => exact absurd enough (Nat.not_succ_le_zero _)
  | succ budget ih =>
    cases f with
    | nil => exact ⟨.done, rfl⟩
    | node n kids rest =>
      obtain ⟨here, inside, right⟩ := holds
      have less : (kids ++ rest).size ≤ budget := by
        simp only [Forest.size, Forest.size_append] at enough ⊢
        omega
      obtain ⟨run, result⟩ := ih (inside.append right) less
      rw [Forest.rootHandles_append, Forest.nodes_append] at run result
      refine ⟨.met here run, ?_⟩
      simp only [Forest.rootHandles_node, visit, here, result, Forest.nodes]

theorem searches_searchById {d : Document} (id : String) {f : Forest Located} (holds : d.Holds f) {budget : Nat}
    (enough : f.size ≤ budget) : Searches d id f.rootHandles (d.searchById? id budget f.rootHandles) := by
  induction budget generalizing f with
  | zero =>
    cases f with
    | nil => exact .done
    | node n kids rest => exact absurd enough (Nat.not_succ_le_zero _)
  | succ budget ih =>
    cases f with
    | nil => exact .done
    | node n kids rest =>
      obtain ⟨here, inside, right⟩ := holds
      have less : (rest ++ kids).size ≤ budget := by
        simp only [Forest.size, Forest.size_append] at enough ⊢
        omega
      have run := ih (right.append inside) less
      rw [Forest.rootHandles_append] at run
      simp only [Forest.rootHandles_node, searchById?, here]
      split
      · exact .found here ‹_›
      · exact .passed here ‹_› run

/-- Handles that find nodes are in different slots. -/
theorem Holds.nodup_index {d : Document} {f : Forest Located} (holds : d.Holds f) (nodup : f.handles.Nodup) :
    (f.handles.map Handle.index).Nodup := by
  refine nodup.map_on fun h first k second same => ?_
  obtain ⟨node, found⟩ := holds.exists_get? first
  obtain ⟨other, also⟩ := holds.exists_get? second
  exact handle_eq_of_index_eq found also same

theorem Holds.size_le {d : Document} {f : Forest Located} (holds : d.Holds f) (nodup : f.handles.Nodup) :
    f.size ≤ d.slots.size := by
  have inside : f.handles.map Handle.index ⊆ List.range d.slots.size := by
    intro index member
    obtain ⟨h, there, rfl⟩ := List.mem_map.mp member
    obtain ⟨node, found⟩ := holds.exists_get? there
    exact List.mem_range.mpr (index_lt_of_get? found)
  have := (holds.nodup_index nodup).length_le_of_subset inside
  rwa [List.length_map, Forest.length_handles, List.length_range] at this

/-- Reading back the trees under their roots. -/
theorem Holds.treesAt {d : Document} {f : Forest Located} (holds : d.Holds f) {depth : Nat}
    (enough : f.depth ≤ depth) :
    d.treesAt depth f.rootHandles = f := by
  induction f generalizing depth with
  | nil => cases depth <;> rfl
  | node n kids rest ihk ihr =>
    obtain ⟨here, inside, right⟩ := holds
    rw [Forest.depth] at enough
    cases depth with
    | zero => omega
    | succ depth =>
      have below : d.treesAt depth kids.rootHandles = kids := ihk inside (by omega)
      have beside : d.treesAt (depth + 1) rest.rootHandles = rest := ihr right (by omega)
      rw [Document.treesAt] at beside ⊢
      rw [Forest.rootHandles_node, List.foldr_cons, here, beside]
      simp only [below]

/-- The trees `f` have been removed from `before`. -/
structure Cleared (before after : Document) (f : Forest Located) : Prop where
  same : ∀ h, h ∉ f.handles → after.get? h = before.get? h
  spent : ∀ h ∈ f.handles, after.Spent h
  /-- Slots that were empty are as they were. -/
  vacant : ∀ index, before.Vacant index → after.slots[index]? = before.slots[index]?
  free : after.FreeExact
  top : after.top = before.top

theorem Cleared.nil {d : Document} (free : d.FreeExact) : Cleared d d .nil :=
  ⟨fun _ _ => rfl, fun _ member => (List.not_mem_nil member).elim, fun _ _ => rfl, free, rfl⟩

/-- The first root is vacated, and then all that was below it and to its right. -/
theorem Cleared.node {before after : Document} {n : Located} {kids rest left : Forest Located} {node : Node}
    (here : before.get? n.handle = some node) (all : left.handles.Perm (kids.handles ++ rest.handles))
    (cleared : Cleared (before.vacate n.handle) after left) : Cleared before after (.node n kids rest) := by
  obtain ⟨spent, vacant⟩ := spent_vacate here
  refine ⟨fun h outside => ?_, fun h member => ?_, fun index was => ?_, cleared.free,
    cleared.top.trans (vacate_top _ _)⟩
  · rw [Forest.handles_node, List.mem_cons, ← all.mem_iff, not_or] at outside
    rw [cleared.same h outside.2, get?_vacate, if_neg outside.1]
  · rw [Forest.handles_node, List.mem_cons, ← all.mem_iff] at member
    rcases member with rfl | later
    · obtain ⟨slot, there, moved⟩ := spent
      exact ⟨slot, (cleared.vacant _ vacant).trans there, moved⟩
    · exact cleared.spent h later
  · have still := slot_vacate_of_vacant was n.handle
    obtain ⟨slot, there, empty⟩ := was
    exact (cleared.vacant index ⟨slot, still.trans there, empty⟩).trans still

theorem cleared_clear {d : Document} (free : d.FreeExact) {f : Forest Located} (holds : d.Holds f)
    (nodup : f.handles.Nodup) {budget : Nat} (enough : f.size ≤ budget) :
    Clears d f.rootHandles (d.clear budget f.rootHandles) ∧ Cleared d (d.clear budget f.rootHandles) f := by
  induction budget generalizing d f with
  | zero =>
    cases f with
    | nil => exact ⟨.done, .nil free⟩
    | node n kids rest => exact absurd enough (Nat.not_succ_le_zero _)
  | succ budget ih =>
    cases f with
    | nil => exact ⟨.done, .nil free⟩
    | node n kids rest =>
      obtain ⟨here, inside, right⟩ := holds
      have all : (kids.reverse ++ rest).handles.Perm (kids.handles ++ rest.handles) := by
        simpa only [Forest.handles_append] using (Forest.handles_reverse kids).append_right rest.handles
      rw [Forest.handles_node, List.nodup_cons, ← all.mem_iff, ← all.nodup_iff] at nodup
      have stands : (d.vacate n.handle).Holds (kids.reverse ++ rest) := by
        refine (inside.reverse.append right).congr fun h member => ?_
        rw [get?_vacate, if_neg]
        rintro rfl
        exact nodup.1 member
      have less : (kids.reverse ++ rest).size ≤ budget := by
        simp only [Forest.size, Forest.size_append, Forest.size_reverse] at enough ⊢
        omega
      obtain ⟨run, cleared⟩ := ih (free.vacate n.handle) stands nodup.2 less
      simp only [Forest.rootHandles_append, Forest.rootHandles_reverse] at run cleared
      simp only [Forest.rootHandles_node, clear, here]
      exact ⟨.vacated here run, .node here all cleared⟩

end Document
end PocketReader
