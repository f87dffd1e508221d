import PocketReader.Proofs.Page.Reachable

/-! The slots of a document form a forest: each slot is either free, and listed once as free, or it is the place of
one node, which is named once among the top-level nodes and the children of nodes. The loops over such a document end,
and a walk meets each node once. -/
namespace PocketReader

/-- Each handle is named once, as a root or as the child of a node. -/
theorem Forest.handles_perm (f : Forest Located) :
    f.handles.Perm (f.rootHandles ++ f.nodes.flatMap fun entry => entry.2.children) := by
  induction f with
  | nil => exact .nil
  | node n kids rest ihk ihr =>
    simp only [handles_node, rootHandles_node, nodes, List.flatMap_cons, List.flatMap_append, List.cons_append]
    refine List.Perm.cons n.handle ((ihk.append ihr).trans ?_)
    rw [← List.append_assoc kids.rootHandles]
    exact List.perm_append_comm_assoc _ _ _

namespace Document

/-- The children of the node in a slot. -/
def childrenAt (d : Document) (index : Nat) : List Handle :=
  (((d.slots[index]?).bind Slot.node?).map Node.children).getD []

/-- All handles a document keeps: those at the top and the child lists, slot by slot. -/
def links (d : Document) : List Handle := d.top ++ (List.range d.slots.size).flatMap d.childrenAt

/-- The handles found by going down from the top. -/
inductive Below (d : Document) : Handle → Prop
  | top {h : Handle} : h ∈ d.top → Below d h
  | child {h k : Handle} {node : Node} : Below d h → d.get? h = some node → k ∈ node.children → Below d k

/-- A slot is free or holds one node, and each node is named once and found by going down from the top. -/
structure IsForest (d : Document) : Prop where
  free_nodup : d.free.Nodup
  mem_free_iff : ∀ index, index ∈ d.free ↔ ∃ slot, d.slots[index]? = some slot ∧ slot.node? = none
  resolves : ∀ h ∈ d.links, (d.get? h).isSome
  once : ∀ h, (d.get? h).isSome → (d.links.map Handle.index).count h.index = 1
  reached : ∀ h, (d.get? h).isSome → d.Below h

theorem childrenAt_of_get? {d : Document} {h : Handle} {node : Node} (found : d.get? h = some node) :
    d.childrenAt h.index = node.children := by
  rw [childrenAt, get?_eq_some.mp found]
  rfl

theorem childrenAt_of_vacant {d : Document} {index : Nat} (vacant : d.Vacant index) : d.childrenAt index = [] := by
  obtain ⟨slot, there, empty⟩ := vacant
  rw [childrenAt, there, Option.bind_some, empty]
  rfl

theorem Holds.get?_of_mem_nodes {d : Document} {f : Forest Located} (holds : d.Holds f) {h : Handle} {node : Node}
    (member : (h, node) ∈ f.nodes) : d.get? h = some node := by
  induction f with
  | nil => cases member
  | node n kids rest ihk ihr =>
    rw [Forest.nodes, List.mem_cons, List.mem_append] at member
    rcases member with root | inside | right
    · cases root
      exact holds.1
    · exact ihk holds.2.1 inside
    · exact ihr holds.2.2 right

theorem Holds.below {d : Document} {f : Forest Located} (holds : d.Holds f) (roots : ∀ h ∈ f.rootHandles, d.Below h) :
    ∀ h ∈ f.handles, d.Below h := by
  induction f with
  | nil => exact fun _ member => (List.not_mem_nil member).elim
  | node n kids rest ihk ihr =>
    intro h member
    rw [Forest.rootHandles_node, List.forall_mem_cons] at roots
    rw [Forest.handles_node, List.mem_cons, List.mem_append] at member
    rcases member with rfl | inside | right
    · exact roots.1
    · exact ihk holds.2.1 (fun k child => .child roots.1 holds.1 child) h inside
    · exact ihr holds.2.2 roots.2 h right

namespace Represents

variable {d : Document} {f : Forest Located} (represents : d.Represents f)

include represents

/-- Each slot is free or the place of one node. -/
theorem range_perm : (List.range d.slots.size).Perm (d.free ++ f.handles.map Handle.index) := by
  have apart : ∀ index ∈ d.free, ∀ other ∈ f.handles.map Handle.index, index ≠ other := by
    rintro index listed _ member rfl
    obtain ⟨h, inside, same⟩ := List.mem_map.mp member
    rw [← same] at listed
    have vacant := (represents.free.mem_iff h.index).mp listed
    exact represents.holds.notMem vacant.get?_eq_none inside
  have nodup : (d.free ++ f.handles.map Handle.index).Nodup :=
    List.nodup_append.mpr ⟨represents.free.nodup, represents.holds.nodup_index represents.nodup, apart⟩
  refine (List.perm_ext_iff_of_nodup List.nodup_range nodup).mpr fun index => ?_
  rw [List.mem_range, List.mem_append]
  constructor
  · intro bound
    obtain ⟨⟨generation, node?⟩, there⟩ : ∃ slot, d.slots[index]? = some slot := ⟨_, Array.getElem?_eq_getElem bound⟩
    cases node? with
    | none => exact .inl ((represents.free.mem_iff index).mpr ⟨_, there, rfl⟩)
    | some node =>
      have found : d.get? ⟨index, generation⟩ = some node := get?_eq_some.mpr there
      exact .inr (List.mem_map.mpr ⟨_, represents.mem_of_get? found, rfl⟩)
  · rintro (listed | member)
    · exact ((represents.free.mem_iff index).mp listed).lt_size
    · obtain ⟨h, inside, rfl⟩ := List.mem_map.mp member
      obtain ⟨node, found⟩ := represents.holds.exists_get? inside
      exact index_lt_of_get? found

theorem size_eq : d.size = f.size := by
  have all := represents.range_perm.length_eq
  rw [List.length_range, List.length_append, List.length_map, Forest.length_handles] at all
  rw [size]
  omega

theorem links_perm : d.links.Perm f.handles := by
  have vacant : d.free.flatMap d.childrenAt = [] :=
    List.flatMap_eq_nil_iff.mpr fun index listed => childrenAt_of_vacant ((represents.free.mem_iff index).mp listed)
  have lived : (f.handles.map Handle.index).flatMap d.childrenAt = f.nodes.flatMap fun entry => entry.2.children := by
    rw [← Forest.map_fst_nodes, List.flatMap_map, List.flatMap_map]
    refine List.flatMap_congr fun entry member => ?_
    exact childrenAt_of_get? (represents.holds.get?_of_mem_nodes member)
  have slots := represents.range_perm.flatMap_right d.childrenAt
  rw [List.flatMap_append, vacant, lived, List.nil_append] at slots
  rw [links, ← represents.top]
  exact (slots.append_left f.rootHandles).trans f.handles_perm.symm

theorem isForest : d.IsForest := by
  refine ⟨represents.free.nodup, represents.free.mem_iff, fun h member => ?_, fun h there => ?_, fun h there => ?_⟩
  · exact Option.isSome_iff_exists.mpr (represents.holds.exists_get? (represents.links_perm.mem_iff.mp member))
  · rw [(represents.links_perm.map Handle.index).count_eq]
    refine List.count_eq_one_of_mem (represents.holds.nodup_index represents.nodup) ?_
    exact List.mem_map_of_mem (represents.complete h there)
  · refine represents.holds.below (fun k root => .top ?_) h (represents.complete h there)
    rwa [← represents.top]

theorem mem_walk_iff (h : Handle) (node : Node) : (h, node) ∈ d.walk ↔ d.get? h = some node := by
  rw [represents.walk_eq]
  refine ⟨represents.holds.get?_of_mem_nodes, fun found => ?_⟩
  have member := represents.mem_of_get? found
  rw [← Forest.map_fst_nodes] at member
  obtain ⟨⟨k, other⟩, entry, rfl⟩ := List.mem_map.mp member
  have also := represents.holds.get?_of_mem_nodes entry
  rw [found, Option.some.injEq] at also
  rwa [also]

end Represents

/-- Whatever has been asked for, the slots form a forest; a walk, a search and a removal end; a walk meets each node
once, and as many nodes are counted as it meets. -/
theorem Reachable.forest_and_loops {d : Document} (reachable : d.Reachable) :
    d.IsForest ∧
    Walks d d.top d.walk ∧
    (∀ id, Searches d id d.top (d.findById? id)) ∧
    (∀ p node, d.get? p = some node →
      Clears (d.adopt p []) node.children ((d.adopt p []).clear d.slots.size node.children)) ∧
    (d.walk.map Prod.fst).Nodup ∧
    (∀ h node, (h, node) ∈ d.walk ↔ d.get? h = some node) ∧
    d.size = d.walk.length := by
  have represents := reachable.represents
  refine ⟨represents.isForest, represents.walks, represents.searches, fun p node found => (represents.clears found).1,
    ?_, represents.mem_walk_iff, ?_⟩
  · rw [represents.walk_eq, Forest.map_fst_nodes]
    exact represents.nodup
  · rw [represents.size_eq, represents.walk_eq, ← Forest.length_handles, ← Forest.map_fst_nodes, List.length_map]

/-- A division is filled anew, and its old filling is asked for once more. -/
theorem forest_and_loops_after_reuse :
    let page := ofForest (.single { kind := .body } (.single { kind := .container } (.single (.text ["old"]) .nil)))
    let filled :=
      (page.replaceChildren? ⟨1, 0⟩ (.node { kind := .link } (.single (.text ["new"]) .nil) .nil)).getD page
    let last := (filled.replaceChildren? ⟨0, 0⟩ (.single (.text ["lost"]) .nil)).getD filled
    last.Reachable ∧ last.walk.map Prod.fst = [⟨2, 0⟩, ⟨1, 0⟩, ⟨3, 0⟩, ⟨0, 1⟩] ∧
      last.IsForest ∧ Walks last last.top last.walk ∧ last.size = last.walk.length := by
  intro page filled last
  have reachable : last.Reachable := .replace _ _ (.replace _ _ (.ofForest _))
  obtain ⟨forest, walks, -, -, -, -, size⟩ := reachable.forest_and_loops
  exact ⟨reachable, by decide, forest, walks, size⟩

end Document
end PocketReader
