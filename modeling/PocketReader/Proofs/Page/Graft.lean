import Mathlib.Data.List.Nodup
import PocketReader.Proofs.Page.Trees

/-! Trees with other trees put below one of their nodes. Where no handle occurs twice, the change takes away exactly
what was below that node and leaves every other node in its place. -/
namespace PocketReader

namespace Forest

/-- The trees below the node of a handle. -/
def under (p : Handle) : Forest Located → Forest Located
  | .nil => .nil
  | .node n kids rest => if n.handle = p then kids else kids.under p ++ rest.under p

/-- The trees with `g` in place of what is below the node of a handle. -/
def graft (p : Handle) : Forest Located → Forest Located → Forest Located
  | .nil, _ => .nil
  | .node n kids rest, g =>
    if n.handle = p then .node n g (rest.graft p g) else .node n (kids.graft p g) (rest.graft p g)

/-- The trees from right to left, each as it is. -/
def reverse : Forest Located → Forest Located
  | .nil => .nil
  | .node n kids rest => rest.reverse ++ .single n kids

@[simp] theorem rootHandles_reverse (f : Forest Located) : f.reverse.rootHandles = f.rootHandles.reverse := by
  induction f with
  | nil => rfl
  | node n kids rest _ ih => simp only [reverse, rootHandles_append, ih, rootHandles_node, List.reverse_cons, single,
      rootHandles_nil]

theorem handles_reverse (f : Forest Located) : f.reverse.handles.Perm f.handles := by
  induction f with
  | nil => exact .nil
  | node n kids rest _ ih =>
    simp only [reverse, single, handles_append, handles_node, handles_nil, List.append_nil]
    exact List.perm_append_comm.trans ((ih.append_left kids.handles).cons n.handle)

@[simp] theorem size_append (f g : Forest Located) : (f ++ g).size = f.size + g.size := by
  simp only [← length_handles, handles_append, List.length_append]

@[simp] theorem size_reverse (f : Forest Located) : f.reverse.size = f.size := by
  simpa only [← length_handles] using (handles_reverse f).length_eq

variable {p : Handle}

@[simp] theorem rootHandles_graft (g f : Forest Located) : (f.graft p g).rootHandles = f.rootHandles := by
  induction f with
  | nil => rfl
  | node n kids rest _ ih =>
    unfold graft
    split <;> simp only [rootHandles_node, ih]

theorem graft_of_notMem (g : Forest Located) {f : Forest Located} (absent : p ∉ f.handles) : f.graft p g = f := by
  induction f with
  | nil => rfl
  | node n kids rest ihk ihr =>
    rw [handles_node, List.mem_cons, List.mem_append, not_or, not_or] at absent
    rw [graft, if_neg (Ne.symm absent.1), ihk absent.2.1, ihr absent.2.2]

theorem under_of_notMem {f : Forest Located} (absent : p ∉ f.handles) : f.under p = .nil := by
  induction f with
  | nil => rfl
  | node n kids rest ihk ihr =>
    rw [handles_node, List.mem_cons, List.mem_append, not_or, not_or] at absent
    rw [under, if_neg (Ne.symm absent.1), ihk absent.2.1, ihr absent.2.2]
    rfl

/-- A forest without repeated handles, taken apart at its first root. -/
theorem nodup_node {n : Located} {kids rest : Forest Located} (nodup : (node n kids rest).handles.Nodup) :
    n.handle ∉ kids.handles ∧ n.handle ∉ rest.handles ∧ kids.handles.Nodup ∧ rest.handles.Nodup ∧
      ∀ h ∈ kids.handles, h ∉ rest.handles := by
  rw [handles_node, List.nodup_cons, List.mem_append, not_or, List.nodup_append] at nodup
  exact ⟨nodup.1.1, nodup.1.2, nodup.2.1, nodup.2.2.1, fun h left right => nodup.2.2.2 h left h right rfl⟩

theorem under_root (n : Located) (kids rest : Forest Located) : (node n kids rest).under n.handle = kids := by
  rw [under, if_pos rfl]

theorem under_of_mem_children {n : Located} {kids rest : Forest Located} (nodup : (node n kids rest).handles.Nodup)
    (member : p ∈ kids.handles) : (node n kids rest).under p = kids.under p := by
  obtain ⟨above, -, -, -, apart⟩ := nodup_node nodup
  have other : n.handle ≠ p := fun same => above (same ▸ member)
  rw [under, if_neg other, under_of_notMem (apart p member), append_nil]

theorem under_of_mem_rest {n : Located} {kids rest : Forest Located} (nodup : (node n kids rest).handles.Nodup)
    (member : p ∈ rest.handles) : (node n kids rest).under p = rest.under p := by
  obtain ⟨-, before, -, -, apart⟩ := nodup_node nodup
  have other : n.handle ≠ p := fun same => before (same ▸ member)
  rw [under, if_neg other, under_of_notMem fun inside => apart p inside member, nil_append]

/-- A part that is moved to the front from the children of a node. -/
theorem perm_front_of_left {l front others : List Handle} (h : Handle) (right : List Handle)
    (split : l.Perm (front ++ others)) : (h :: (l ++ right)).Perm (front ++ h :: (others ++ right)) := by
  refine List.Perm.trans ?_ List.perm_middle.symm
  rw [← List.append_assoc]
  exact (split.append_right right).cons h

/-- A part that is moved to the front from what is to the right of a node. -/
theorem perm_front_of_right {l front others : List Handle} (h : Handle) (left : List Handle)
    (split : l.Perm (front ++ others)) : (h :: (left ++ l)).Perm (front ++ h :: (left ++ others)) := by
  refine List.Perm.trans (List.Perm.cons h ?_) List.perm_middle.symm
  exact (split.append_left left).trans (List.perm_append_comm_assoc left front others)

/-- Both forests have the same nodes besides what is below the node, which is among them. -/
theorem handles_graft (g : Forest Located) {f : Forest Located} (nodup : f.handles.Nodup) (member : p ∈ f.handles) :
    ∃ others, p ∈ others ∧ f.handles.Perm ((f.under p).handles ++ others) ∧
      (f.graft p g).handles.Perm (g.handles ++ others) := by
  induction f with
  | nil => cases member
  | node n kids rest ihk ihr =>
    obtain ⟨-, unrepeated, left, right, apart⟩ := nodup_node nodup
    rw [under, graft]
    by_cases here : n.handle = p
    · rw [here] at unrepeated
      rw [if_pos here, if_pos here, graft_of_notMem g unrepeated, handles_node, handles_node, here]
      exact ⟨p :: rest.handles, List.mem_cons_self, List.perm_middle.symm, List.perm_middle.symm⟩
    · rw [if_neg here, if_neg here, handles_node, handles_node, handles_append]
      rw [handles_node, List.mem_cons, List.mem_append] at member
      rcases member with same | inside | beside
      · exact absurd same.symm here
      · obtain ⟨others, kept, before, after⟩ := ihk left inside
        rw [under_of_notMem (apart p inside), graft_of_notMem g (apart p inside), handles_nil, List.append_nil]
        exact ⟨n.handle :: (others ++ rest.handles), List.mem_cons_of_mem _ (List.mem_append_left _ kept),
          perm_front_of_left n.handle rest.handles before, perm_front_of_left n.handle rest.handles after⟩
      · have absent : p ∉ kids.handles := fun inside => apart p inside beside
        obtain ⟨others, kept, before, after⟩ := ihr right beside
        rw [under_of_notMem absent, graft_of_notMem g absent, handles_nil, List.nil_append]
        exact ⟨n.handle :: (kids.handles ++ others), List.mem_cons_of_mem _ (List.mem_append_right _ kept),
          perm_front_of_right n.handle kids.handles before, perm_front_of_right n.handle kids.handles after⟩

theorem under_subset (f : Forest Located) : (f.under p).handles ⊆ f.handles := by
  induction f with
  | nil => exact fun _ member => member
  | node n kids rest ihk ihr =>
    intro h member
    rw [handles_node, List.mem_cons, List.mem_append]
    rw [under] at member
    split at member
    · exact .inr (.inl member)
    · rw [handles_append, List.mem_append] at member
      exact .inr (member.imp (fun m => ihk m) (fun m => ihr m))

end Forest

namespace Document

theorem Holds.reverse {d : Document} {f : Forest Located} (holds : d.Holds f) : d.Holds f.reverse := by
  induction f with
  | nil => trivial
  | node n kids rest _ ih => exact (ih holds.2.2).append ⟨holds.1, holds.2.1, trivial⟩

/-- What is below a node stands in the document as well, and its roots are the children of the node. -/
theorem Holds.under {d : Document} {f : Forest Located} (holds : d.Holds f) (nodup : f.handles.Nodup) {p : Handle}
    {node : Node} (member : p ∈ f.handles) (found : d.get? p = some node) :
    d.Holds (f.under p) ∧ (f.under p).rootHandles = node.children ∧ (f.under p).handles.Nodup ∧
      p ∉ (f.under p).handles := by
  induction f with
  | nil => cases member
  | node n kids rest ihk ihr =>
    obtain ⟨here, inside, right⟩ := holds
    obtain ⟨fresh, -, left, beside, -⟩ := Forest.nodup_node nodup
    rw [Forest.handles_node, List.mem_cons, List.mem_append] at member
    rcases member with rfl | below | later
    · rw [here, Option.some.injEq] at found
      subst found
      rw [Forest.under_root]
      exact ⟨inside, rfl, left, fresh⟩
    · rw [Forest.under_of_mem_children nodup below]
      exact ihk inside left below
    · rw [Forest.under_of_mem_rest nodup later]
      exact ihr right beside later

/-- The grafted trees stand in a document that keeps all nodes but those under the node, and gives the node the new
roots for its children. -/
theorem Holds.graft {d d' : Document} {f g : Forest Located} {p : Handle} (holds : d.Holds f)
    (nodup : f.handles.Nodup)
    (new : d'.Holds g) (parent : d'.get? p = (d.get? p).map fun node => { node with children := g.rootHandles })
    (kept : ∀ h ∈ f.handles, h ≠ p → h ∉ (f.under p).handles → d'.get? h = d.get? h) : d'.Holds (f.graft p g) := by
  induction f with
  | nil => trivial
  | node n kids rest ihk ihr =>
    obtain ⟨here, inside, right⟩ := holds
    obtain ⟨above, before, left, beside, apart⟩ := Forest.nodup_node nodup
    simp only [Forest.handles_node, List.mem_cons, List.mem_append, Forest.under] at kept
    rw [Forest.graft]
    by_cases same : n.handle = p
    · subst same
      rw [if_pos rfl] at kept ⊢
      rw [here, Option.map_some] at parent
      refine ⟨parent, new, ihr right beside fun h member other _ => ?_⟩
      exact kept h (.inr (.inr member)) other fun below => apart h below member
    · rw [if_neg same] at kept ⊢
      simp only [Forest.handles_append, List.mem_append, not_or] at kept
      refine ⟨?_, ihk inside left fun h member other gone => ?_, ihr right beside fun h member other gone => ?_⟩
      · rw [Forest.rootHandles_graft, kept n.handle (.inl rfl) same, here]
        exact ⟨fun m => above (Forest.under_subset kids m), fun m => before (Forest.under_subset rest m)⟩
      · exact kept h (.inr (.inl member)) other ⟨gone, fun m => apart h member (Forest.under_subset rest m)⟩
      · exact kept h (.inr (.inr member)) other ⟨fun m => apart h (Forest.under_subset kids m) member, gone⟩

end Document
end PocketReader
