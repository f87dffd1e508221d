import PocketReader.Focus
import PocketReader.Proofs.Page.Arena

/-! The index of a document: its selectable nodes in reading order, each once. -/
namespace PocketReader

namespace Forest

/-- The handles of the selectable nodes, in reading order. -/
def focusable (f : Forest Located) : List Handle := (f.preorder.filter (·.content.selectable)).map Located.handle

theorem focusable_node (n : Located) (kids rest : Forest Located) :
    (node n kids rest).focusable =
      (if n.content.selectable then [n.handle] else []) ++ kids.focusable ++ rest.focusable := by
  unfold focusable
  rw [preorder, List.filter_cons, List.filter_append]
  split <;> simp only [List.map_cons, List.map_append, List.cons_append, List.nil_append]

theorem focusable_sublist (f : Forest Located) : f.focusable.Sublist f.handles := List.filter_sublist.map _

end Forest

namespace Document.Represents

variable {d : Document} {f : Forest Located} (represents : d.Represents f)

include represents

theorem map_node_index : (Focus.index d).map Focus.Entry.node = f.focusable := by
  rw [Focus.index, represents.walk_eq, Forest.focusable, Forest.preorder_eq_map_nodes, List.filter_map]
  simp only [List.map_map]
  rfl

theorem nodup_focusable : f.focusable.Nodup := represents.nodup.sublist f.focusable_sublist

/-- What the index holds is found, and can be selected. -/
theorem mem_focusable_iff (h : Handle) :
    h ∈ f.focusable ↔ ∃ node, d.get? h = some node ∧ node.content.selectable = true := by
  rw [← represents.map_node_index, Focus.index, List.map_map]
  simp only [List.mem_map, List.mem_filter, Prod.exists, Function.comp_apply]
  constructor
  · rintro ⟨k, node, ⟨met, selectable⟩, rfl⟩
    exact ⟨node, (represents.mem_walk_iff k node).mp met, selectable⟩
  · rintro ⟨node, found, selectable⟩
    exact ⟨h, node, ⟨(represents.mem_walk_iff h node).mpr found, selectable⟩, rfl⟩

end Document.Represents
end PocketReader
