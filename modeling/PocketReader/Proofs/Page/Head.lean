import PocketReader.Proofs.Page.Refinement
import PocketReader.Proofs.Script.Record
import PocketReader.Reader

/-! What a page says to the reader: in the attributes of its root, and in the nodes directly below the top level. A
document says what its trees say. Scripts can change what is below a node and no root, so the attributes of the roots
stay those of the page as it was read. -/
namespace PocketReader

namespace Forest

/-- The nodes directly below the roots, in reading order. -/
def second {α : Type} : Forest α → List α
  | .nil => []
  | .node _ kids rest => kids.roots ++ rest.second

theorem roots_map {α β : Type} (p : α → β) (f : Forest α) : (f.map p).roots = f.roots.map p := by
  induction f with
  | nil => rfl
  | node a kids rest _ ih => simp only [map, roots, ih, List.map_cons]

theorem second_map {α β : Type} (p : α → β) (f : Forest α) : (f.map p).second = f.second.map p := by
  induction f with
  | nil => rfl
  | node a kids rest _ ih => simp only [map, second, ih, roots_map, List.map_append]

theorem roots_refill (p : Handle) (f : Forest Located) (forest : Forest Content) :
    (f.refill p forest).roots = (f.map Located.content).roots := by
  induction f with
  | nil => rfl
  | node n kids rest _ ih => simp only [refill, map, roots, ih]

/-- The first of some attributes that the root of a page has. -/
def rootAttribute? (page : Forest Content) (names : List String) : Option String :=
  (page.roots.find? (·.kind == .body)).bind fun root => names.findSome? root.attribute?

/-- The script files a page names, in the order they are named. -/
def scriptPaths (page : Forest Content) : List String :=
  page.second.filterMap fun content => if content.kind = .script then content.attribute? "src" else none

end Forest

namespace Document

variable {d : Document} {f : Forest Located}

theorem Holds.find_root (holds : d.Holds f) :
    ((f.rootHandles.find? fun h => (d.get? h).any fun node => node.content.kind == .body).bind d.get?).map
        Node.content =
      (f.map Located.content).roots.find? (·.kind == .body) := by
  induction f with
  | nil => rfl
  | node n kids rest _ ih =>
    obtain ⟨found, -, beside⟩ := holds
    rw [Forest.rootHandles_node, Forest.map, Forest.roots, List.find?_cons, List.find?_cons, found, Option.any_some]
    cases n.content.kind == .body with
    | true =>
      dsimp only
      rw [Option.bind_some, found, Option.map_some]
    | false => exact ih beside

theorem Holds.contents (holds : d.Holds f) :
    (f.rootHandles.filterMap fun h => (d.get? h).map fun node => (h, node.content)) =
      f.roots.map fun n => (n.handle, n.content) := by
  induction f with
  | nil => rfl
  | node n kids rest _ ih =>
    obtain ⟨found, -, beside⟩ := holds
    rw [Forest.rootHandles_node, List.filterMap_cons, found, ih beside]
    rfl

theorem Holds.headNodes (holds : d.Holds f) :
    ((f.rootHandles.flatMap d.children).filterMap fun h => (d.get? h).map fun node => (h, node.content)) =
      f.second.map fun n => (n.handle, n.content) := by
  induction f with
  | nil => rfl
  | node n kids rest _ ih =>
    obtain ⟨found, inside, beside⟩ := holds
    have below : d.children n.handle = kids.rootHandles := by rw [children, found, Option.map_some, Option.getD_some]
    rw [Forest.rootHandles_node, List.flatMap_cons, List.filterMap_append, below, inside.contents, ih beside,
      Forest.second, List.map_append]

theorem Reachable.rootAttribute? (reachable : d.Reachable) (names : List String) :
    ((d.pageRoot?.bind d.get?).bind fun root => names.findSome? root.content.attribute?) =
      d.forest.rootAttribute? names := by
  have represents := reachable.represents
  rw [pageRoot?, ← represents.top, Forest.rootAttribute?, forest, ← represents.holds.find_root, Option.bind_map]
  rfl

theorem Reachable.scriptPaths (reachable : d.Reachable) : Reader.scriptPaths d = d.forest.scriptPaths := by
  have represents := reachable.represents
  rw [Reader.scriptPaths, Reader.headNodes, ← represents.top, represents.holds.headNodes, Forest.scriptPaths, forest,
    Forest.second_map, List.filterMap_map, List.filterMap_map]
  rfl

theorem Reachable.roots_replace (reachable : d.Reachable) (p : Handle) (forest : Forest Content) :
    ((d.replaceChildren? p forest).getD d).forest.roots = d.forest.roots := by
  have represents := reachable.represents
  cases found : d.get? p with
  | none =>
    rw [replaceChildren?, found]
    rfl
  | some node =>
    obtain ⟨after, g, result, replaced⟩ := represents.replace found forest
    rw [result, Option.getD_some, replaced.forest represents (represents.mem_of_get? found), Forest.roots_refill]
    rfl

end Document

namespace Script

variable {γ : Type}

theorem document_assignMarkup (w : World γ) (node : Handle) (source : String) :
    (w.assignMarkup node source).document = w.document ∨
      ∃ forest, (w.assignMarkup node source).document =
        (w.document.replaceChildren? node forest).getD w.document := by
  unfold World.assignMarkup
  split
  · exact .inl rfl
  · rename_i forest _
    split
    · exact .inl rfl
    · split
      · exact .inl rfl
      · rename_i document result
        refine .inr ⟨forest, ?_⟩
        rw [result, Option.getD_some]

/-- Scripts leave the roots of the page as they are. -/
theorem Effects.roots {w last : World γ} (effects : Effects w last) (reachable : w.document.Reachable) :
    last.document.forest.roots = w.document.forest.roots := by
  induction effects with
  | refl => rfl
  | @tail before _ earlier effect ih =>
    rw [← ih]
    cases effect with
    | memory f | console level line | hold held => rfl
    | markup node source =>
      rcases document_assignMarkup before node source with same | ⟨forest, changed⟩
      · rw [same]
      · rw [changed]
        exact ((Effects.recorded earlier).reachable reachable).roots_replace node forest

end Script
end PocketReader
