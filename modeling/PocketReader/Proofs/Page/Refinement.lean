import PocketReader.Proofs.Page.Reachable

/-! A document stands for plain ordered trees. Making one from trees and reading it back gives the same trees, and a
replacement is the same change on trees: what is below one node is exchanged, and no other node is touched. -/
namespace PocketReader

/-- The plain trees, with others in place of what is below the node of a handle. -/
def Forest.refill (p : Handle) : Forest Located → Forest Content → Forest Content
  | .nil, _ => .nil
  | .node n kids rest, forest =>
    .node n.content (if n.handle = p then forest else kids.refill p forest) (rest.refill p forest)

theorem Forest.map_content_graft (p : Handle) (f g : Forest Located) :
    (f.graft p g).map Located.content = f.refill p (g.map Located.content) := by
  induction f with
  | nil => rfl
  | node n kids rest ihk ihr =>
    rw [graft, refill]
    by_cases here : n.handle = p
    · rw [if_pos here, if_pos here, map, ihr]
    · rw [if_neg here, if_neg here, map, ihk, ihr]

namespace Document

theorem forest_ofForest (forest : Forest Content) : (ofForest forest).forest = forest := by
  obtain ⟨g, content, represents⟩ := represents_ofForest forest
  rw [Document.forest, represents.located_eq, content]

theorem isSome_replaceChildren? (d : Document) (p : Handle) (forest : Forest Content) :
    (d.replaceChildren? p forest).isSome = (d.get? p).isSome := by
  rw [replaceChildren?, Option.isSome_map]

theorem Replaced.forest {before after : Document} {p : Handle} {forest : Forest Content} {f g : Forest Located}
    (replaced : Replaced before after p forest f g) (represents : before.Represents f) (member : p ∈ f.handles) :
    after.forest = f.refill p forest := by
  rw [Document.forest, (replaced.represents represents member).located_eq, Forest.map_content_graft, replaced.content]

/-- A node that was not below the target keeps all but, if it is the target, its children. -/
theorem Replaced.kept {before after : Document} {p h : Handle} {forest : Forest Content} {f g : Forest Located}
    {node : Node} (replaced : Replaced before after p forest f g) (found : before.get? h = some node)
    (above : h ∉ (f.under p).handles) :
    ∃ next, after.get? h = some next ∧ next.content = node.content ∧ (h ≠ p → next.children = node.children) := by
  by_cases here : h = p
  · subst here
    refine ⟨{ node with children := g.rootHandles }, ?_, rfl, fun other => absurd rfl other⟩
    rw [replaced.parent, found, Option.map_some]
  · have old : h ∉ g.handles := by
      intro new
      have none := replaced.fresh h new
      rw [found] at none
      cases none
    refine ⟨node, ?_, rfl, fun _ => rfl⟩
    rw [replaced.same h here above old, found]

/-- A node that is not removed is found again with the content it had. -/
theorem Reachable.get?_of_kept {d : Document} (reachable : d.Reachable) {p h : Handle} (forest : Forest Content)
    {node : Node} (found : d.get? h = some node) (above : h ∉ (d.located.under p).handles) :
    ∃ next, ((d.replaceChildren? p forest).getD d).get? h = some next ∧ next.content = node.content := by
  cases there : d.get? p with
  | none =>
    rw [replaceChildren?, there]
    exact ⟨node, found, rfl⟩
  | some target =>
    obtain ⟨after, g, result, replaced⟩ := reachable.represents.replace there forest
    obtain ⟨next, still, content, -⟩ := replaced.kept found above
    rw [result]
    exact ⟨next, still, content⟩

/-- Documents refine trees. Trees that are stored read back as they are; a document that can be reached reads back as
a whole; and a replacement is asked of a node that is there, or changes nothing, and then exchanges the trees below
that node, leaves the handles of the removed nodes with nothing to find, and keeps every other node. -/
theorem replaceChildren?_refines_refill :
    (∀ forest, (ofForest forest).forest = forest) ∧
    ∀ d : Document, d.Reachable →
      (d.located.rootHandles = d.top ∧ d.Holds d.located) ∧
      ∀ p forest,
        ((d.replaceChildren? p forest).isSome ↔ (d.get? p).isSome) ∧
        (d.get? p = none → (d.replaceChildren? p forest).getD d = d) ∧
        ∀ after, d.replaceChildren? p forest = some after →
          after.forest = d.located.refill p forest ∧
          (∀ h ∈ (d.located.under p).handles, after.get? h = none) ∧
          ∀ h node, d.get? h = some node → h ∉ (d.located.under p).handles →
            ∃ next, after.get? h = some next ∧ next.content = node.content ∧
              (h ≠ p → next.children = node.children) := by
  refine ⟨forest_ofForest, fun d reachable => ?_⟩
  have represents := reachable.represents
  refine ⟨⟨represents.top, represents.holds⟩, fun p forest => ⟨?_, ?_, ?_⟩⟩
  · rw [isSome_replaceChildren?]
  · intro lost
    rw [replaceChildren?, lost]
    rfl
  · intro after result
    have there : (d.get? p).isSome := by
      rw [← isSome_replaceChildren? d p forest, result]
      rfl
    obtain ⟨node, found⟩ := Option.isSome_iff_exists.mp there
    obtain ⟨last, g, same, replaced⟩ := represents.replace found forest
    rw [result, Option.some.injEq] at same
    subst same
    have next := replaced.represents represents (represents.mem_of_get? found)
    refine ⟨?_, fun h below => (replaced.spent h below).get?_eq_none,
      fun h node here above => replaced.kept here above⟩
    rw [Document.forest, next.located_eq, Forest.map_content_graft, replaced.content]

/-- A division between a heading and a link is filled anew. -/
theorem replaceChildren?_refines_refill_between :
    let text := fun line => Forest.single (Content.text [line]) .nil
    let page := fun filling => Forest.node { kind := .heading } (text "top")
      (.node { kind := .container } filling (.single { kind := .link, selectable := true } (text "on")))
    let d := ofForest (page (text "old" ++ text "older"))
    let p : Handle := ⟨4, 0⟩
    d.Reachable ∧ (d.located.under p).handles = [⟨2, 0⟩, ⟨3, 0⟩] ∧
      ∃ after, d.replaceChildren? p (text "new") = some after ∧ after.forest = page (text "new") ∧
        after.get? ⟨2, 0⟩ = none ∧ after.get? ⟨6, 0⟩ = d.get? ⟨6, 0⟩ := by
  intro text page d p
  have reachable : d.Reachable := .ofForest _
  have below : (d.located.under p).handles = [⟨2, 0⟩, ⟨3, 0⟩] := by decide
  obtain ⟨-, all⟩ := replaceChildren?_refines_refill
  obtain ⟨-, replace⟩ := all d reachable
  obtain ⟨there, -, change⟩ := replace p (text "new")
  obtain ⟨after, result⟩ := Option.isSome_iff_exists.mp (there.mpr (by decide))
  obtain ⟨forest, gone, kept⟩ := change after result
  refine ⟨reachable, below, after, result, ?_, gone ⟨2, 0⟩ (by rw [below]; decide), ?_⟩
  · rw [forest]
    decide
  · obtain ⟨⟨content, children⟩, found⟩ : ∃ node, d.get? ⟨6, 0⟩ = some node := ⟨_, rfl⟩
    obtain ⟨⟨other, others⟩, new, same, also⟩ := kept ⟨6, 0⟩ _ found (by rw [below]; decide)
    cases same
    cases also (by decide)
    exact new.trans found.symm

end Document
end PocketReader
