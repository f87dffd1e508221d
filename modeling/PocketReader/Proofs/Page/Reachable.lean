import PocketReader.Proofs.Page.Loops

/-! Documents and the trees they are. A document made from trees is those trees, and a replacement grafts the new
trees onto the old ones, so every document that can come about reads back as trees, node by node. -/
namespace PocketReader.Document

/-- The document is these trees, and nothing else is in it. -/
structure Represents (d : Document) (f : Forest Located) : Prop where
  free : d.FreeExact
  top : f.rootHandles = d.top
  holds : d.Holds f
  nodup : f.handles.Nodup
  complete : ∀ h, (d.get? h).isSome → h ∈ f.handles

theorem freeExact_empty : FreeExact {} :=
  ⟨List.nodup_nil, fun index => by simp [Vacant]⟩

theorem represents_issued (forest : Forest Content) :
    ∃ g : Forest Located, g.map Located.content = forest ∧ (ofForest forest).Represents g ∧
      (issuedBy {} forest).Perm g.preorder := by
  obtain ⟨g, planted, issued⟩ := planted_issued freeExact_empty forest
  refine ⟨g, planted.content, ⟨⟨planted.free.nodup, planted.free.mem_iff⟩, planted.roots,
    planted.holds.congr fun _ _ => rfl, planted.nodup, fun h there => ?_⟩, issued⟩
  by_cases member : h ∈ g.handles
  · exact member
  · have lost : (ofForest forest).get? h = get? {} h := planted.same h member
    rw [lost] at there
    cases there

theorem represents_ofForest (forest : Forest Content) :
    ∃ g : Forest Located, g.map Located.content = forest ∧ (ofForest forest).Represents g := by
  obtain ⟨g, content, represents, -⟩ := represents_issued forest
  exact ⟨g, content, represents⟩

namespace Represents

variable {d : Document} {f : Forest Located} (represents : d.Represents f)

include represents

theorem mem_of_get? {h : Handle} {node : Node} (found : d.get? h = some node) : h ∈ f.handles :=
  represents.complete h (Option.isSome_of_eq_some found)

theorem size_le : f.size ≤ d.slots.size := represents.holds.size_le represents.nodup

theorem located_eq : d.located = f := by
  rw [located, ← represents.top]
  exact represents.holds.treesAt (Nat.le_trans f.depth_le_size represents.size_le)

theorem walks : Walks d d.top d.walk := by
  obtain ⟨run, result⟩ := walks_visit represents.holds represents.size_le
  rw [represents.top] at run result
  rwa [walk, result]

theorem walk_eq : d.walk = f.nodes := by
  rw [walk, ← represents.top]
  exact (walks_visit represents.holds represents.size_le).2

theorem searches (id : String) : Searches d id d.top (d.findById? id) := by
  have run := searches_searchById id represents.holds represents.size_le
  rwa [represents.top] at run

/-- The children of a node are removed once the node has let go of them. -/
theorem clears {p : Handle} {node : Node} (found : d.get? p = some node) :
    let lone := d.adopt p []
    Clears lone node.children (lone.clear d.slots.size node.children) ∧
      Cleared lone (lone.clear d.slots.size node.children) (f.under p) := by
  have member := represents.mem_of_get? found
  obtain ⟨below, roots, nodup, apart⟩ := represents.holds.under represents.nodup member found
  have stands : (d.adopt p []).Holds (f.under p) := below.congr fun h inside => by
    rw [get?_adopt, if_neg]
    rintro rfl
    exact apart inside
  have enough := stands.size_le nodup
  rw [size_adopt] at enough
  have result := cleared_clear (represents.free.adopt p []) stands nodup enough
  rwa [roots] at result

end Represents

/-- The trees below `p` in `f` have been replaced by `g`, which are the plain trees `forest`. -/
structure Replaced (before after : Document) (p : Handle) (forest : Forest Content) (f g : Forest Located) :
    Prop where
  content : g.map Located.content = forest
  holds : after.Holds g
  nodup : g.handles.Nodup
  fresh : ∀ h ∈ g.handles, before.get? h = none
  parent : after.get? p = (before.get? p).map fun node => { node with children := g.rootHandles }
  same : ∀ h, h ≠ p → h ∉ (f.under p).handles → h ∉ g.handles → after.get? h = before.get? h
  spent : ∀ h ∈ (f.under p).handles, after.Spent h
  free : after.FreeExact
  top : after.top = before.top

/-- The nodes of grafted trees are the new ones and, of the old ones, those that were not below the node. -/
theorem mem_graft {f g : Forest Located} {p : Handle} (nodup : f.handles.Nodup) (member : p ∈ f.handles)
    (h : Handle) :
    h ∈ (f.graft p g).handles ↔ h ∈ g.handles ∨ h ∈ f.handles ∧ h ∉ (f.under p).handles := by
  obtain ⟨others, -, before, after⟩ := Forest.handles_graft g nodup member
  have once := before.nodup_iff.mp nodup
  rw [List.nodup_append] at once
  rw [after.mem_iff, before.mem_iff, List.mem_append, List.mem_append]
  refine or_congr_right ⟨fun other => ⟨.inr other, fun below => once.2.2 h below h other rfl⟩, ?_⟩
  exact fun ⟨among, above⟩ => among.resolve_left above

theorem nodup_graft {f g : Forest Located} {p : Handle} (nodup : f.handles.Nodup) (member : p ∈ f.handles)
    (new : g.handles.Nodup) (apart : ∀ h ∈ g.handles, h ∉ f.handles) : (f.graft p g).handles.Nodup := by
  obtain ⟨others, -, before, after⟩ := Forest.handles_graft g nodup member
  have once := before.nodup_iff.mp nodup
  rw [List.nodup_append] at once
  rw [after.nodup_iff, List.nodup_append]
  refine ⟨new, once.2.1, ?_⟩
  rintro h fresh _ other rfl
  exact apart h fresh (before.mem_iff.mpr (List.mem_append_right _ other))

/-- A document with other trees below one node is the grafted trees. -/
theorem Replaced.represents {before after : Document} {p : Handle} {forest : Forest Content} {f g : Forest Located}
    (replaced : Replaced before after p forest f g) (represents : before.Represents f) (member : p ∈ f.handles) :
    after.Represents (f.graft p g) := by
  have unrelated : ∀ h ∈ g.handles, h ∉ f.handles := fun h new => represents.holds.notMem (replaced.fresh h new)
  refine ⟨replaced.free, ?_, ?_, nodup_graft represents.nodup member replaced.nodup unrelated, fun h there => ?_⟩
  · rw [Forest.rootHandles_graft, represents.top, replaced.top]
  · refine represents.holds.graft represents.nodup replaced.holds replaced.parent fun h m other above => ?_
    exact replaced.same h other above fun new => unrelated h new m
  · rw [mem_graft represents.nodup member]
    by_cases new : h ∈ g.handles
    · exact .inl new
    · have above : h ∉ (f.under p).handles := by
        intro below
        rw [(replaced.spent h below).get?_eq_none] at there
        cases there
      by_cases here : h = p
      · exact .inr ⟨here ▸ member, above⟩
      · rw [replaced.same h here above new] at there
        exact .inr ⟨represents.complete h there, above⟩

/-- The handles given out by a replacement. -/
def issuedFor (d : Document) (p : Handle) (forest : Forest Content) : List Located :=
  match d.get? p with
  | none => []
  | some node => ((d.adopt p []).clear d.slots.size node.children).issuedBy forest

/-- What was below the node is removed, the new trees are stored, and the node is given their roots. -/
theorem Represents.replace_issued {d : Document} {f : Forest Located} (represents : d.Represents f) {p : Handle}
    {node : Node} (found : d.get? p = some node) (forest : Forest Content) :
    ∃ after g, d.replaceChildren? p forest = some after ∧ Replaced d after p forest f g ∧
      (d.issuedFor p forest).Perm g.preorder := by
  have member := represents.mem_of_get? found
  obtain ⟨-, -, -, apart⟩ := represents.holds.under represents.nodup member found
  obtain ⟨-, cleared⟩ := represents.clears found
  obtain ⟨g, planted, issued⟩ := planted_issued cleared.free forest
  generalize emptied : (d.adopt p []).clear d.slots.size node.children = lone at cleared planted issued
  generalize stored : lone.insert forest = grown at planted
  have result : d.replaceChildren? p forest = some (grown.1.adopt p grown.2) := by
    simp only [replaceChildren?, found, Option.map_some, emptied, stored]
  have given : (d.issuedFor p forest).Perm g.preorder := by
    simp only [issuedFor, found, emptied]
    exact issued
  have bare : lone.get? p = some { node with children := [] } := by
    rw [cleared.same p apart, get?_adopt, if_pos rfl, found, Option.map_some]
  have old : p ∉ g.handles := planted.notMem bare
  have gone : ∀ h ∈ (f.under p).handles, grown.1.Spent h := fun h below => planted.spent h (cleared.spent h below)
  refine ⟨_, g, result, ⟨planted.content, ?_, planted.nodup, fun h new => ?_, ?_, fun h other above unused => ?_,
    fun h below => (gone h below).adopt _ _, planted.free.adopt _ _, ?_⟩, given⟩
  · refine planted.holds.congr fun h new => ?_
    rw [get?_adopt, if_neg]
    rintro rfl
    exact old new
  · have other : h ≠ p := fun same => old (same ▸ new)
    have above : h ∉ (f.under p).handles := fun below => planted.holds.notMem (gone h below).get?_eq_none new
    have none := planted.fresh h new
    rwa [cleared.same h above, get?_adopt, if_neg other] at none
  · rw [get?_adopt, if_pos rfl, planted.same p old, bare, found, Option.map_some, Option.map_some, planted.roots]
  · rw [get?_adopt, if_neg other, planted.same h unused, cleared.same h above, get?_adopt, if_neg other]
  · rw [adopt_top, planted.top, cleared.top, adopt_top]

theorem Represents.replace {d : Document} {f : Forest Located} (represents : d.Represents f) {p : Handle}
    {node : Node} (found : d.get? p = some node) (forest : Forest Content) :
    ∃ after g, d.replaceChildren? p forest = some after ∧ Replaced d after p forest f g := by
  obtain ⟨after, g, result, replaced, -⟩ := represents.replace_issued found forest
  exact ⟨after, g, result, replaced⟩

/-- The documents that come about: one is made from trees, and replacements are asked for through any handle. A handle
that finds nothing changes nothing. -/
inductive Reachable : Document → Prop
  | ofForest (forest : Forest Content) : Reachable (ofForest forest)
  | replace {d : Document} (p : Handle) (forest : Forest Content) :
      Reachable d → Reachable ((d.replaceChildren? p forest).getD d)

theorem Reachable.represents {d : Document} (reachable : d.Reachable) : d.Represents d.located := by
  suffices some : ∃ f, d.Represents f by
    obtain ⟨f, represents⟩ := some
    rwa [represents.located_eq]
  induction reachable with
  | ofForest forest =>
    obtain ⟨g, -, represents⟩ := represents_ofForest forest
    exact ⟨g, represents⟩
  | @replace d p forest _ ih =>
    obtain ⟨f, represents⟩ := ih
    cases found : d.get? p with
    | none => exact ⟨f, by simpa only [replaceChildren?, found, Option.map_none, Option.getD_none] using represents⟩
    | some node =>
      obtain ⟨after, g, result, replaced⟩ := represents.replace found forest
      have next := replaced.represents represents (represents.mem_of_get? found)
      exact ⟨f.graft p g, by simpa only [result, Option.getD_some] using next⟩

end PocketReader.Document
