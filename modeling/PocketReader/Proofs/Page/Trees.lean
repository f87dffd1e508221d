import PocketReader.Page.Lookup
import PocketReader.Proofs.Page.Slots

/-! Trees that stand in a document: each node is found under its handle, and its children are the roots below it.
Trees that are stored come to stand there under new handles, and nothing that stood there before is touched. -/
namespace PocketReader

namespace Forest

def rootHandles (f : Forest Located) : List Handle := f.roots.map Located.handle

/-- The handles of all nodes, in reading order. -/
def handles (f : Forest Located) : List Handle := f.preorder.map Located.handle

@[simp] theorem rootHandles_nil : rootHandles .nil = [] := rfl

@[simp] theorem rootHandles_node (n : Located) (kids rest : Forest Located) :
    rootHandles (.node n kids rest) = n.handle :: rest.rootHandles := rfl

@[simp] theorem rootHandles_append (f g : Forest Located) :
    (f ++ g).rootHandles = f.rootHandles ++ g.rootHandles := by
  induction f with
  | nil => rfl
  | node n kids rest _ ih => simp only [node_append, rootHandles_node, ih, List.cons_append]

@[simp] theorem handles_nil : handles .nil = [] := rfl

@[simp] theorem handles_node (n : Located) (kids rest : Forest Located) :
    handles (.node n kids rest) = n.handle :: (kids.handles ++ rest.handles) := by
  simp only [handles, preorder, List.map_cons, List.map_append]

@[simp] theorem handles_append (f g : Forest Located) : (f ++ g).handles = f.handles ++ g.handles := by
  simp only [handles, preorder_append, List.map_append]

theorem length_handles (f : Forest Located) : f.handles.length = f.size := by
  rw [handles, List.length_map, length_preorder]

theorem rootHandles_subset (f : Forest Located) : f.rootHandles ⊆ f.handles := by
  induction f with
  | nil => exact fun _ found => found
  | node n kids rest _ ih =>
    intro h found
    rw [rootHandles_node, List.mem_cons] at found
    rw [handles_node, List.mem_cons, List.mem_append]
    exact found.imp_right fun later => .inr (ih later)

end Forest

namespace Document

/-- Every node of the trees is found under its handle, with the roots below it as its children. -/
def Holds (d : Document) : Forest Located → Prop
  | .nil => True
  | .node n kids rest => d.get? n.handle = some ⟨n.content, kids.rootHandles⟩ ∧ d.Holds kids ∧ d.Holds rest

theorem Holds.append {d : Document} {f g : Forest Located} (first : d.Holds f) (second : d.Holds g) :
    d.Holds (f ++ g) := by
  induction f with
  | nil => exact second
  | node n kids rest _ ih => exact ⟨first.1, first.2.1, ih first.2.2⟩

theorem Holds.congr {d d' : Document} {f : Forest Located} (holds : d.Holds f)
    (same : ∀ h ∈ f.handles, d'.get? h = d.get? h) : d'.Holds f := by
  induction f with
  | nil => trivial
  | node n kids rest ihk ihr =>
    simp only [Forest.handles_node, List.mem_cons, List.mem_append] at same
    refine ⟨?_, ihk holds.2.1 fun h m => same h (.inr (.inl m)), ihr holds.2.2 fun h m => same h (.inr (.inr m))⟩
    rw [same n.handle (.inl rfl)]
    exact holds.1

/-- Each node of the trees is found, and its children are among the handles of the trees. -/
theorem Holds.get? {d : Document} {f : Forest Located} (holds : d.Holds f) {n : Located} (member : n ∈ f.preorder) :
    ∃ children, d.get? n.handle = some ⟨n.content, children⟩ ∧ children ⊆ f.handles := by
  induction f with
  | nil => cases member
  | node m kids rest ihk ihr =>
    rw [Forest.preorder, List.mem_cons, List.mem_append] at member
    rw [Forest.handles_node]
    rcases member with rfl | inside | right
    · exact ⟨_, holds.1, fun h m =>
        List.mem_cons_of_mem _ (List.mem_append_left _ (kids.rootHandles_subset m))⟩
    · obtain ⟨children, found, below⟩ := ihk holds.2.1 inside
      exact ⟨children, found, fun h m => List.mem_cons_of_mem _ (List.mem_append_left _ (below m))⟩
    · obtain ⟨children, found, below⟩ := ihr holds.2.2 right
      exact ⟨children, found, fun h m => List.mem_cons_of_mem _ (List.mem_append_right _ (below m))⟩

theorem Holds.exists_get? {d : Document} {f : Forest Located} (holds : d.Holds f) {h : Handle}
    (member : h ∈ f.handles) : ∃ node, d.get? h = some node := by
  obtain ⟨n, inside, rfl⟩ := List.mem_map.mp member
  obtain ⟨children, found, -⟩ := holds.get? inside
  exact ⟨_, found⟩

/-- The lines shown for a node that stands in a document. -/
theorem Holds.textLines {d : Document} {n : Located} {kids rest : Forest Located}
    (holds : d.Holds (.node n kids rest)) :
    d.textLines n.handle = n.content.shownLines (kids.head?.map Located.content) := by
  obtain ⟨here, inside, -⟩ := holds
  rw [Document.textLines, here]
  cases kids with
  | nil => rfl
  | node m _ _ =>
    have below : d.get? m.handle = some ⟨m.content, _⟩ := inside.1
    simp only [Forest.rootHandles_node, List.head?_cons, Option.bind_some, below]
    rfl

/-- A handle that finds nothing is not among the trees. -/
theorem Holds.notMem {d : Document} {f : Forest Located} (holds : d.Holds f) {h : Handle} (lost : d.get? h = none) :
    h ∉ f.handles := by
  intro member
  obtain ⟨node, found⟩ := holds.exists_get? member
  rw [lost] at found
  cases found

/-- The trees `g` with the plain trees `forest` have been stored in `before` under the handles `roots`. -/
structure Planted (before after : Document) (forest : Forest Content) (roots : List Handle) (g : Forest Located) :
    Prop where
  content : g.map Located.content = forest
  roots : g.rootHandles = roots
  holds : after.Holds g
  nodup : g.handles.Nodup
  fresh : ∀ h ∈ g.handles, before.get? h = none
  same : ∀ h, h ∉ g.handles → after.get? h = before.get? h
  free : after.FreeExact
  top : after.top = before.top
  spent : ∀ h, before.Spent h → after.Spent h

/-- What was found before is not found under a new handle. -/
theorem Planted.notMem {before after : Document} {forest : Forest Content} {roots : List Handle} {g : Forest Located}
    (planted : Planted before after forest roots g) {h : Handle} {node : Node} (found : before.get? h = some node) :
    h ∉ g.handles := by
  intro new
  rw [planted.fresh h new] at found
  cases found

theorem Planted.nil {d : Document} (free : d.FreeExact) : Planted d d .nil [] .nil :=
  ⟨rfl, rfl, trivial, List.nodup_nil, fun _ member => (List.not_mem_nil member).elim, fun _ _ => rfl, free, rfl,
    fun _ spent => spent⟩

/-- A root that is stored after the trees below it. -/
theorem Planted.store {before after last : Document} {forest : Forest Content} {roots : List Handle}
    {g : Forest Located} {content : Content} {h : Handle} (planted : Planted before after forest roots g)
    (stored : after.store ⟨content, roots⟩ = (last, h)) :
    Planted before last (.single content forest) [h] (.single ⟨h, content⟩ g) := by
  have found := get?_store planted.free ⟨content, roots⟩
  have unused := get?_store_snd planted.free ⟨content, roots⟩
  have free := planted.free.store ⟨content, roots⟩
  have top := store_top after ⟨content, roots⟩
  have spent := fun k (spent : after.Spent k) => spent.store planted.free ⟨content, roots⟩
  rw [stored] at found unused free top spent
  have outside : h ∉ g.handles := planted.holds.notMem unused
  have all : (Forest.single ⟨h, content⟩ g).handles = h :: g.handles := by
    simp only [Forest.single, Forest.handles_node, Forest.handles_nil, List.append_nil]
  refine ⟨?_, rfl, ⟨?_, ?_, trivial⟩, ?_, ?_, ?_, free, top.trans planted.top, fun k was => ?_⟩
  · simp only [Forest.single, Forest.map, planted.content]
  · rw [found, if_pos rfl, planted.roots]
  · refine planted.holds.congr fun k inside => ?_
    rw [found, if_neg]
    rintro rfl
    exact outside inside
  · rw [all]
    exact List.nodup_cons.mpr ⟨outside, planted.nodup⟩
  · intro k member
    rw [all, List.mem_cons] at member
    rcases member with rfl | inside
    · rw [← planted.same k outside, unused]
    · exact planted.fresh k inside
  · intro k member
    rw [all, List.mem_cons, not_or] at member
    rw [found, if_neg member.1, planted.same k member.2]
  · exact spent k (planted.spent k was)

/-- Trees that are stored to the right of others. -/
theorem Planted.append {first second third : Document} {left right : Forest Content} {lefts rights : List Handle}
    {f g : Forest Located} (before : Planted first second left lefts f)
    (after : Planted second third right rights g) :
    Planted first third (left ++ right) (lefts ++ rights) (f ++ g) := by
  have apart : ∀ h ∈ g.handles, h ∉ f.handles := fun h inside => before.holds.notMem (after.fresh h inside)
  refine ⟨?_, ?_, ?_, ?_, ?_, ?_, after.free, after.top.trans before.top, fun h spent =>
    after.spent h (before.spent h spent)⟩
  · simp only [Forest.map_append, before.content, after.content]
  · simp only [Forest.rootHandles_append, before.roots, after.roots]
  · exact (before.holds.congr fun h inside => after.same h fun also => apart h also inside).append after.holds
  · rw [Forest.handles_append, List.nodup_append]
    refine ⟨before.nodup, after.nodup, ?_⟩
    rintro h inside _ also rfl
    exact apart h also inside
  · intro h member
    rw [Forest.handles_append, List.mem_append] at member
    rcases member with inside | inside
    · exact before.fresh h inside
    · rw [← before.same h (apart h inside), after.fresh h inside]
  · intro h member
    rw [Forest.handles_append, List.mem_append, not_or] at member
    rw [after.same h member.2, before.same h member.1]

/-- The handles given out while trees are stored, each with what is stored under it, in the order of storing. -/
def issuedBy (d : Document) : Forest Content → List Located
  | .nil => []
  | .node content kids rest =>
    let (below, children) := d.insert kids
    let (grown, h) := below.store ⟨content, children⟩
    d.issuedBy kids ++ ⟨h, content⟩ :: grown.issuedBy rest

theorem planted_issued {d : Document} (free : d.FreeExact) (forest : Forest Content) :
    ∃ g, Planted d (d.insert forest).1 forest (d.insert forest).2 g ∧ (d.issuedBy forest).Perm g.preorder := by
  induction forest generalizing d with
  | nil => exact ⟨.nil, .nil free, .nil⟩
  | node content kids rest ihk ihr =>
    obtain ⟨below, inner, lower⟩ := ihk free
    have root : Planted d _ (.single content kids) _ _ := inner.store rfl
    obtain ⟨right, outer, later⟩ := ihr root.free
    refine ⟨_, root.append outer, List.perm_middle.trans ?_⟩
    simp only [Forest.single, Forest.node_append, Forest.nil_append, Forest.preorder]
    exact (lower.append later).cons _

end Document
end PocketReader
