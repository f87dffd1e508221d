import PocketReader.Display.Panel
import PocketReader.Layout.Paint
import PocketReader.Proofs.Focus

/-! The extents a pass notes. A pass counts the selectable nodes it comes to, and at each mark its count is the place
the index has for the node. This is so also when it passes nodes over: once it passes one over it has gone beyond the
cutoff, and it never goes back up. So no extent is noted for another node, whatever part of the page is drawn. -/
namespace PocketReader

/-- The nodes that are found by going down through containers alone. -/
inductive Document.Exposed (d : Document) : Handle → Prop
  | top {h : Handle} : h ∈ d.top → Exposed d h
  | child {h k : Handle} {node : Node} : Exposed d h → d.get? h = some node → node.content.kind.isContainer →
      k ∈ node.children → Exposed d k

/-- The nodes of trees above which there are only containers. -/
def Forest.exposed : Forest Located → List Located
  | .nil => []
  | .node n kids rest => n :: ((if n.content.kind.isContainer then kids.exposed else []) ++ rest.exposed)

theorem Forest.exposed_subset (f : Forest Located) : f.exposed ⊆ f.preorder := by
  induction f with
  | nil => exact fun _ member => member
  | node n kids rest ihk ihr =>
    intro m member
    rw [exposed, List.mem_cons, List.mem_append] at member
    rw [preorder, List.mem_cons, List.mem_append]
    rcases member with root | inside | right
    · exact .inl root
    · split at inside
      · exact .inr (.inl (ihk inside))
      · cases inside
    · exact .inr (.inr (ihr right))

theorem Forest.rootHandles_subset_exposed (f : Forest Located) : f.rootHandles ⊆ f.exposed.map Located.handle := by
  induction f with
  | nil => exact fun _ member => member
  | node n kids rest _ ih =>
    intro h member
    rw [rootHandles_node, List.mem_cons] at member
    rw [exposed, List.map_cons, List.mem_cons, List.map_append, List.mem_append]
    exact member.imp_right fun later => .inr (ih later)

/-- Where no handle occurs twice, a handle of a selectable node that is exposed is both. -/
theorem Forest.mem_exposed_selectable_iff {f : Forest Located} (nodup : f.handles.Nodup) {h : Handle} :
    h ∈ (f.exposed.filter (·.content.selectable)).map Located.handle ↔
      h ∈ f.focusable ∧ h ∈ f.exposed.map Located.handle := by
  constructor
  · intro member
    obtain ⟨n, inside, rfl⟩ := List.mem_map.mp member
    rw [List.mem_filter] at inside
    have listed : n ∈ f.preorder.filter (·.content.selectable) :=
      List.mem_filter.mpr ⟨exposed_subset f inside.1, inside.2⟩
    exact ⟨List.mem_map_of_mem listed, List.mem_map_of_mem inside.1⟩
  · rintro ⟨listed, exposed⟩
    obtain ⟨n, selectable, rfl⟩ := List.mem_map.mp listed
    obtain ⟨other, shown, same⟩ := List.mem_map.mp exposed
    rw [List.mem_filter] at selectable
    have one : other = n := List.inj_on_of_nodup_map nodup (exposed_subset f shown) selectable.1 same
    subst one
    exact List.mem_map_of_mem (List.mem_filter.mpr ⟨shown, selectable.2⟩)

namespace Document

theorem Holds.exposed {d : Document} {f : Forest Located} (holds : d.Holds f)
    (roots : ∀ h ∈ f.rootHandles, d.Exposed h) : ∀ n ∈ f.exposed, d.Exposed n.handle := by
  induction f with
  | nil => exact fun _ member => (List.not_mem_nil member).elim
  | node n kids rest ihk ihr =>
    obtain ⟨here, inside, right⟩ := holds
    rw [Forest.rootHandles_node, List.forall_mem_cons] at roots
    intro m member
    rw [Forest.exposed, List.mem_cons, List.mem_append] at member
    rcases member with rfl | below | beside
    · exact roots.1
    · split at below
      · exact ihk inside (fun k child => .child roots.1 here ‹_› child) m below
      · cases below
    · exact ihr right roots.2 m beside

/-- The children of an exposed container are exposed. -/
theorem Holds.children_exposed {d : Document} {f : Forest Located} (holds : d.Holds f) {h k : Handle} {node : Node}
    (member : h ∈ f.exposed.map Located.handle) (found : d.get? h = some node)
    (container : node.content.kind.isContainer) (child : k ∈ node.children) : k ∈ f.exposed.map Located.handle := by
  induction f with
  | nil => cases member
  | node n kids rest ihk ihr =>
    obtain ⟨here, inside, right⟩ := holds
    rw [Forest.exposed, List.map_cons, List.mem_cons, List.map_append, List.mem_append] at member ⊢
    rcases member with rfl | below | beside
    · rw [here, Option.some.injEq] at found
      subst found
      rw [if_pos container]
      exact .inr (.inl (Forest.rootHandles_subset_exposed kids child))
    · by_cases open_ : n.content.kind.isContainer
      · rw [if_pos open_] at below ⊢
        exact .inr (.inl (ihk inside below))
      · rw [if_neg open_] at below
        cases below
    · exact .inr (.inr (ihr right beside))

theorem Represents.exposed_iff {d : Document} {f : Forest Located} (represents : d.Represents f) (h : Handle) :
    d.Exposed h ↔ h ∈ f.exposed.map Located.handle := by
  constructor
  · intro exposed
    induction exposed with
    | top root =>
      rw [← represents.top] at root
      exact Forest.rootHandles_subset_exposed f root
    | child _ found container child ih => exact represents.holds.children_exposed ih found container child
  · intro member
    obtain ⟨n, inside, rfl⟩ := List.mem_map.mp member
    refine represents.holds.exposed (fun k root => .top ?_) n inside
    rwa [← represents.top]

end Document

namespace Layout

/-- One extent that is noted. -/
structure Mark where
  place : Nat
  node : Handle
  extent : Extent
  deriving DecidableEq

def Step.mark? : Step → Option Mark
  | .draw _ => none
  | .mark place node extent => some ⟨place, node, extent⟩

def marks (todo : List Step) : List Mark := todo.filterMap Step.mark?

@[simp] theorem marks_append (a b : List Step) : marks (a ++ b) = marks a ++ marks b := List.filterMap_append

@[simp] theorem marks_draw (ops : List DrawOp) : marks (ops.map .draw) = [] := by
  rw [marks, List.filterMap_map]
  exact List.filterMap_eq_nil_iff.mpr fun _ _ => rfl

/-- The marks are for nodes that a list holds, the first of them at place `start`, and each place is marked once. -/
structure Aligned (ms : List Mark) (start : Nat) (nodes : List Handle) : Prop where
  named : ∀ m ∈ ms, ∃ k, m.place = start + k ∧ nodes[k]? = some m.node
  once : (ms.map Mark.place).Nodup

namespace Aligned

variable {a b : List Mark} {start : Nat} {xs ys : List Handle}

theorem nil : Aligned [] start xs := ⟨fun _ member => (List.not_mem_nil member).elim, List.nodup_nil⟩

theorem bound (aligned : Aligned a start xs) {m : Mark} (member : m ∈ a) :
    start ≤ m.place ∧ m.place < start + xs.length := by
  obtain ⟨k, place, there⟩ := aligned.named m member
  have inside : k < xs.length := (List.getElem?_eq_some_iff.mp there).1
  omega

theorem append (first : Aligned a start xs) (second : Aligned b (start + xs.length) ys) :
    Aligned (a ++ b) start (xs ++ ys) := by
  constructor
  · intro m member
    rcases List.mem_append.mp member with left | right
    · obtain ⟨k, place, there⟩ := first.named m left
      refine ⟨k, place, ?_⟩
      rw [List.getElem?_append_left (List.getElem?_eq_some_iff.mp there).1, there]
    · obtain ⟨k, place, there⟩ := second.named m right
      refine ⟨xs.length + k, by omega, ?_⟩
      rw [List.getElem?_append_right (Nat.le_add_right _ _), Nat.add_sub_cancel_left, there]
  · rw [List.map_append, List.nodup_append]
    refine ⟨first.once, second.once, ?_⟩
    intro i left j right same
    obtain ⟨m, inFirst, rfl⟩ := List.mem_map.mp left
    obtain ⟨k, inSecond, rfl⟩ := List.mem_map.mp right
    have := first.bound inFirst
    have := second.bound inSecond
    omega

theorem perm (aligned : Aligned a start xs) (same : a.Perm b) : Aligned b start xs :=
  ⟨fun m member => aligned.named m (same.mem_iff.mpr member), (same.map Mark.place).nodup_iff.mp aligned.once⟩

/-- The mark of one node, if it is selectable, and the marks of what is below it. -/
theorem markIf {selectable : Bool} {h : Handle} {extent : Extent}
    (below : Aligned a (start + places selectable) xs) :
    Aligned (a ++ marks (markIf selectable start h extent)) start ((if selectable then [h] else []) ++ xs) := by
  cases selectable with
  | false => simpa [Layout.markIf, marks, places] using below
  | true =>
    have own : Aligned [⟨start, h, extent⟩] start [h] := by
      refine ⟨fun m member => ⟨0, ?_⟩, List.nodup_singleton _⟩
      rw [List.mem_singleton.mp member]
      exact ⟨rfl, rfl⟩
    exact (own.append below).perm List.perm_append_comm

end Aligned

variable (w : Window)

theorem passesOver_of_le {w : Window} {p q : Nat} (le : p ≤ q) (passed : w.passesOver p) : w.passesOver q := by
  unfold Window.passesOver at *
  cases cut : w.cutoff? with
  | none => simp [cut] at passed
  | some line =>
    simp only [cut, Option.any_some, decide_eq_true_eq] at passed ⊢
    omega

theorem le_bottom_leaf (kind : Kind) (selected : Bool) (lines : List String) (position : Nat) :
    position ≤ (leaf w kind selected lines position).extent.bottom := by
  cases kind <;> simp only [leaf, gap] <;> omega

theorem length_focusable (f : Forest Located) : f.focusable.length = selectables f := by
  induction f with
  | nil => rfl
  | node n kids rest ihk ihr =>
    simp only [Forest.focusable_node, List.length_append, ihk, ihr, selectables, places]
    split <;> rfl

variable {w} {n : Located} {kids rest : Forest Located} {c : Cursor}

theorem steps_of_passesOver (passed : w.passesOver c.position) (f : Forest Located) : steps w f c = ([], c) := by
  induction f with
  | nil => rfl
  | node n kids rest _ ih => rw [steps, if_pos passed, ih]

theorem steps_container (ahead : ¬ w.passesOver c.position) (container : n.content.kind.isContainer) :
    steps w (.node n kids rest) c =
      let inside := steps w kids { c with index := c.index + places n.content.selectable }
      let beside := steps w rest inside.2
      (inside.1 ++ markIf n.content.selectable c.index n.handle ⟨c.position, inside.2.position⟩ ++ beside.1,
        beside.2) := by
  rw [steps, if_neg ahead, if_pos container]

theorem steps_leaf (ahead : ¬ w.passesOver c.position) (closed : ¬ n.content.kind.isContainer) :
    steps w (.node n kids rest) c =
      let l := leaf w n.content.kind (w.selected? == some n.handle)
        (n.content.shownLines (kids.head?.map Located.content)) c.position
      let beside := steps w rest ⟨l.extent.bottom, c.index + places n.content.selectable + selectables kids⟩
      (l.ops.map .draw ++ markIf n.content.selectable c.index n.handle l.extent ++ beside.1, beside.2) := by
  rw [steps, if_neg ahead, if_neg closed]

/-- A pass never goes back up. -/
theorem position_le_steps (f : Forest Located) (c : Cursor) : c.position ≤ (steps w f c).2.position := by
  induction f generalizing c with
  | nil => exact Nat.le_refl _
  | node n kids rest ihk ihr =>
    by_cases ahead : w.passesOver c.position
    · simp only [steps_of_passesOver ahead, Nat.le_refl]
    · by_cases container : n.content.kind.isContainer
      · rw [steps_container ahead container]
        exact Nat.le_trans (ihk { c with index := c.index + places n.content.selectable }) (ihr _)
      · rw [steps_leaf ahead container]
        exact Nat.le_trans (le_bottom_leaf w _ _ _ _) (ihr ⟨_, _⟩)

/-- A pass that is still ahead of the cutoff has counted all selectable nodes. -/
theorem index_steps (f : Forest Located) (c : Cursor) (ahead : ¬ w.passesOver (steps w f c).2.position) :
    (steps w f c).2.index = c.index + selectables f := by
  induction f generalizing c with
  | nil => rfl
  | node n kids rest ihk ihr =>
    have before : ¬ w.passesOver c.position := by
      intro passed
      exact ahead (passesOver_of_le (position_le_steps _ c) passed)
    by_cases container : n.content.kind.isContainer
    · rw [steps_container before container] at ahead ⊢
      have inside := ihk { c with index := c.index + places n.content.selectable } fun passed =>
        ahead (passesOver_of_le (position_le_steps rest _) passed)
      have beside := ihr _ ahead
      simp only [selectables] at inside beside ⊢
      omega
    · rw [steps_leaf before container] at ahead ⊢
      have beside := ihr _ ahead
      simp only [selectables] at beside ⊢
      omega

/-- The marks of what is to the right of a node, where the pass has either counted all before or gone too far. -/
theorem Aligned.beside {ms : List Mark} {start : Nat} {xs : List Handle} {below : Cursor}
    (first : Aligned ms start xs) (counted : ¬ w.passesOver below.position → below.index = start + xs.length)
    (second : Aligned (marks (steps w rest below).1) below.index rest.focusable) :
    Aligned (ms ++ marks (steps w rest below).1) start (xs ++ rest.focusable) := by
  by_cases passed : w.passesOver below.position
  · rw [steps_of_passesOver passed]
    exact first.append .nil
  · rw [counted passed] at second
    exact first.append second

theorem aligned_steps (f : Forest Located) (c : Cursor) : Aligned (marks (steps w f c).1) c.index f.focusable := by
  induction f generalizing c with
  | nil => exact .nil
  | node n kids rest ihk ihr =>
    by_cases ahead : w.passesOver c.position
    · rw [steps_of_passesOver ahead]
      exact .nil
    · rw [Forest.focusable_node]
      have counted : ((if n.content.selectable then [n.handle] else []) ++ kids.focusable).length =
          places n.content.selectable + selectables kids := by
        rw [List.length_append, length_focusable, places]
        split <;> rfl
      by_cases container : n.content.kind.isContainer
      · rw [steps_container ahead container]
        simp only [marks_append]
        refine (ihk { c with index := c.index + places n.content.selectable }).markIf.beside ?_ (ihr _)
        intro inside
        rw [index_steps _ _ inside, counted, Nat.add_assoc]
      · rw [steps_leaf ahead container]
        simp only [marks_append, marks_draw]
        have uncounted : Aligned [] (c.index + places n.content.selectable) kids.focusable := .nil
        refine uncounted.markIf.beside (fun _ => ?_) (ihr _)
        rw [counted, Nat.add_assoc]

/-- Where nothing is passed over, the marks are for the selectable nodes that are exposed. -/
theorem marks_perm_exposed (full : w.cutoff? = none) (f : Forest Located) (c : Cursor) :
    ((marks (steps w f c).1).map Mark.node).Perm
      ((f.exposed.filter (·.content.selectable)).map Located.handle) := by
  have ahead : ∀ position, ¬ w.passesOver position := by
    intro position passed
    simp [Window.passesOver, full] at passed
  have own : ∀ (selectable : Bool) place h extent,
      (marks (markIf selectable place h extent)).map Mark.node = if selectable then [h] else [] := by
    intro selectable place h extent
    cases selectable <;> rfl
  induction f generalizing c with
  | nil => exact .nil
  | node n kids rest ihk ihr =>
    have split : (((Forest.node n kids rest).exposed.filter (·.content.selectable)).map Located.handle) =
        (if n.content.selectable then [n.handle] else []) ++
          ((if n.content.kind.isContainer then kids.exposed else []).filter (·.content.selectable)).map
            Located.handle ++
          (rest.exposed.filter (·.content.selectable)).map Located.handle := by
      rw [Forest.exposed, List.filter_cons, List.filter_append]
      split <;> simp only [List.map_cons, List.map_append, List.cons_append, List.nil_append]
    rw [split]
    by_cases container : n.content.kind.isContainer
    · rw [steps_container (ahead _) container, if_pos container]
      simp only [marks_append, List.map_append, own]
      exact (List.perm_append_comm.trans ((ihk _).append_left _)).append (ihr _)
    · rw [steps_leaf (ahead _) container, if_neg container]
      simp only [marks_append, marks_draw, List.map_append, own, List.nil_append, List.filter_nil, List.map_nil,
        List.append_nil]
      exact (ihr _).append_left _

/-- Noting an extent. -/
def Mark.apply (entries : List Focus.Entry) (m : Mark) : List Focus.Entry :=
  entries.modify m.place fun entry => { entry with extent := m.extent }

theorem map_node_apply (entries : List Focus.Entry) (m : Mark) :
    (m.apply entries).map Focus.Entry.node = entries.map Focus.Entry.node := by
  refine List.ext_getElem? fun i => ?_
  rw [Mark.apply, List.getElem?_map, List.getElem?_map, List.getElem?_modify]
  cases entries[i]? with
  | none => rfl
  | some entry =>
    by_cases here : m.place = i <;> simp [here]

theorem map_node_foldl (ms : List Mark) (entries : List Focus.Entry) :
    (ms.foldl Mark.apply entries).map Focus.Entry.node = entries.map Focus.Entry.node := by
  induction ms generalizing entries with
  | nil => rfl
  | cons m ms ih => rw [List.foldl_cons, ih, map_node_apply]

section

variable {δ : Type} [Display δ]

/-- The extents a frame notes, up to the first request that is refused. -/
def noted : List Step → δ → List Mark
  | [], _ => []
  | .draw op :: rest, display =>
    match Display.draw op display with
    | (.ok _, display) => noted rest display
    | (.error _, _) => []
  | .mark place node extent :: rest, display => ⟨place, node, extent⟩ :: noted rest display

/-- A frame changes the index by what it notes, which are the first of the marks, and all of them if it is
complete. -/
theorem carryOut_eq_noted (todo : List Step) (entries : List Focus.Entry) (display : δ) :
    (carryOut todo entries display).2.1 = (noted todo display).foldl Mark.apply entries ∧
      noted todo display <+: marks todo ∧
      ((carryOut todo entries display).1 = .ok () → noted todo display = marks todo) := by
  induction todo generalizing entries display with
  | nil => exact ⟨rfl, List.prefix_refl _, fun _ => rfl⟩
  | cons step todo ih =>
    cases step with
    | draw op =>
      rcases answer : Display.draw op display with ⟨outcome, next⟩
      cases outcome with
      | ok =>
        simp only [carryOut, noted, answer]
        exact ih entries next
      | error e =>
        simp only [carryOut, noted, answer]
        exact ⟨rfl, List.nil_prefix, fun done => by cases done⟩
    | mark place node extent =>
      obtain ⟨changed, front, whole⟩ := ih (Mark.apply entries ⟨place, node, extent⟩) display
      exact ⟨changed, (List.prefix_cons_inj _).mpr front, fun done => congrArg _ (whole done)⟩

/-- The steps of the frame that is drawn for a document. -/
def frame (settings : PageSettings) (d : Document) (scroll : Scroll) (entries : List Focus.Entry) : List Step :=
  (steps (windowOf settings scroll.beginFrame entries) d.located {}).1

theorem paint_frame (settings : PageSettings) (d : Document) (scroll : Scroll) (entries : List Focus.Entry)
    (display : δ) :
    (paint settings d scroll entries display).outcome =
        (carryOut (frame settings d scroll entries) entries display).1 ∧
      (paint settings d scroll entries display).entries =
        (carryOut (frame settings d scroll entries) entries display).2.1 := by
  rcases result : carryOut (frame settings d scroll entries) entries display with ⟨outcome, changed, next⟩
  rw [frame] at result
  cases outcome <;> constructor <;> simp only [paint, result]

/-- A complete frame takes the height of the page along, and one that is broken off only the movement. -/
theorem scroll_paint_cases (settings : PageSettings) (d : Document) (scroll : Scroll) (entries : List Focus.Entry)
    (display : δ) :
    ((paint settings d scroll entries display).outcome = .ok () ∧
      (paint settings d scroll entries display).scroll =
        scroll.beginFrame.finishLayout
          (steps (windowOf settings scroll.beginFrame entries) d.located {}).2.position) ∨
    (∃ e, (paint settings d scroll entries display).outcome = .error e) ∧
      (paint settings d scroll entries display).scroll = scroll.beginFrame := by
  rcases result : carryOut (frame settings d scroll entries) entries display with ⟨answer, changed, next⟩
  rw [frame] at result
  cases answer with
  | ok => exact .inl (by simp only [paint, result, and_self])
  | error e => exact .inr ⟨⟨e, by simp only [paint, result]⟩, by simp only [paint, result]⟩

theorem scroll_paint {settings : PageSettings} {d : Document} {scroll : Scroll} {entries : List Focus.Entry}
    {display : δ} (complete : (paint settings d scroll entries display).outcome = .ok ()) :
    (paint settings d scroll entries display).scroll =
      scroll.beginFrame.finishLayout
        (steps (windowOf settings scroll.beginFrame entries) d.located {}).2.position := by
  rcases scroll_paint_cases settings d scroll entries display with ⟨-, moved⟩ | ⟨⟨e, broken⟩, -⟩
  · exact moved
  · cases complete.symm.trans broken

theorem scroll_paint_of_error {settings : PageSettings} {d : Document} {scroll : Scroll} {entries : List Focus.Entry}
    {display : δ} {e : DisplayError} (broken : (paint settings d scroll entries display).outcome = .error e) :
    (paint settings d scroll entries display).scroll = scroll.beginFrame := by
  rcases scroll_paint_cases settings d scroll entries display with ⟨complete, -⟩ | ⟨-, moved⟩
  · cases complete.symm.trans broken
  · exact moved

theorem entries_paint {settings : PageSettings} {d : Document} {scroll : Scroll} {entries : List Focus.Entry}
    {display : δ} (complete : (paint settings d scroll entries display).outcome = .ok ()) :
    (paint settings d scroll entries display).entries =
      (marks (frame settings d scroll entries)).foldl Mark.apply entries := by
  obtain ⟨outcome, left⟩ := paint_frame settings d scroll entries display
  obtain ⟨changed, -, whole⟩ := carryOut_eq_noted (frame settings d scroll entries) entries display
  rw [left, changed, whole (outcome.symm.trans complete)]

/-- The marks of a frame are for the nodes the index has at their places. -/
theorem named_frame {d : Document} {entries : List Focus.Entry}
    (rebuilt : entries.map Focus.Entry.node = d.located.focusable) (settings : PageSettings) (scroll : Scroll)
    {m : Mark} (member : m ∈ marks (frame settings d scroll entries)) :
    (entries.map Focus.Entry.node)[m.place]? = some m.node := by
  obtain ⟨k, place, there⟩ := (aligned_steps d.located {}).named m member
  rw [rebuilt, place, Nat.zero_add, there]

/-- The index has a node at one place only. -/
theorem place_frame {d : Document} (represents : d.Represents d.located) {entries : List Focus.Entry}
    (rebuilt : entries.map Focus.Entry.node = d.located.focusable) (settings : PageSettings) (scroll : Scroll)
    {m : Mark} (member : m ∈ marks (frame settings d scroll entries)) {place : Nat}
    (there : (entries.map Focus.Entry.node)[place]? = some m.node) : m.place = place := by
  have here := named_frame rebuilt settings scroll member
  have once : (entries.map Focus.Entry.node).Nodup := by
    rw [rebuilt]
    exact represents.nodup_focusable
  exact (List.getElem?_inj (List.getElem?_eq_some_iff.mp here).1 once).mp (here.trans there.symm)

theorem marked_frame_iff {d : Document} (represents : d.Represents d.located) {entries : List Focus.Entry}
    (rebuilt : entries.map Focus.Entry.node = d.located.focusable) (settings : PageSettings) {scroll : Scroll}
    (unmeasured : scroll.measured = false) (place : Nat) :
    place ∈ (marks (frame settings d scroll entries)).map Mark.place ↔
      ∃ entry, entries[place]? = some entry ∧ d.Exposed entry.node := by
  have full : (windowOf settings scroll.beginFrame entries).cutoff? = none := by
    simp [windowOf, Scroll.beginFrame, unmeasured]
  have nodes := marks_perm_exposed full d.located {}
  have shown : ∀ h, h ∈ (marks (frame settings d scroll entries)).map Mark.node ↔
      h ∈ d.located.focusable ∧ d.Exposed h := by
    intro h
    rw [represents.exposed_iff, ← Forest.mem_exposed_selectable_iff represents.nodup]
    exact nodes.mem_iff
  constructor
  · intro marked
    obtain ⟨m, member, rfl⟩ := List.mem_map.mp marked
    have there := named_frame rebuilt settings scroll member
    rw [List.getElem?_map, Option.map_eq_some_iff] at there
    obtain ⟨entry, found, same⟩ := there
    refine ⟨entry, found, ?_⟩
    rw [same]
    exact ((shown m.node).mp (List.mem_map_of_mem member)).2
  · rintro ⟨entry, found, exposed⟩
    have listed : entry.node ∈ d.located.focusable := by
      rw [← rebuilt]
      exact List.mem_map_of_mem (List.mem_of_getElem? found)
    have marked := (shown entry.node).mpr ⟨listed, exposed⟩
    obtain ⟨m, member, node⟩ := List.mem_map.mp marked
    refine List.mem_map.mpr ⟨m, member, place_frame represents rebuilt settings scroll member ?_⟩
    rw [List.getElem?_map, found, Option.map_some, node]

/-- In a pass over a document, with an index made from it, each extent goes into the entry of its own node, and no
entry is written twice. A complete pass that passes nothing over writes the entries of the exposed nodes and no
others. -/
theorem paint_marks_own_entries {d : Document} (reachable : d.Reachable) {entries : List Focus.Entry}
    (rebuilt : entries.map Focus.Entry.node = (Focus.index d).map Focus.Entry.node) (settings : PageSettings)
    (scroll : Scroll) (display : δ) :
    let made := noted (frame settings d scroll entries) display
    let painted := paint settings d scroll entries display
    painted.entries = made.foldl Mark.apply entries ∧
    (∀ before m after, made = before ++ m :: after →
      ∃ entry, (before.foldl Mark.apply entries)[m.place]? = some entry ∧ entry.node = m.node) ∧
    (made.map Mark.place).Nodup ∧
    (scroll.measured = false → painted.outcome = .ok () →
      ∀ place, place ∈ made.map Mark.place ↔ ∃ entry, entries[place]? = some entry ∧ d.Exposed entry.node) := by
  intro made painted
  have represents := reachable.represents
  rw [represents.map_node_index] at rebuilt
  obtain ⟨changed, front, whole⟩ := carryOut_eq_noted (frame settings d scroll entries) entries display
  obtain ⟨outcome, left⟩ := paint_frame settings d scroll entries display
  have once : ((marks (frame settings d scroll entries)).map Mark.place).Nodup := (aligned_steps d.located {}).once
  refine ⟨left.trans changed, ?_, once.sublist (front.sublist.map _), ?_⟩
  · intro before m after parts
    have member : m ∈ made := by
      rw [parts]
      exact List.mem_append_right _ List.mem_cons_self
    have there := named_frame rebuilt settings scroll (front.subset member)
    rw [← map_node_foldl before, List.getElem?_map, Option.map_eq_some_iff] at there
    exact there
  · intro unmeasured done place
    have all : made = marks (frame settings d scroll entries) := whole (outcome.symm.trans done)
    rw [all]
    exact marked_frame_iff represents rebuilt settings unmeasured place

end

/-- A button inside a link is counted and not marked, so the link after it is marked in its own place. -/
theorem paint_marks_own_entries_past_button :
    let node := fun kind => Forest.single { kind, selectable := true : Content }
    let d := Document.ofForest
      (.single { kind := .body } (node .container (node .link (node .button .nil)) ++ node .link .nil))
    let entries := Focus.index d
    let scroll : Scroll := { viewport := 150, step := 40 }
    let panel : Panel := { width := 320, height := 170 }
    let made := noted (frame {} d scroll entries) panel
    d.Reachable ∧ scroll.measured = false ∧ (paint {} d scroll entries panel).outcome = .ok () ∧
      made.map Mark.place = [1, 0, 3] ∧ (paint {} d scroll entries panel).entries = made.foldl Mark.apply entries ∧
      ∀ place, place ∈ made.map Mark.place ↔ ∃ entry, entries[place]? = some entry ∧ d.Exposed entry.node := by
  intro node d entries scroll panel made
  have reachable : d.Reachable := .ofForest _
  have done : (paint {} d scroll entries panel).outcome = .ok () := rfl
  have rebuilt : entries.map Focus.Entry.node = (Focus.index d).map Focus.Entry.node := rfl
  obtain ⟨changed, -, -, exposed⟩ := paint_marks_own_entries reachable rebuilt {} scroll panel
  exact ⟨reachable, rfl, done, by decide, changed, exposed rfl done⟩

end Layout
end PocketReader
