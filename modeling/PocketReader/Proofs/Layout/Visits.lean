import PocketReader.Proofs.Layout.Marks

/-! A pass as a list of visits. A node that is laid out is visited once. What is drawn for it is drawn in its visit,
and its extent is noted at the end of it, so that a container comes after everything inside it. -/
namespace PocketReader.Layout

/-- What a pass does for one node. -/
structure Visit where
  node : Located
  /-- The place of the node in the list of selectable nodes, if it is one. -/
  place : Nat
  ops : List DrawOp
  extent : Extent
  deriving DecidableEq

namespace Visit

def mark (v : Visit) : Mark := ⟨v.place, v.node.handle, v.extent⟩

def steps (v : Visit) : List Step :=
  v.ops.map .draw ++ markIf v.node.content.selectable v.place v.node.handle v.extent

end Visit

/-- What a pass makes of a node that is no container. -/
def leafAt (w : Window) (n : Located) (kids : Forest Located) (position : Nat) : Leaf :=
  leaf w n.content.kind (w.selected? == some n.handle)
    (n.content.shownLines (kids.head?.map Located.content)) position

/-- The visits of a pass, in the order in which they end. -/
def visits (w : Window) : Forest Located → Cursor → List Visit
  | .nil, _ => []
  | .node n kids rest, c =>
    if w.passesOver c.position then []
    else if n.content.kind.isContainer then
      let start : Cursor := { c with index := c.index + places n.content.selectable }
      let below := (steps w kids start).2
      visits w kids start ++ ⟨n, c.index, [], ⟨c.position, below.position⟩⟩ :: visits w rest below
    else
      let l := leafAt w n kids c.position
      ⟨n, c.index, l.ops, l.extent⟩ ::
        visits w rest ⟨l.extent.bottom, c.index + places n.content.selectable + selectables kids⟩

variable {w : Window} {n : Located} {kids rest : Forest Located} {c : Cursor}

theorem visits_of_passesOver (passed : w.passesOver c.position) (f : Forest Located) : visits w f c = [] := by
  cases f with
  | nil => rfl
  | node n kids rest => rw [visits, if_pos passed]

theorem visits_container (ahead : ¬ w.passesOver c.position) (container : n.content.kind.isContainer) :
    visits w (.node n kids rest) c =
      let start : Cursor := { c with index := c.index + places n.content.selectable }
      let below := (steps w kids start).2
      visits w kids start ++ ⟨n, c.index, [], ⟨c.position, below.position⟩⟩ :: visits w rest below := by
  rw [visits, if_neg ahead, if_pos container]

theorem visits_leaf (ahead : ¬ w.passesOver c.position) (closed : ¬ n.content.kind.isContainer) :
    visits w (.node n kids rest) c =
      let l := leafAt w n kids c.position
      ⟨n, c.index, l.ops, l.extent⟩ ::
        visits w rest ⟨l.extent.bottom, c.index + places n.content.selectable + selectables kids⟩ := by
  rw [visits, if_neg ahead, if_neg closed]

/-- The visits one after the other are the pass. -/
theorem flatMap_steps_visits (f : Forest Located) (c : Cursor) :
    (visits w f c).flatMap Visit.steps = (steps w f c).1 := by
  induction f generalizing c with
  | nil => rfl
  | node n kids rest ihk ihr =>
    by_cases here : w.passesOver c.position
    · rw [visits_of_passesOver here, steps_of_passesOver here]
      rfl
    · by_cases container : n.content.kind.isContainer
      · rw [visits_container here container, steps_container here container]
        simp only [List.flatMap_append, List.flatMap_cons, ihk, ihr, Visit.steps, List.map_nil, List.nil_append,
          List.append_assoc]
      · rw [visits_leaf here container, steps_leaf here container]
        simp only [List.flatMap_cons, ihr, Visit.steps, leafAt, List.append_assoc]

theorem mem_marks_markIf {selectable : Bool} {place : Nat} {node : Handle} {extent : Extent} {m : Mark} :
    m ∈ marks (markIf selectable place node extent) ↔ selectable = true ∧ m = ⟨place, node, extent⟩ := by
  cases selectable with
  | false => simp [markIf, marks]
  | true => simp [markIf, marks, Step.mark?]

theorem mem_marks_iff (f : Forest Located) (c : Cursor) (m : Mark) :
    m ∈ marks (steps w f c).1 ↔ ∃ v ∈ visits w f c, v.node.content.selectable ∧ m = v.mark := by
  rw [← flatMap_steps_visits, marks, List.filterMap_flatMap, List.mem_flatMap]
  refine exists_congr fun v => and_congr_right fun _ => ?_
  change m ∈ marks (v.ops.map .draw ++ _) ↔ _
  rw [marks_append, marks_draw, List.nil_append, mem_marks_markIf]
  rfl

/-- A visit is to a container, and nothing is drawn in it, or it makes a leaf of its node. -/
theorem visit_cases (f : Forest Located) (c : Cursor) {v : Visit} (member : v ∈ visits w f c) :
    (v.node.content.kind.isContainer ∧ v.ops = []) ∨
      ¬ v.node.content.kind.isContainer ∧ ∃ kids position,
        v.ops = (leafAt w v.node kids position).ops ∧ v.extent = (leafAt w v.node kids position).extent := by
  induction f generalizing c with
  | nil => cases member
  | node n kids rest ihk ihr =>
    by_cases here : w.passesOver c.position
    · rw [visits_of_passesOver here] at member
      cases member
    · by_cases container : n.content.kind.isContainer
      · rw [visits_container here container, List.mem_append, List.mem_cons] at member
        rcases member with inside | rfl | beside
        · exact ihk _ inside
        · exact .inl ⟨container, rfl⟩
        · exact ihr _ beside
      · rw [visits_leaf here container, List.mem_cons] at member
        rcases member with rfl | beside
        · exact .inr ⟨container, kids, c.position, rfl, rfl⟩
        · exact ihr _ beside

theorem node_visits (f : Forest Located) (c : Cursor) {v : Visit} (member : v ∈ visits w f c) :
    v.node ∈ f.exposed := by
  induction f generalizing c with
  | nil => cases member
  | node n kids rest ihk ihr =>
    rw [Forest.exposed, List.mem_cons, List.mem_append]
    by_cases here : w.passesOver c.position
    · rw [visits_of_passesOver here] at member
      cases member
    · by_cases container : n.content.kind.isContainer
      · rw [visits_container here container, List.mem_append, List.mem_cons] at member
        rw [if_pos container]
        rcases member with inside | rfl | beside
        · exact .inr (.inl (ihk _ inside))
        · exact .inl rfl
        · exact .inr (.inr (ihr _ beside))
      · rw [visits_leaf here container, List.mem_cons] at member
        rcases member with rfl | beside
        · exact .inl rfl
        · exact .inr (.inr (ihr _ beside))

theorem handle_visits (f : Forest Located) (c : Cursor) {v : Visit} (member : v ∈ visits w f c) :
    v.node.handle ∈ f.handles :=
  List.mem_map_of_mem (f.exposed_subset (node_visits f c member))

theorem bounds_leaf (kind : Kind) (selected : Bool) (lines : List String) (position : Nat) :
    position ≤ (leaf w kind selected lines position).extent.top ∧
      (leaf w kind selected lines position).extent.top ≤ (leaf w kind selected lines position).extent.bottom := by
  cases kind <;> simp only [leaf] <;> omega

/-- Extents lie where the pass went, from their top down. -/
theorem bounds_visits (f : Forest Located) (c : Cursor) {v : Visit} (member : v ∈ visits w f c) :
    c.position ≤ v.extent.top ∧ v.extent.top ≤ v.extent.bottom ∧ v.extent.bottom ≤ (steps w f c).2.position := by
  induction f generalizing c with
  | nil => cases member
  | node n kids rest ihk ihr =>
    by_cases here : w.passesOver c.position
    · rw [visits_of_passesOver here] at member
      cases member
    · by_cases container : n.content.kind.isContainer
      · rw [visits_container here container, List.mem_append, List.mem_cons] at member
        rw [steps_container here container]
        have inner := position_le_steps (w := w) kids { c with index := c.index + places n.content.selectable }
        have outer := position_le_steps (w := w) rest
          (steps w kids { c with index := c.index + places n.content.selectable }).2
        rcases member with inside | rfl | beside
        · obtain ⟨above, order, below⟩ := ihk _ inside
          exact ⟨above, order, Nat.le_trans below outer⟩
        · exact ⟨Nat.le_refl _, inner, outer⟩
        · obtain ⟨above, order, below⟩ := ihr _ beside
          exact ⟨Nat.le_trans inner above, order, below⟩
      · rw [visits_leaf here container, List.mem_cons] at member
        rw [steps_leaf here container]
        rcases member with rfl | beside
        · obtain ⟨above, order⟩ := bounds_leaf (w := w) n.content.kind (w.selected? == some n.handle)
            (n.content.shownLines (kids.head?.map Located.content)) c.position
          exact ⟨above, order, position_le_steps rest ⟨_, _⟩⟩
        · obtain ⟨above, order, below⟩ := ihr _ beside
          exact ⟨Nat.le_trans (le_bottom_leaf w _ _ _ _) above, order, below⟩

end PocketReader.Layout
