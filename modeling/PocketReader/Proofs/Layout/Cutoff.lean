import PocketReader.Proofs.Layout.Marks

/-! A pass with a cutoff beside the same pass without one. Until the first node is passed over the two are the same,
and from then on the pass with the cutoff stands still while the other goes on. Where things are on the page depends
on nothing else: neither on the part that is looked at nor on the selection. -/
namespace PocketReader

namespace Layout

/-- The same window with nothing passed over. -/
def Window.whole (w : Window) : Window := { w with cutoff? := none }

variable {w : Window}

@[simp] theorem not_passesOver_whole (position : Nat) : ¬ w.whole.passesOver position := by
  intro passed
  simp [Window.passesOver, Window.whole] at passed

theorem passesOver_windowOf_iff (settings : PageSettings) (scroll : Scroll) (entries : List Focus.Entry)
    (position : Nat) :
    (windowOf settings scroll entries).passesOver position ↔ scroll.measured ∧ scroll.bottom < position := by
  cases measured : scroll.measured <;> simp [Window.passesOver, windowOf, measured]

@[simp] theorem screenY_whole (w : Window) : w.whole.screenY = w.screenY := rfl

/-- A leaf looks at its window only for where a row is on the panel. -/
theorem leaf_congr {w w' : Window} (rows : w.screenY = w'.screenY) (kind : Kind) (selected : Bool)
    (lines : List String) (position : Nat) :
    leaf w kind selected lines position = leaf w' kind selected lines position := by
  have same : ∀ left style advance start, column w left style advance start lines =
      column w' left style advance start lines := by
    intro left style advance start
    induction lines generalizing start with
    | nil => rfl
    | cons line rest ih => rw [column, column, ih, rows]
  cases kind <;> simp only [leaf, same, box, rows]

@[simp] theorem leaf_whole (w : Window) (kind : Kind) (selected : Bool) (lines : List String) (position : Nat) :
    leaf w.whole kind selected lines position = leaf w kind selected lines position :=
  leaf_congr (screenY_whole w) kind selected lines position

/-- A pass that ends ahead of its cutoff passes nothing over. -/
theorem steps_whole_of_ahead (f : Forest Located) (c : Cursor) (ahead : ¬ w.passesOver (steps w f c).2.position) :
    steps w.whole f c = steps w f c := by
  induction f generalizing c with
  | nil => rfl
  | node n kids rest ihk ihr =>
    have here : ¬ w.passesOver c.position := by
      intro passed
      exact ahead (passesOver_of_le (position_le_steps _ c) passed)
    by_cases container : n.content.kind.isContainer
    · rw [steps_container here container] at ahead ⊢
      rw [steps_container (not_passesOver_whole _) container]
      have inside := ihk { c with index := c.index + places n.content.selectable } fun passed =>
        ahead (passesOver_of_le (position_le_steps rest _) passed)
      have beside := ihr _ ahead
      simp only [inside, beside]
    · rw [steps_leaf here container] at ahead ⊢
      rw [steps_leaf (not_passesOver_whole _) container, leaf_whole]
      have beside := ihr _ ahead
      simp only [Window.whole] at beside ⊢
      simp only [beside]

/-- A cutoff brings the end of a pass only closer. -/
theorem position_steps_le_whole (f : Forest Located) (c : Cursor) :
    (steps w f c).2.position ≤ (steps w.whole f c).2.position := by
  induction f generalizing c with
  | nil => exact Nat.le_refl _
  | node n kids rest ihk ihr =>
    by_cases here : w.passesOver c.position
    · rw [steps_of_passesOver here]
      exact position_le_steps _ c
    · by_cases container : n.content.kind.isContainer
      · rw [steps_container here container, steps_container (not_passesOver_whole _) container]
        have inside := ihk { c with index := c.index + places n.content.selectable }
        by_cases ahead :
          w.passesOver (steps w kids { c with index := c.index + places n.content.selectable }).2.position
        · simp only [steps_of_passesOver ahead]
          exact Nat.le_trans inside (position_le_steps rest _)
        · rw [steps_whole_of_ahead kids _ ahead]
          exact ihr _
      · rw [steps_leaf here container, steps_leaf (not_passesOver_whole _) container, leaf_whole]
        exact ihr _

theorem extent_leaf (w w' : Window) (kind : Kind) (selected selected' : Bool) (lines : List String) (position : Nat) :
    (leaf w kind selected lines position).extent = (leaf w' kind selected' lines position).extent := by
  cases kind <;> rfl

/-- Passes with the same cutoff note the same extents and end at the same place. -/
theorem geometry_steps {w w' : Window} (same : w.cutoff? = w'.cutoff?) (f : Forest Located) (c : Cursor) :
    marks (steps w f c).1 = marks (steps w' f c).1 ∧ (steps w f c).2 = (steps w' f c).2 := by
  have passes : ∀ position, w.passesOver position = w'.passesOver position := by
    intro position
    rw [Window.passesOver, Window.passesOver, same]
  induction f generalizing c with
  | nil => exact ⟨rfl, rfl⟩
  | node n kids rest ihk ihr =>
    by_cases here : w.passesOver c.position
    · rw [steps_of_passesOver here, steps_of_passesOver (passes _ ▸ here)]
      exact ⟨rfl, rfl⟩
    · have here' : ¬ w'.passesOver c.position := passes _ ▸ here
      by_cases container : n.content.kind.isContainer
      · rw [steps_container here container, steps_container here' container]
        obtain ⟨inside, last⟩ := ihk { c with index := c.index + places n.content.selectable }
        obtain ⟨beside, final⟩ := ihr (steps w' kids { c with index := c.index + places n.content.selectable }).2
        simp only [marks_append, last, inside, beside, final, and_self]
      · rw [steps_leaf here container, steps_leaf here' container]
        simp only [extent_leaf w w' _ (w.selected? == some n.handle) (w'.selected? == some n.handle), marks_append,
          marks_draw]
        obtain ⟨beside, final⟩ := ihr ⟨_, _⟩
        exact ⟨congrArg _ beside, final⟩

end Layout

/-- The page laid out with nothing passed over. -/
def Document.layout (d : Document) : List Layout.Step × Layout.Cursor :=
  Layout.steps { statusBar := 0, offset := 0 } d.located {}

def Document.height (d : Document) : Nat := d.layout.2.position

theorem Layout.steps_whole_geometry (w : Window) (d : Document) :
    marks (steps w.whole d.located {}).1 = marks d.layout.1 ∧ (steps w.whole d.located {}).2 = d.layout.2 := by
  have same : w.whole.cutoff? = ({ statusBar := 0, offset := 0 } : Window).cutoff? := rfl
  exact geometry_steps same d.located {}

end PocketReader
