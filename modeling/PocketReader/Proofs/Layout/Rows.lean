import PocketReader.Proofs.Layout.Cutoff
import PocketReader.Proofs.Layout.Visits
import PocketReader.Proofs.Scroll

/-! Where a pass draws. Whatever is drawn for a node has its upper edge between the position at which the node is come
to and the one at which it is left. So a pass with a cutoff draws what the same pass without one draws first, and all
that it leaves out lies below the cutoff. -/
namespace PocketReader

/-- The upper edge of what is drawn; filling the screen has none. -/
def DrawOp.row? : DrawOp → Option Int32
  | .screen _ => none
  | .rectangle _ y _ _ _ => some y
  | .horizontal _ y _ _ => some y
  | .vertical _ y _ _ => some y
  | .text _ y _ _ => some y

namespace Layout

def Step.draw? : Step → Option DrawOp
  | .draw op => some op
  | .mark _ _ _ => none

def draws (todo : List Step) : List DrawOp := todo.filterMap Step.draw?

@[simp] theorem draws_nil : draws [] = [] := rfl

@[simp] theorem draws_append (a b : List Step) : draws (a ++ b) = draws a ++ draws b := List.filterMap_append

@[simp] theorem draws_draw (ops : List DrawOp) : draws (ops.map .draw) = ops := by
  rw [draws, List.filterMap_map]
  exact List.filterMap_some

@[simp] theorem draws_markIf (selectable : Bool) (place : Nat) (node : Handle) (extent : Extent) :
    draws (markIf selectable place node extent) = [] := by
  cases selectable <;> rfl

/-- What is drawn in a pass is what is drawn in its visits. -/
theorem flatMap_ops_visits (w : Window) (f : Forest Located) (c : Cursor) :
    (visits w f c).flatMap Visit.ops = draws (steps w f c).1 := by
  rw [← flatMap_steps_visits, draws, List.filterMap_flatMap]
  refine List.flatMap_congr fun v _ => ?_
  change v.ops = draws (v.ops.map .draw ++ _)
  rw [draws_append, draws_draw, draws_markIf, List.append_nil]

/-- Drawn with its upper edge between two positions of the page. -/
def Between (w : Window) (low high : Nat) (op : DrawOp) : Prop :=
  ∃ position, op.row? = some (w.screenY position) ∧ low ≤ position ∧ position ≤ high

/-- Drawn with its upper edge inside an extent, of which the lower end is no part. -/
def Inside (w : Window) (e : Extent) (op : DrawOp) : Prop :=
  ∃ position, op.row? = some (w.screenY position) ∧ e.top ≤ position ∧ position < e.bottom

variable (w : Window)

theorem screenY_add (position height : Nat) :
    w.screenY position + Int32.ofNat height = w.screenY (position + height) := by
  have moved : Int32.ofNat (w.statusBar + (position + height)) =
      Int32.ofNat (w.statusBar + position) + Int32.ofNat height := by
    rw [← Nat.add_assoc, Int32.ofNat_add]
  rw [Window.screenY, Window.screenY, moved]
  grind

/-- Positions keep their order on the panel as long as the words can hold them. -/
theorem toInt_screenY {position : Nat} (low : w.statusBar + position < 2 ^ 31) (near : w.offset < 2 ^ 31) :
    (w.screenY position).toInt = (w.statusBar + position : Nat) - (w.offset : Int) := by
  rw [Window.screenY, Int32.toInt_sub, Int32.toInt_ofNat_of_lt low, Int32.toInt_ofNat_of_lt near]
  apply Int.bmod_eq_of_le_mul_two <;> omega

theorem inside_column (left : Int32) (style : TextStyle) {advance position : Nat} (tall : 0 < advance)
    {lines : List String} {e : Extent} (top : e.top ≤ position)
    (bottom : position + lines.length * advance ≤ e.bottom) :
    ∀ op ∈ column w left style advance position lines, Inside w e op := by
  induction lines generalizing position with
  | nil => exact fun _ member => (List.not_mem_nil member).elim
  | cons line rest ih =>
    rw [List.length_cons, Nat.succ_mul] at bottom
    rw [column, List.forall_mem_cons]
    exact ⟨⟨position, rfl, top, by omega⟩, ih (by omega) (by omega)⟩

theorem inside_box (color : Color) {top : Nat} {lines : List String} {e : Extent} (above : e.top ≤ top)
    (below : top + boxHeight lines < e.bottom) : ∀ op ∈ box w color top lines, Inside w e op := by
  have upper : ∀ op : DrawOp, op.row? = some (w.screenY top) → Inside w e op :=
    fun op row => ⟨top, row, above, Nat.lt_of_le_of_lt (Nat.le_add_right _ _) below⟩
  simp only [box, List.forall_mem_cons]
  refine ⟨upper _ rfl, ⟨top + boxHeight lines, ?_, Nat.le_add_right_of_le above, below⟩, upper _ rfl, upper _ rfl,
    fun _ member => (List.not_mem_nil member).elim⟩
  rw [DrawOp.row?, screenY_add]

/-- Whatever the kind, nothing of a leaf is drawn from above its extent or from its lower end on. -/
theorem inside_leaf (kind : Kind) (selected : Bool) (lines : List String) (position : Nat) :
    ∀ op ∈ (leaf w kind selected lines position).ops, Inside w (leaf w kind selected lines position).extent op := by
  intro op member
  cases kind with
  | text | heading | link => exact inside_column w _ _ (by decide) (Nat.le_refl _) (Nat.le_refl _) op member
  | button =>
    rcases List.mem_append.mp member with border | label
    · exact inside_box w _ (Nat.le_refl _) (Nat.lt_add_of_pos_right (by decide)) op border
    · refine inside_column w _ _ (by decide) (Nat.le_add_right _ _) ?_ op label
      simp only [leaf, boxHeight, padding, margin]
      omega
  | container | body | head | script | title => exact (List.not_mem_nil member).elim

variable {w}

theorem inside_visits (f : Forest Located) (c : Cursor) {v : Visit} (member : v ∈ visits w f c) :
    ∀ op ∈ v.ops, Inside w v.extent op := by
  rcases visit_cases f c member with ⟨-, nothing⟩ | ⟨-, kids, position, ops, extent⟩
  · rw [nothing]
    exact fun _ drawn => (List.not_mem_nil drawn).elim
  · rw [ops, extent]
    exact inside_leaf w _ _ _ _

theorem between_steps (f : Forest Located) (c : Cursor) :
    ∀ op ∈ draws (steps w f c).1, Between w c.position (steps w f c).2.position op := by
  intro op member
  rw [← flatMap_ops_visits, List.mem_flatMap] at member
  obtain ⟨v, visited, drawn⟩ := member
  obtain ⟨position, row, above, below⟩ := inside_visits f c visited op drawn
  obtain ⟨top, -, bottom⟩ := bounds_visits f c visited
  exact ⟨position, row, Nat.le_trans top above, Nat.le_trans (Nat.le_of_lt below) bottom⟩

/-- Drawn beyond the cutoff, and no lower than some position. -/
def Beyond (w : Window) (high : Nat) (op : DrawOp) : Prop :=
  ∃ position, op.row? = some (w.screenY position) ∧ w.passesOver position ∧ position ≤ high

theorem Between.beyond {low high : Nat} {op : DrawOp} (between : Between w.whole low high op)
    (passed : w.passesOver low) : Beyond w high op := by
  obtain ⟨position, row, above, below⟩ := between
  exact ⟨position, row, passesOver_of_le above passed, below⟩

theorem Beyond.mono {high high' : Nat} {op : DrawOp} (beyond : Beyond w high op) (upper : high ≤ high') :
    Beyond w high' op := by
  obtain ⟨position, row, passed, below⟩ := beyond
  exact ⟨position, row, passed, Nat.le_trans below upper⟩

/-- A pass with a cutoff draws the first part of what the same pass without one draws, and the rest is beyond. -/
theorem draws_whole (f : Forest Located) (c : Cursor) :
    ∃ omitted, draws (steps w.whole f c).1 = draws (steps w f c).1 ++ omitted ∧
      ∀ op ∈ omitted, Beyond w (steps w.whole f c).2.position op := by
  induction f generalizing c with
  | nil => exact ⟨[], rfl, fun _ member => (List.not_mem_nil member).elim⟩
  | node n kids rest ihk ihr =>
    by_cases here : w.passesOver c.position
    · rw [steps_of_passesOver here]
      exact ⟨_, rfl, fun op member => (between_steps _ c op member).beyond here⟩
    · by_cases container : n.content.kind.isContainer
      · rw [steps_container here container, steps_container (not_passesOver_whole _) container]
        generalize inner : ({ c with index := c.index + places n.content.selectable } : Cursor) = start
        simp only [draws_append, draws_markIf, List.append_nil]
        -- Once a child is passed over, nothing beside the container is drawn either.
        by_cases ahead : w.passesOver (steps w kids start).2.position
        · obtain ⟨omitted, whole, beyond⟩ := ihk start
          have further : w.passesOver (steps w.whole kids start).2.position :=
            passesOver_of_le (position_steps_le_whole kids start) ahead
          refine ⟨omitted ++ draws (steps w.whole rest (steps w.whole kids start).2).1, ?_, ?_⟩
          · rw [whole, steps_of_passesOver ahead, draws_nil, List.append_nil, List.append_assoc]
          · intro op member
            rcases List.mem_append.mp member with inside | beside
            · exact (beyond op inside).mono (position_le_steps rest _)
            · exact (between_steps rest _ op beside).beyond further
        · rw [steps_whole_of_ahead kids start ahead]
          obtain ⟨omitted, whole, beyond⟩ := ihr (steps w kids start).2
          exact ⟨omitted, by rw [whole, List.append_assoc], beyond⟩
      · rw [steps_leaf here container, steps_leaf (not_passesOver_whole _) container, leaf_whole]
        simp only [draws_append, draws_draw, draws_markIf, List.append_nil]
        obtain ⟨omitted, whole, beyond⟩ := ihr ⟨_, _⟩
        exact ⟨omitted, by simp only [Window.whole] at whole ⊢; rw [whole, List.append_assoc], beyond⟩

section

variable {δ : Type} [Display δ]

/-- How many requests a display takes before it refuses one. -/
def accepted : List DrawOp → δ → Nat
  | [], _ => 0
  | op :: rest, display =>
    match Display.draw op display with
    | (.ok _, display) => accepted rest display + 1
    | (.error _, _) => 0

/-- For the display a frame is what it draws, one request after the other up to the first that is refused. -/
theorem send_draws (todo : List Step) (entries : List Focus.Entry) (display : δ) :
    send (draws todo) display = ((carryOut todo entries display).1, (carryOut todo entries display).2.2) := by
  induction todo generalizing entries display with
  | nil => rfl
  | cons step todo ih =>
    cases step with
    | draw op =>
      change send (op :: draws todo) display = _
      rcases answer : Display.draw op display with ⟨outcome, next⟩
      cases outcome with
      | ok =>
        simp only [send, carryOut, answer]
        exact ih entries next
      | error e => simp only [send, carryOut, answer]
    | mark place node extent => exact ih (entries.modify place fun entry => { entry with extent }) display

theorem send_paint (settings : PageSettings) (d : Document) (scroll : Scroll) (entries : List Focus.Entry)
    (display : δ) :
    send (draws (frame settings d scroll entries)) display =
      ((paint settings d scroll entries display).outcome, (paint settings d scroll entries display).display) := by
  rw [send_draws _ entries]
  rcases result : carryOut (frame settings d scroll entries) entries display with ⟨outcome, changed, next⟩
  rw [frame] at result
  cases outcome <;> simp only [paint, result]

/-- What a frame of a measured page leaves out cannot be seen. It draws the first part of what the same frame would
draw with nothing passed over, and each request it leaves out has its upper edge below the window. -/
theorem paint_leaves_out_what_is_below (settings : PageSettings) (d : Document) (scroll : Scroll)
    (entries : List Focus.Entry) (display : δ) (low : settings.statusBar.toNat + d.height < 2 ^ 31)
    (near : scroll.beginFrame.offset < 2 ^ 31) :
    let w := windowOf settings scroll.beginFrame entries
    let made := draws (frame settings d scroll entries)
    let painted := paint settings d scroll entries display
    send made display = (painted.outcome, painted.display) ∧
      ∃ omitted, draws (steps w.whole d.located {}).1 = made ++ omitted ∧
        ∀ op ∈ omitted, ∃ y, op.row? = some y ∧ (settings.statusBar.toNat + scroll.viewport : Nat) < y.toInt := by
  intro w made painted
  obtain ⟨omitted, whole, beyond⟩ := draws_whole (w := w) d.located {}
  refine ⟨send_paint settings d scroll entries display, omitted, whole, ?_⟩
  intro op member
  obtain ⟨position, row, passed, high⟩ := beyond op member
  rw [(steps_whole_geometry w d).2] at high
  have held : w.statusBar + position < 2 ^ 31 := Nat.lt_of_le_of_lt (Nat.add_le_add_left high _) low
  have further := ((passesOver_windowOf_iff settings scroll.beginFrame entries position).mp passed).2
  rw [Scroll.bottom, Scroll.viewport_beginFrame] at further
  refine ⟨w.screenY position, row, ?_⟩
  rw [toInt_screenY w held near]
  change ((settings.statusBar.toNat + scroll.viewport : Nat) : Int) <
    (settings.statusBar.toNat + position : Nat) - (scroll.beginFrame.offset : Int)
  omega

end

/-- Of twelve lines on a page that has begun to move, eight are drawn. -/
theorem paint_leaves_out_four_lines :
    let line := fun rest => Forest.node (Content.text ["line"]) .nil rest
    let d := Document.ofForest (.single { kind := .body } (line^[12] .nil))
    let scroll : Scroll := { viewport := 150, step := 40, target := 40, height := 264, measured := true }
    let panel : Panel := { width := 320, height := 170 }
    let w := windowOf {} scroll.beginFrame []
    let made := draws (frame {} d scroll [])
    let painted := paint {} d scroll [] panel
    (({} : PageSettings).statusBar.toNat + d.height < 2 ^ 31 ∧ scroll.beginFrame.offset < 2 ^ 31) ∧
      (made.length = 8 ∧ (draws (steps w.whole d.located {}).1).length = 12) ∧
      send made panel = (painted.outcome, painted.display) ∧
      ∃ omitted, draws (steps w.whole d.located {}).1 = made ++ omitted ∧
        ∀ op ∈ omitted, ∃ y, op.row? = some y ∧
          (({} : PageSettings).statusBar.toNat + scroll.viewport : Nat) < y.toInt := by
  intro line d scroll panel w made painted
  have low : ({} : PageSettings).statusBar.toNat + d.height < 2 ^ 31 := by decide +kernel
  have near : scroll.beginFrame.offset < 2 ^ 31 := by decide
  exact ⟨⟨low, near⟩, by decide +kernel, paint_leaves_out_what_is_below {} d scroll [] panel low near⟩

end Layout
end PocketReader
