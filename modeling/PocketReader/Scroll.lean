import PocketReader.Focus

/-! Scrolling and selection. Commands move the selection or the target at once; the offset follows the target a
quarter of the way each frame. The height of the page is only known once it has been laid out completely, and it does
not shrink until the page changes. -/
namespace PocketReader

/-- One frame of movement, rounded towards the target so that the target is reached and never passed. -/
def Scroll.approach (offset target : Nat) : Nat :=
  if target < offset then (offset * 3 + target) / 4
  else if offset < target then (offset * 3 + target + 3) / 4
  else offset

structure Scroll where
  viewport : Nat
  step : Nat
  /-- Where the window is drawn. -/
  offset : Nat := 0
  /-- Where the window is going; a nudge may ask for less than zero before it is clamped. -/
  target : Int := 0
  selected? : Option Nat := none
  height : Nat := 0
  /-- Whether the page has been laid out completely. -/
  measured : Bool := false
  deriving DecidableEq

namespace Scroll

/-- The largest offset that still fills the window, as far as the height is known. -/
def limit (s : Scroll) : Nat := s.height - s.viewport

/-- The lower edge of the window. -/
def bottom (s : Scroll) : Nat := s.offset + s.viewport

def clamp (s : Scroll) : Scroll :=
  if s.target < 0 ∨ s.height ≤ s.viewport then { s with target := 0 }
  else if (s.limit : Int) < s.target then { s with target := s.limit }
  else s

def nudge (s : Scroll) (distance : Int) : Scroll := clamp { s with target := s.target + distance }

/-- Selects an entry, and heads for its top unless all of it shows. -/
def focus (s : Scroll) (index : Nat) (extent : Extent) : Scroll :=
  let s := { s with selected? := some index }
  if extent.isVisible s.offset s.viewport then s else clamp { s with target := extent.top }

/-- The entry after the selected one, or the first when none is selected. -/
def following (s : Scroll) : Nat :=
  match s.selected? with
  | none => 0
  | some i => i + 1

/-- The next entry takes the focus; past the last one the page moves on by a step. -/
def next (s : Scroll) (entries : List Focus.Entry) : Scroll :=
  match entries[s.following]? with
  | some entry => s.focus s.following entry.extent
  | none => s.nudge s.step

/-- The entry before takes the focus; before the first one the page moves back by a step. -/
def previous (s : Scroll) (entries : List Focus.Entry) : Scroll :=
  match s.selected? with
  | some (i + 1) =>
    match entries[i]? with
    | some entry => s.focus i entry.extent
    | none => s.nudge (-s.step)
  | _ => s.nudge (-s.step)

/-- Before a frame is drawn the target is clamped and the offset moves; nothing moves on a page not yet measured. -/
def beginFrame (s : Scroll) : Scroll :=
  if s.measured then
    let s := s.clamp
    { s with offset := approach s.offset s.target.toNat }
  else s

/-- After a frame the height is at least what the frame reached. -/
def finishLayout (s : Scroll) (reached : Nat) : Scroll :=
  { s with height := max s.height reached, measured := true }

/-- For another page. -/
def reset (s : Scroll) : Scroll := { viewport := s.viewport, step := s.step }

/-- Where the selection is among a new number of entries. `kept?` is where the selected node is now; without it the
selection stays as close to where it was as the number allows. -/
def reselect (count : Nat) (kept? : Option Nat) (i : Nat) : Option Nat :=
  match kept?.filter (· < count) with
  | some kept => some kept
  | none => if count = 0 then none else some (min i (count - 1))

/-- For a page that changed in place: the position stays, the measurements go. -/
def resetLayout (s : Scroll) (count : Nat) (kept? : Option Nat) : Scroll :=
  { s with height := 0, measured := false, selected? := s.selected?.bind (reselect count kept?) }

def selectedNode? (s : Scroll) (entries : List Focus.Entry) : Option Handle :=
  s.selected?.bind fun i => (entries[i]?).map Focus.Entry.node

end Scroll
end PocketReader
