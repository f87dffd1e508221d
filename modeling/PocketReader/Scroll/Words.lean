import PocketReader.Scroll

/-! A scroll position in machine words. Lengths are unsigned, the target is signed, products and sums wrap around, and
what is cast keeps its bits. A page would have to be very long for that to show. -/
namespace PocketReader.Scroll

structure Words where
  viewport : UInt64
  step : UInt64
  offset : UInt64 := 0
  target : Int64 := 0
  selected? : Option Nat := none
  height : UInt64 := 0
  measured : Bool := false
  deriving DecidableEq

namespace Words

structure Extent where
  top : UInt64 := 0
  bottom : UInt64 := 0
  deriving DecidableEq

def Extent.isVisible (e : Extent) (offset viewport : UInt64) : Bool :=
  decide (offset ≤ e.top) && decide (e.bottom ≤ offset + viewport)

def approach (offset target : UInt64) : UInt64 :=
  if target < offset then (offset * 3 + target) / 4
  else if offset < target then (offset * 3 + target + 3) / 4
  else offset

def limit (s : Words) : UInt64 := if s.viewport ≤ s.height then s.height - s.viewport else 0

def bottom (s : Words) : UInt64 := s.offset + s.viewport

def clamp (s : Words) : Words :=
  if s.target < 0 ∨ s.height ≤ s.viewport then { s with target := 0 }
  else if s.limit.toInt64 < s.target then { s with target := s.limit.toInt64 }
  else s

def nudge (s : Words) (distance : Int64) : Words := clamp { s with target := s.target + distance }

def focus (s : Words) (index : Nat) (extent : Extent) : Words :=
  let s := { s with selected? := some index }
  if extent.isVisible s.offset s.viewport then s else clamp { s with target := extent.top.toInt64 }

def following (s : Words) : Nat :=
  match s.selected? with
  | none => 0
  | some i => i + 1

def next (s : Words) (extents : List Extent) : Words :=
  match extents[s.following]? with
  | some extent => s.focus s.following extent
  | none => s.nudge s.step.toInt64

def previous (s : Words) (extents : List Extent) : Words :=
  match s.selected? with
  | some (i + 1) =>
    match extents[i]? with
    | some extent => s.focus i extent
    | none => s.nudge (-s.step.toInt64)
  | _ => s.nudge (-s.step.toInt64)

def beginFrame (s : Words) : Words :=
  if s.measured then
    let s := s.clamp
    { s with offset := approach s.offset s.target.toUInt64 }
  else s

def finishLayout (s : Words) (reached : UInt64) : Words :=
  { s with height := max s.height reached, measured := true }

def reset (s : Words) : Words := { viewport := s.viewport, step := s.step }

def resetLayout (s : Words) (count : Nat) (kept? : Option Nat) : Words :=
  { s with height := 0, measured := false, selected? := s.selected?.bind (reselect count kept?) }

end Words
end PocketReader.Scroll
