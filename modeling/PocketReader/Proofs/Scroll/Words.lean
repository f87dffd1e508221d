import PocketReader.Proofs.Scroll
import PocketReader.Scroll.Words

/-! Scrolling in machine words and in numbers. As long as the largest offset is one that the signed target can hold,
words are clamped as numbers are, and a frame that wraps around still comes down; and where lengths are a few binary
digits shorter than words, nothing wraps and both are the same. -/
namespace PocketReader.Scroll.Words

theorem toInt_toInt64 {w : UInt64} (small : w.toNat < 2 ^ 63) : w.toInt64.toInt = w.toNat := by
  have half : 2 * w.toBitVec.toNat < 2 ^ 64 := by
    change 2 * w.toNat < 2 ^ 64
    omega
  exact BitVec.toInt_eq_toNat_of_lt half

theorem toInt_toInt64_neg {w : UInt64} (large : 2 ^ 63 ≤ w.toNat) : w.toInt64.toInt < 0 := by
  have whole := w.toNat_lt
  change w.toBitVec.toInt < 0
  rw [BitVec.toInt_eq_toNat_cond, UInt64.toNat_toBitVec]
  split <;> omega

theorem toNat_toUInt64 {i : Int64} (low : 0 ≤ i.toInt) : i.toUInt64.toNat = i.toInt.toNat :=
  Int64.toNat_toUInt64_of_le (Int64.le_iff_toInt_le.mpr low)

theorem toNat_limit (s : Words) : s.limit.toNat = s.height.toNat - s.viewport.toNat := by
  unfold limit
  split
  · exact UInt64.toNat_sub_of_le _ _ ‹_›
  · rename_i short
    rw [UInt64.le_iff_toNat_le] at short
    rw [UInt64.toNat_zero]
    omega

theorem clamp_eq (s : Words) : s.clamp = { s with target := s.clamp.target } := by
  unfold clamp
  split
  · rfl
  · split <;> rfl

@[simp] theorem viewport_clamp (s : Words) : s.clamp.viewport = s.viewport := by rw [clamp_eq]

@[simp] theorem offset_clamp (s : Words) : s.clamp.offset = s.offset := by rw [clamp_eq]

@[simp] theorem height_clamp (s : Words) : s.clamp.height = s.height := by rw [clamp_eq]

@[simp] theorem measured_clamp (s : Words) : s.clamp.measured = s.measured := by rw [clamp_eq]

@[simp] theorem limit_clamp (s : Words) : s.clamp.limit = s.limit := by rw [clamp_eq, limit, limit]

theorem toInt_target_clamp {s : Words} (small : s.limit.toNat < 2 ^ 63) :
    s.clamp.target.toInt = max 0 (min s.target.toInt s.limit.toNat) := by
  have cast := toInt_toInt64 small
  have most := s.toNat_limit
  unfold clamp
  simp only [Int64.lt_iff_toInt_lt, UInt64.le_iff_toNat_le, cast, Int64.toInt_zero]
  split
  · dsimp only
    rw [Int64.toInt_zero]
    omega
  · split
    · dsimp only
      omega
    · omega

/-- Beyond what a signed word holds, clamping sends the page above its top. -/
theorem toInt_target_clamp_neg {s : Words} (low : 0 ≤ s.target.toInt) (large : 2 ^ 63 ≤ s.limit.toNat) :
    s.clamp.target.toInt < 0 := by
  have cast := toInt_toInt64_neg large
  have most := s.toNat_limit
  unfold clamp
  simp only [Int64.lt_iff_toInt_lt, UInt64.le_iff_toNat_le, Int64.toInt_zero]
  rw [if_neg (by omega), if_pos (by omega)]
  exact cast

theorem toNat_approach (offset target : UInt64) :
    (approach offset target).toNat =
      if target.toNat < offset.toNat then (offset.toNat * 3 + target.toNat) % 2 ^ 64 / 4
      else if offset.toNat < target.toNat then (offset.toNat * 3 + target.toNat + 3) % 2 ^ 64 / 4
      else offset.toNat := by
  unfold approach
  simp only [UInt64.lt_iff_toNat_lt]
  split
  · rw [UInt64.toNat_div, UInt64.toNat_add, UInt64.toNat_mul]
    simp only [UInt64.reduceToNat, Nat.mod_add_mod]
  · split
    · rw [UInt64.toNat_div, UInt64.toNat_add, UInt64.toNat_add, UInt64.toNat_mul]
      simp only [UInt64.reduceToNat, Nat.mod_add_mod]
    · rfl

/-- What wraps around is less than it would be, so no frame takes the offset past the target. -/
theorem toNat_approach_le (offset target : UInt64) :
    (approach offset target).toNat ≤ max offset.toNat target.toNat := by
  have down := Nat.mod_le (offset.toNat * 3 + target.toNat) (2 ^ 64)
  have up := Nat.mod_le (offset.toNat * 3 + target.toNat + 3) (2 ^ 64)
  rw [toNat_approach]
  split
  · omega
  · split <;> omega

theorem toNat_approach_lt {offset target : UInt64} (above : target.toNat < offset.toNat) :
    (approach offset target).toNat < offset.toNat := by
  have down := Nat.mod_le (offset.toNat * 3 + target.toNat) (2 ^ 64)
  rw [toNat_approach, if_pos above]
  omega

inductive Operation where
  | next (extents : List Extent)
  | previous (extents : List Extent)
  | clamp
  | beginFrame
  | finishLayout (reached : UInt64)
  | reset
  | resetLayout (count : Nat) (kept? : Option Nat)
  deriving DecidableEq

def perform (s : Words) : Operation → Words
  | .next extents => s.next extents
  | .previous extents => s.previous extents
  | .clamp => s.clamp
  | .beginFrame => s.beginFrame
  | .finishLayout reached => s.finishLayout reached
  | .reset => s.reset
  | .resetLayout count kept? => s.resetLayout count kept?

def run (s : Words) (operations : List Operation) : Words := operations.foldl perform s

/-- All that a command does: it selects, and it may send the page somewhere. -/
inductive Moves (s : Words) : Words → Prop
  | stay (selected? : Option Nat) : Moves s { s with selected? }
  | head (selected? : Option Nat) (target : Int64) : Moves s (clamp { s with selected?, target })

theorem moves_focus (s : Words) (index : Nat) (extent : Extent) : s.Moves (s.focus index extent) := by
  unfold focus
  dsimp only
  split
  · exact .stay _
  · exact .head _ _

theorem moves_next (s : Words) (extents : List Extent) : s.Moves (s.next extents) := by
  unfold next
  split
  · exact s.moves_focus _ _
  · exact .head s.selected? _

theorem moves_previous (s : Words) (extents : List Extent) : s.Moves (s.previous extents) := by
  unfold previous
  split
  · split
    · exact s.moves_focus _ _
    · exact .head s.selected? _
  · exact .head s.selected? _

/-! In numbers. -/

def Extent.numbers (e : Extent) : PocketReader.Extent := { top := e.top.toNat, bottom := e.bottom.toNat }

/-- The same position in numbers. -/
def numbers (s : Words) : Scroll where
  viewport := s.viewport.toNat
  step := s.step.toNat
  offset := s.offset.toNat
  target := s.target.toInt
  selected? := s.selected?
  height := s.height.toNat
  measured := s.measured

/-- The same operation on a position in numbers. -/
def Operation.inNumbers (s : Scroll) : Operation → Scroll
  | .next extents => s.next (extents.map fun e => { node := ⟨0, 0⟩, extent := e.numbers })
  | .previous extents => s.previous (extents.map fun e => { node := ⟨0, 0⟩, extent := e.numbers })
  | .clamp => s.clamp
  | .beginFrame => s.beginFrame
  | .finishLayout reached => s.finishLayout reached.toNat
  | .reset => s.reset
  | .resetLayout count kept? => s.resetLayout count kept?

/-- Every length is a few binary digits shorter than a word. -/
structure Roomy (s : Words) : Prop where
  viewport : s.viewport.toNat < 2 ^ 61
  step : s.step.toNat < 2 ^ 61
  offset : s.offset.toNat < 2 ^ 61
  low : 0 ≤ s.target.toInt
  target : s.target.toInt < 2 ^ 61
  height : s.height.toNat < 2 ^ 61

def Operation.Roomy : Operation → Prop
  | .next extents | .previous extents => ∀ e ∈ extents, e.top.toNat < 2 ^ 61
  | .finishLayout reached => reached.toNat < 2 ^ 61
  | .clamp | .beginFrame | .reset | .resetLayout _ _ => True

theorem limit_numbers (s : Words) : s.numbers.limit = s.limit.toNat := s.toNat_limit.symm

theorem numbers_clamp {s : Words} (small : s.limit.toNat < 2 ^ 63) : s.clamp.numbers = s.numbers.clamp := by
  have target : s.clamp.target.toInt = s.numbers.clamp.target := by
    rw [toInt_target_clamp small, target_clamp, limit_numbers]
    rfl
  rw [Words.clamp_eq, Scroll.clamp_eq, ← target]
  rfl

theorem numbers_approach {offset target : UInt64} (there : offset.toNat < 2 ^ 61) (room : target.toNat < 2 ^ 61) :
    (approach offset target).toNat = Scroll.approach offset.toNat target.toNat := by
  rw [toNat_approach, Scroll.approach, Nat.mod_eq_of_lt (by omega), Nat.mod_eq_of_lt (by omega)]

namespace Roomy

variable {s : Words} (roomy : s.Roomy)

include roomy

theorem limit : s.limit.toNat < 2 ^ 61 := by
  have height := roomy.height
  rw [toNat_limit]
  omega

/-- Whatever the target was before, clamping makes it one that there is room for. -/
theorem clamp (selected? : Option Nat) (target : Int64) : (Words.clamp { s with selected?, target }).Roomy := by
  have limit := roomy.limit
  have same : ({ s with selected?, target } : Words).limit = s.limit := rfl
  have clamped := toInt_target_clamp (s := { s with selected?, target }) (by rw [same]; omega)
  rw [same] at clamped
  rw [clamp_eq]
  exact { roomy with low := by dsimp only; omega, target := by dsimp only; omega }

theorem moves {t : Words} (moves : s.Moves t) : t.Roomy := by
  cases moves with
  | stay selected? => exact { roomy with }
  | head selected? target => exact roomy.clamp selected? target

theorem beginFrame : s.beginFrame.Roomy := by
  unfold Words.beginFrame
  split
  · have clamped : s.clamp.Roomy := roomy.clamp s.selected? s.target
    have there := clamped.offset
    have room := clamped.target
    have target := toNat_toUInt64 clamped.low
    have moved := toNat_approach_le s.clamp.offset s.clamp.target.toUInt64
    exact { clamped with offset := by dsimp only; omega }
  · exact roomy

theorem reset : s.reset.Roomy := by
  refine ⟨roomy.viewport, roomy.step, ?_, ?_, ?_, ?_⟩ <;> simp [Words.reset]

theorem perform {operation : Operation} (fits : operation.Roomy) : (s.perform operation).Roomy := by
  cases operation with
  | next extents => exact roomy.moves (s.moves_next extents)
  | previous extents => exact roomy.moves (s.moves_previous extents)
  | clamp => exact roomy.clamp s.selected? s.target
  | beginFrame => exact roomy.beginFrame
  | finishLayout reached =>
    have height := roomy.height
    refine { roomy with height := ?_ }
    change (max s.height reached).toNat < 2 ^ 61
    rw [UInt64.toNat_max]
    exact Nat.max_lt.mpr ⟨height, fits⟩
  | reset => exact roomy.reset
  | resetLayout count kept? => exact { roomy with height := roomy.reset.height }

/-- Where the page is sent is held by a signed word, so it is the same in numbers. -/
theorem numbers_head (selected? : Option Nat) (target : Int64) :
    (Words.clamp { s with selected?, target }).numbers =
      Scroll.clamp { s.numbers with selected?, target := target.toInt } := by
  have limit := roomy.limit
  exact numbers_clamp (s := { s with selected?, target }) (by change s.limit.toNat < 2 ^ 63; omega)

theorem numbers_nudge {distance : Int64} (short : distance.toInt.natAbs < 2 ^ 61) :
    (s.nudge distance).numbers = s.numbers.nudge distance.toInt := by
  have low := roomy.low
  have target := roomy.target
  have sum : (s.target + distance).toInt = s.target.toInt + distance.toInt := by
    rw [Int64.toInt_add]
    exact Int.bmod_eq_of_le (by omega) (by omega)
  refine (roomy.numbers_head s.selected? (s.target + distance)).trans ?_
  rw [sum]
  rfl

theorem numbers_step : s.step.toInt64.toInt = s.step.toNat := by
  have step := roomy.step
  exact toInt_toInt64 (by omega)

theorem numbers_next_nudge : (s.nudge s.step.toInt64).numbers = s.numbers.nudge s.numbers.step := by
  have step := roomy.step
  have same := roomy.numbers_step
  rw [roomy.numbers_nudge (by omega), same]
  rfl

theorem numbers_previous_nudge : (s.nudge (-s.step.toInt64)).numbers = s.numbers.nudge (-s.numbers.step) := by
  have step := roomy.step
  have same := roomy.numbers_step
  have negated : (-s.step.toInt64).toInt = -s.step.toNat := by
    rw [Int64.toInt_neg, same]
    exact Int.bmod_eq_of_le (by omega) (by omega)
  rw [roomy.numbers_nudge (by omega), negated]
  rfl

theorem numbers_isVisible (e : Extent) :
    e.isVisible s.offset s.viewport = e.numbers.isVisible s.numbers.offset s.numbers.viewport := by
  have offset := roomy.offset
  have viewport := roomy.viewport
  have bottom : (s.offset + s.viewport).toNat = s.offset.toNat + s.viewport.toNat := by
    rw [UInt64.toNat_add]
    exact Nat.mod_eq_of_lt (by omega)
  unfold Extent.isVisible PocketReader.Extent.isVisible
  simp only [UInt64.le_iff_toNat_le, bottom]
  rfl

theorem numbers_focus (index : Nat) {e : Extent} (fits : e.top.toNat < 2 ^ 61) :
    (s.focus index e).numbers = s.numbers.focus index e.numbers := by
  have top : e.top.toInt64.toInt = e.top.toNat := toInt_toInt64 (by omega)
  unfold focus Scroll.focus
  dsimp only
  rw [← roomy.numbers_isVisible]
  split
  · rfl
  · rw [roomy.numbers_head, top]
    rfl

theorem numbers_next {extents : List Extent} (fits : ∀ e ∈ extents, e.top.toNat < 2 ^ 61) :
    (s.next extents).numbers = Operation.inNumbers s.numbers (.next extents) := by
  change _ = s.numbers.next _
  unfold next Scroll.next
  rw [List.getElem?_map, show s.numbers.following = s.following from rfl]
  cases found : extents[s.following]? with
  | none => exact roomy.numbers_next_nudge
  | some e => exact roomy.numbers_focus _ (fits e (List.mem_of_getElem? found))

theorem numbers_previous {extents : List Extent} (fits : ∀ e ∈ extents, e.top.toNat < 2 ^ 61) :
    (s.previous extents).numbers = Operation.inNumbers s.numbers (.previous extents) := by
  change _ = s.numbers.previous _
  unfold previous Scroll.previous
  rw [show s.numbers.selected? = s.selected? from rfl]
  rcases s.selected? with _ | _ | i
  · exact roomy.numbers_previous_nudge
  · exact roomy.numbers_previous_nudge
  · dsimp only
    rw [List.getElem?_map]
    cases found : extents[i]? with
    | none => exact roomy.numbers_previous_nudge
    | some e => exact roomy.numbers_focus _ (fits e (List.mem_of_getElem? found))

theorem numbers_beginFrame : s.beginFrame.numbers = s.numbers.beginFrame := by
  have limit := roomy.limit
  have clamped : s.clamp.Roomy := roomy.clamp s.selected? s.target
  have room := clamped.target
  have target := toNat_toUInt64 clamped.low
  have short : s.clamp.target.toUInt64.toNat < 2 ^ 61 := by omega
  have moved := numbers_approach clamped.offset short
  have same := numbers_clamp (s := s) (by omega)
  unfold Words.beginFrame Scroll.beginFrame
  rw [show s.numbers.measured = s.measured from rfl]
  split
  · have offset : (approach s.clamp.offset s.clamp.target.toUInt64).toNat =
        Scroll.approach s.clamp.numbers.offset s.clamp.numbers.target.toNat := by
      rw [moved, target]
      rfl
    rw [← same]
    exact congrArg (fun offset => ({ s.clamp.numbers with offset } : Scroll)) offset
  · rfl

theorem numbers_perform {operation : Operation} (fits : operation.Roomy) :
    (s.perform operation).numbers = operation.inNumbers s.numbers := by
  have limit := roomy.limit
  cases operation with
  | next extents => exact roomy.numbers_next fits
  | previous extents => exact roomy.numbers_previous fits
  | clamp => exact numbers_clamp (by omega)
  | beginFrame => exact roomy.numbers_beginFrame
  | finishLayout reached =>
    change ({ s.numbers with height := (max s.height reached).toNat, measured := true } : Scroll) = _
    rw [UInt64.toNat_max]
    rfl
  | reset | resetLayout => rfl

/-- A run in words is the run in numbers, as long as all lengths that come into it are a few binary digits shorter
than words. -/
theorem numbers_run {operations : List Operation} (fits : ∀ o ∈ operations, o.Roomy) :
    (s.run operations).numbers = operations.foldl Operation.inNumbers s.numbers := by
  induction operations generalizing s with
  | nil => rfl
  | cons operation rest ih =>
    rw [List.forall_mem_cons] at fits
    rw [List.foldl_cons, ← roomy.numbers_perform fits.1]
    exact ih (roomy.perform fits.1) fits.2

end Roomy
end PocketReader.Scroll.Words
