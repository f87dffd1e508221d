import Mathlib.Data.Nat.Dist
import Mathlib.Data.Nat.Size
import PocketReader.Scroll

/-! How a scroll position moves. Clamping touches the target alone and brings it to the nearest offset that still
fills the window; a frame brings the offset to three quarters of its distance from the target. -/
namespace PocketReader.Scroll

theorem clamp_eq (s : Scroll) : s.clamp = { s with target := s.clamp.target } := by
  unfold clamp
  split
  · rfl
  · split <;> rfl

@[simp] theorem viewport_clamp (s : Scroll) : s.clamp.viewport = s.viewport := by rw [clamp_eq]

@[simp] theorem offset_clamp (s : Scroll) : s.clamp.offset = s.offset := by rw [clamp_eq]

@[simp] theorem height_clamp (s : Scroll) : s.clamp.height = s.height := by rw [clamp_eq]

@[simp] theorem measured_clamp (s : Scroll) : s.clamp.measured = s.measured := by rw [clamp_eq]

theorem target_clamp (s : Scroll) : s.clamp.target = max 0 (min s.target s.limit) := by
  unfold clamp limit
  split
  · dsimp only
    omega
  · split
    · dsimp only
      omega
    · omega

/-- A target that clamping leaves alone. -/
def Clamped (s : Scroll) : Prop := 0 ≤ s.target ∧ s.target ≤ s.limit

theorem clamped_clamp (s : Scroll) : s.clamp.Clamped := by
  unfold Clamped limit
  rw [target_clamp, height_clamp, viewport_clamp, limit]
  omega

theorem Clamped.clamp_eq {s : Scroll} (clamped : s.Clamped) : s.clamp = s := by
  obtain ⟨low, high⟩ := clamped
  have same : s.clamp.target = s.target := by
    rw [target_clamp]
    omega
  rw [s.clamp_eq, same]

/-- The rounding is towards the target on both sides, so the distance shrinks alike from above and from below. -/
theorem dist_approach (offset target : Nat) :
    Nat.dist (approach offset target) target = 3 * Nat.dist offset target / 4 := by
  unfold approach Nat.dist
  split
  · omega
  · split <;> omega

theorem dist_approach_le (offset target : Nat) :
    Nat.dist (approach offset target) target ≤ Nat.dist offset target - 1 := by
  rw [dist_approach]
  omega

/-- A frame never takes the offset past the target. -/
theorem approach_between (offset target : Nat) :
    offset ≤ approach offset target ∧ approach offset target ≤ target ∨
      target ≤ approach offset target ∧ approach offset target ≤ offset := by
  unfold approach
  split
  · omega
  · split <;> omega

theorem iterate_approach_self (target n : Nat) : (fun offset => approach offset target)^[n] target = target := by
  refine Function.iterate_fixed ?_ n
  rw [approach, if_neg (Nat.lt_irrefl target), if_neg (Nat.lt_irrefl target)]

/-- Three frames take more than half of the distance, so the target is reached after three frames for each of its
binary digits. -/
theorem iterate_approach {offset target n : Nat} (long : 3 * Nat.size (Nat.dist offset target) ≤ n) :
    (fun offset => approach offset target)^[n] offset = target := by
  have far := Nat.lt_size_self (Nat.dist offset target)
  generalize Nat.size (Nat.dist offset target) = digits at long far
  induction digits generalizing offset n with
  | zero =>
    rw [Nat.eq_of_dist_eq_zero (Nat.lt_one_iff.mp far), iterate_approach_self]
  | succ digits ih =>
    obtain ⟨m, rfl⟩ : ∃ m, n = m + 3 := ⟨n - 3, by omega⟩
    rw [Function.iterate_add_apply]
    refine ih (by omega) ?_
    simp only [Function.iterate_succ_apply', Function.iterate_zero_apply, dist_approach]
    rw [Nat.pow_succ] at far
    omega

@[simp] theorem viewport_beginFrame (s : Scroll) : s.beginFrame.viewport = s.viewport := by
  unfold beginFrame
  split
  · exact viewport_clamp s
  · rfl

@[simp] theorem height_beginFrame (s : Scroll) : s.beginFrame.height = s.height := by
  unfold beginFrame
  split
  · exact height_clamp s
  · rfl

@[simp] theorem measured_beginFrame (s : Scroll) : s.beginFrame.measured = s.measured := by
  unfold beginFrame
  split
  · exact measured_clamp s
  · rfl

/-- A frame moves the page and changes nothing else. -/
theorem beginFrame_eq (s : Scroll) :
    s.beginFrame = { s with offset := s.beginFrame.offset, target := s.beginFrame.target } := by
  unfold beginFrame
  split
  · rw [clamp_eq]
  · rfl

theorem clamp_select (s : Scroll) (selected? : Option Nat) :
    ({ s with selected? } : Scroll).clamp = { s.clamp with selected? } := by
  have target : ({ s with selected? } : Scroll).clamp.target = s.clamp.target := by
    rw [target_clamp, target_clamp]
    rfl
  rw [clamp_eq, target, clamp_eq s]

/-- What is selected is nothing to how the page moves. -/
theorem beginFrame_select (s : Scroll) (selected? : Option Nat) :
    ({ s with selected? } : Scroll).beginFrame = { s.beginFrame with selected? } := by
  by_cases measured : s.measured
  · rw [beginFrame, if_pos measured, beginFrame, if_pos measured, clamp_select]
  · rw [beginFrame, if_neg measured, beginFrame, if_neg measured]

@[simp] theorem selected?_beginFrame (s : Scroll) : s.beginFrame.selected? = s.selected? :=
  (congrArg Scroll.selected? (beginFrame_select s s.selected?)).trans rfl

theorem beginFrame_of_not_measured {s : Scroll} (unmeasured : s.measured = false) : s.beginFrame = s := by
  rw [beginFrame, unmeasured, if_neg Bool.false_ne_true]

theorem beginFrame_of_clamped {s : Scroll} (measured : s.measured) (clamped : s.Clamped) :
    s.beginFrame = { s with offset := approach s.offset s.target.toNat } := by
  rw [beginFrame, if_pos measured, clamped.clamp_eq]

/-- What frames make of a page that is measured: the target is clamped, and the offset goes to it. -/
theorem iterate_beginFrame {s : Scroll} (measured : s.measured = true) (n : Nat) :
    beginFrame^[n + 1] s =
      { s.clamp with offset := (fun offset => approach offset s.clamp.target.toNat)^[n + 1] s.offset } := by
  induction n with
  | zero =>
    simp only [Nat.zero_add, Function.iterate_one, beginFrame, measured, if_true, offset_clamp]
  | succ n ih =>
    rw [Function.iterate_succ_apply', ih, Function.iterate_succ_apply' _ (n + 1)]
    generalize (fun offset => approach offset s.clamp.target.toNat)^[n + 1] s.offset = offset
    have clamped : ({ s.clamp with offset } : Scroll).Clamped := s.clamped_clamp
    exact beginFrame_of_clamped (s.measured_clamp.trans measured) clamped

theorem offset_iterate_beginFrame {s : Scroll} (measured : s.measured = true) (n : Nat) :
    (beginFrame^[n] s).offset = (fun offset => approach offset s.clamp.target.toNat)^[n] s.offset := by
  cases n with
  | zero => rfl
  | succ n => rw [iterate_beginFrame measured]

theorem iterate_beginFrame_of_long {s : Scroll} (measured : s.measured = true) {n : Nat}
    (long : 3 * Nat.size (Nat.dist s.offset s.clamp.target.toNat) ≤ n) :
    beginFrame^[n + 1] s = { s.clamp with offset := s.clamp.target.toNat } := by
  rw [iterate_beginFrame measured, iterate_approach (Nat.le_succ_of_le long)]

end PocketReader.Scroll
