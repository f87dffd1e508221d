import Mathlib.Data.Nat.Find
import PocketReader.Proofs.Scroll

/-! How the offset reaches its target. A frame leaves three quarters of the distance, rounded down, from above and
from below alike. So the offset comes closer with every frame until it is there, which takes at most three frames for
each binary digit of the distance, and there it stays. Words of 64 bits hold all that is computed on the way as long
as they hold four times the larger of the two numbers and three more. -/
namespace PocketReader.Scroll

/-- A number as a word, if a word can hold it. -/
def word? (n : Nat) : Option UInt64 := if n < 2 ^ 64 then some (.ofNat n) else none

/-- The product of two words, unless it overflows. -/
def mul? (a b : UInt64) : Option UInt64 := word? (a.toNat * b.toNat)

def add? (a b : UInt64) : Option UInt64 := word? (a.toNat + b.toNat)

/-- One frame of movement in words; there is no answer if a product or a sum on the way overflows. -/
def approach? (offset target : UInt64) : Option UInt64 :=
  if target < offset then do
    let product ← mul? offset 3
    let sum ← add? product target
    return sum / 4
  else if offset < target then do
    let product ← mul? offset 3
    let sum ← add? product target
    let rounded ← add? sum 3
    return rounded / 4
  else return offset

theorem exists_word {n : Nat} (fits : n < 2 ^ 64) : ∃ w, word? n = some w ∧ w.toNat = n :=
  ⟨_, if_pos fits, UInt64.toNat_ofNat_of_lt' fits⟩

/-- Where there is room, a frame in words is a frame in numbers. -/
theorem exists_approach? (offset target : UInt64) (room : 4 * max offset.toNat target.toNat + 3 < 2 ^ 64) :
    ∃ next, approach? offset target = some next ∧ next.toNat = approach offset.toNat target.toNat := by
  obtain ⟨product, multiplied, triple⟩ : ∃ w, mul? offset 3 = some w ∧ w.toNat = offset.toNat * 3 :=
    exists_word (n := offset.toNat * 3) (by omega)
  obtain ⟨sum, added, total⟩ : ∃ w, add? product target = some w ∧ w.toNat = offset.toNat * 3 + target.toNat := by
    rw [← triple]
    exact exists_word (by omega)
  unfold approach? approach
  simp only [multiplied, added, Option.bind_eq_bind, Option.bind_some, UInt64.lt_iff_toNat_lt]
  split
  · refine ⟨_, rfl, ?_⟩
    rw [UInt64.toNat_div, total]
    rfl
  · split
    · obtain ⟨rounded, up, more⟩ : ∃ w, add? sum 3 = some w ∧ w.toNat = offset.toNat * 3 + target.toNat + 3 := by
        rw [← total]
        exact exists_word (n := sum.toNat + 3) (by omega)
      rw [up, Option.bind_some]
      refine ⟨_, rfl, ?_⟩
      rw [UInt64.toNat_div, more]
      rfl
    · exact ⟨_, rfl, rfl⟩

theorem iterate_approach_le (offset target n : Nat) :
    (fun offset => approach offset target)^[n] offset ≤ max offset target := by
  induction n with
  | zero => exact Nat.le_max_left _ _
  | succ n ih =>
    rw [Function.iterate_succ_apply']
    have between := approach_between ((fun offset => approach offset target)^[n] offset) target
    omega

/-- Nothing overflows however many frames are drawn, as no frame takes the offset out of the range it began in. -/
theorem toNat_iterate_approach? (offset target : UInt64) (room : 4 * max offset.toNat target.toNat + 3 < 2 ^ 64)
    (n : Nat) :
    ((fun offset? => offset?.bind (approach? · target))^[n] (some offset)).map UInt64.toNat =
      some ((fun offset => approach offset target.toNat)^[n] offset.toNat) := by
  induction n with
  | zero => rfl
  | succ n ih =>
    have inside := iterate_approach_le offset.toNat target.toNat n
    obtain ⟨word, held, number⟩ := Option.map_eq_some_iff.mp ih
    rw [← number] at inside
    obtain ⟨next, moved, same⟩ := exists_approach? word target (by omega)
    rw [Function.iterate_succ_apply', Function.iterate_succ_apply', held, ← number, Option.bind_some, moved,
      Option.map_some, same]

/-- From the frame that reaches the target on, the offset is there. -/
theorem exists_first_frame (offset target : Nat) :
    ∃ first ≤ 3 * Nat.size (Nat.dist offset target),
      ∀ n, (fun offset => approach offset target)^[n] offset = target ↔ first ≤ n := by
  have reached : ∃ n, (fun offset => approach offset target)^[n] offset = target :=
    ⟨_, iterate_approach (Nat.le_refl _)⟩
  refine ⟨Nat.find reached, Nat.find_min' reached (iterate_approach (Nat.le_refl _)), fun n => ?_⟩
  constructor
  · exact Nat.find_min' reached
  · intro later
    obtain ⟨more, rfl⟩ := Nat.exists_eq_add_of_le' later
    rw [Function.iterate_add_apply, Nat.find_spec reached, iterate_approach_self]

/-- A frame leaves three quarters of the distance and passes nothing, so the offset comes closer with every frame
until it is at the target, is there after three frames for each binary digit of the distance, and stays. Computed in
words of 64 bits it is the same movement, and nothing overflows, as long as four times the larger number and three fit
in a word. -/
theorem approach_converges (offset target : Nat) :
    let after := fun n => (fun offset => approach offset target)^[n] offset
    (offset ≤ approach offset target ∧ approach offset target ≤ target ∨
      target ≤ approach offset target ∧ approach offset target ≤ offset) ∧
    Nat.dist (approach offset target) target = 3 * Nat.dist offset target / 4 ∧
    (∀ n, after n ≠ target → Nat.dist (after (n + 1)) target < Nat.dist (after n) target) ∧
    (∃ first ≤ 3 * Nat.size (Nat.dist offset target), ∀ n, after n = target ↔ first ≤ n) ∧
    (4 * max offset target + 3 < 2 ^ 64 → ∀ n,
      ((fun offset? => offset?.bind (approach? · (.ofNat target)))^[n] (some (.ofNat offset))).map UInt64.toNat =
        some (after n)) := by
  intro after
  refine ⟨approach_between offset target, dist_approach offset target, fun n away => ?_,
    exists_first_frame offset target, fun room n => ?_⟩
  · have next : after (n + 1) = approach (after n) target := Function.iterate_succ_apply' _ n offset
    have far : 0 < Nat.dist (after n) target := Nat.dist_pos_of_ne away
    rw [next, dist_approach]
    omega
  · have low : (UInt64.ofNat offset).toNat = offset := UInt64.toNat_ofNat_of_lt' (Nat.lt_of_le_of_lt (by omega) room)
    have high : (UInt64.ofNat target).toNat = target := UInt64.toNat_ofNat_of_lt' (Nat.lt_of_le_of_lt (by omega) room)
    have same := toNat_iterate_approach? (.ofNat offset) (.ofNat target) (by rwa [low, high]) n
    rwa [low, high] at same

/-- From the top of a page to the lowest target for which there is room. -/
theorem approach_converges_lowest :
    let target := 2 ^ 62 - 1
    let after := fun n => (fun offset => approach offset target)^[n] 0
    4 * max 0 target + 3 < 2 ^ 64 ∧ after 186 = target ∧
      ((fun offset? => offset?.bind (approach? · (.ofNat target)))^[186] (some (.ofNat 0))).map UInt64.toNat =
        some target := by
  intro target after
  have room : 4 * max 0 target + 3 < 2 ^ 64 := by decide
  obtain ⟨-, -, -, ⟨first, soon, there⟩, words⟩ := approach_converges 0 target
  have digits : Nat.size (Nat.dist 0 target) ≤ 62 := Nat.size_le.mpr (by decide)
  have last : after 186 = target := (there 186).mpr (by omega)
  exact ⟨room, last, (words room 186).trans (congrArg some last)⟩

end PocketReader.Scroll
