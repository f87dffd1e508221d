import Mathlib.Data.List.Basic
import PocketReader.Text.Units

/-! Text in words of sixteen bits, read back. What is made of whole characters has no surrogate on its own, and is
read as these characters. -/
namespace PocketReader.Text.Units

theorem isHigh_iff (u : UInt16) : isHigh u = true ↔ 0xd800 ≤ u.toNat ∧ u.toNat < 0xdc00 := by
  simp [isHigh, UInt16.le_iff_toNat_le, UInt16.lt_iff_toNat_lt]

theorem isLow_iff (u : UInt16) : isLow u = true ↔ 0xdc00 ≤ u.toNat ∧ u.toNat < 0xe000 := by
  simp [isLow, UInt16.le_iff_toNat_le, UInt16.lt_iff_toNat_lt]

theorem toNat_ofNat_of_lt {n : Nat} (small : n < 0x10000) : (UInt16.ofNat n).toNat = n := by
  rw [UInt16.toNat_ofNat']
  exact Nat.mod_eq_of_lt small

/-- A character of the first plane is no surrogate. -/
theorem decode_single {u : UInt16} (plain : u.toNat < 0xd800 ∨ 0xe000 ≤ u.toNat) (rest : Units) :
    decode (u :: rest) = (Char.ofNat u.toNat :: (decode rest).1, (decode rest).2) := by
  have high : isHigh u = false := by
    rw [Bool.eq_false_iff, ne_eq, isHigh_iff]
    omega
  have low : isLow u = false := by
    rw [Bool.eq_false_iff, ne_eq, isLow_iff]
    omega
  cases rest with
  | nil => simp [decode, high, low]
  | cons v rest => simp [decode, high, low]

theorem decode_pair {u v : UInt16} (high : isHigh u = true) (low : isLow v = true) (rest : Units) :
    decode (u :: v :: rest) = (ofPair u v :: (decode rest).1, (decode rest).2) := by
  rw [decode, if_pos high, if_pos low]

theorem decode_ofChar (c : Char) (rest : Units) :
    decode (ofChar c ++ rest) = (c :: (decode rest).1, (decode rest).2) := by
  have valid : c.toNat < 0xd800 ∨ 0xdfff < c.toNat ∧ c.toNat < 0x110000 := c.valid
  by_cases small : c.toNat < 0x10000
  · have same := toNat_ofNat_of_lt small
    rw [ofChar, if_pos small, List.singleton_append, decode_single (by omega), same, Char.ofNat_toNat]
  · have first := toNat_ofNat_of_lt (show 0xd800 + (c.toNat - 0x10000) / 0x400 < 0x10000 by omega)
    have second := toNat_ofNat_of_lt (show 0xdc00 + (c.toNat - 0x10000) % 0x400 < 0x10000 by omega)
    have high : isHigh (UInt16.ofNat (0xd800 + (c.toNat - 0x10000) / 0x400)) = true := by
      rw [isHigh_iff, first]
      omega
    have low : isLow (UInt16.ofNat (0xdc00 + (c.toNat - 0x10000) % 0x400)) = true := by
      rw [isLow_iff, second]
      omega
    have whole : 0x10000 + (0xd800 + (c.toNat - 0x10000) / 0x400 - 0xd800) * 0x400 +
        (0xdc00 + (c.toNat - 0x10000) % 0x400 - 0xdc00) = c.toNat := by omega
    rw [ofChar, if_neg small, List.cons_append, List.singleton_append, decode_pair high low, ofPair, first, second,
      whole, Char.ofNat_toNat]

theorem decode_ofChars (s : List Char) : decode (ofChars s) = (s, true) := by
  induction s with
  | nil => rfl
  | cons c s ih => rw [ofChars, List.flatMap_cons, decode_ofChar, ← ofChars, ih]

theorem toString?_ofString (s : String) : (ofString s).toString? = some s := by
  rw [toString?, ofString, decode_ofChars]
  exact congrArg some String.ofList_toList

end PocketReader.Text.Units
