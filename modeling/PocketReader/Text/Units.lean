/-! Text as a sequence of words of sixteen bits, the way page scripts count it. A character beyond the first plane is
a pair of surrogates; a surrogate on its own stands for no character. -/
namespace PocketReader.Text

abbrev Units := List UInt16

namespace Units

def ofChar (c : Char) : Units :=
  let n := c.toNat
  if n < 0x10000 then [UInt16.ofNat n]
  else [UInt16.ofNat (0xd800 + (n - 0x10000) / 0x400), UInt16.ofNat (0xdc00 + (n - 0x10000) % 0x400)]

def ofChars (s : List Char) : Units := s.flatMap ofChar

def ofString (s : String) : Units := ofChars s.toList

def isHigh (u : UInt16) : Bool := 0xd800 ≤ u && u < 0xdc00

def isLow (u : UInt16) : Bool := 0xdc00 ≤ u && u < 0xe000

/-- The character of a pair of surrogates. -/
def ofPair (high low : UInt16) : Char :=
  Char.ofNat (0x10000 + (high.toNat - 0xd800) * 0x400 + (low.toNat - 0xdc00))

/-- The characters up to the first surrogate on its own, and whether all of the text was read. -/
def decode : Units → List Char × Bool
  | [] => ([], true)
  | [u] => if isHigh u || isLow u then ([], false) else ([Char.ofNat u.toNat], true)
  | u :: v :: rest =>
    if isHigh u then
      if isLow v then
        let (s, whole) := decode rest
        (ofPair u v :: s, whole)
      else ([], false)
    else if isLow u then ([], false)
    else
      let (s, whole) := decode (v :: rest)
      (Char.ofNat u.toNat :: s, whole)

/-- The text in characters; `none` if a surrogate stands alone. -/
def toString? (u : Units) : Option String :=
  match decode u with
  | (s, true) => some (String.ofList s)
  | (_, false) => none

/-- How many bytes stand before the first surrogate on its own. -/
def soundBytes (u : Units) : Nat := (String.ofList (decode u).1).utf8ByteSize

end Units
end PocketReader.Text
