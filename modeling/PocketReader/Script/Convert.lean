import PocketReader.Script.Lookup
import PocketReader.Script.Text

/-! Values as texts and as numbers. An object is first made a value that is none, by functions of its own. -/
namespace PocketReader.Script

open PocketReader.Text

section

variable (invoke : Invoke)

/-- The first value that is no object, among those that the functions of these names give. -/
def plainBy (v : Value) : List String → Run Value
  | [] => fail "toPrimitive"
  | name :: others => do
    let f ← getProperty v name
    if (← heap).isFunction f then
      match ← invoke f v [] with
      | .object _ => plainBy v others
      | plain => return plain
    else plainBy v others

/-- A value that is no object, to be made text. -/
def plainForText (v : Value) : Run Value :=
  match v with
  | .object _ => plainBy invoke v ["toString", "valueOf"]
  | v => return v

/-- A value that is no object, to be made a number or to be added. -/
def plainForSum (v : Value) : Run Value :=
  match v with
  | .object _ => plainBy invoke v ["valueOf", "toString"]
  | v => return v

end

def textOfPlain (v : Value) : Run Units :=
  match plainText? v with
  | some u => return u
  | none => fail "cannot convert symbol to string"

def numberOfPlain (v : Value) : Run Float :=
  match plainNumber? v with
  | some x => return x
  | none => fail "cannot convert symbol to number"

def toText (invoke : Invoke) (v : Value) : Run Units := do textOfPlain (← plainForText invoke v)

def toNumber (invoke : Invoke) (v : Value) : Run Float := do numberOfPlain (← plainForSum invoke v)

/-- The sum of two values: text if one of them is text, and a number otherwise. -/
def add (invoke : Invoke) (left right : Value) : Run Value := do
  let a ← plainForSum invoke left
  let b ← plainForSum invoke right
  if a.isText || b.isText then
    let first ← textOfPlain a
    let second ← textOfPlain b
    return .text (first ++ second)
  else
    let x ← numberOfPlain a
    let y ← numberOfPlain b
    return .number (x + y)

/-- Text handed to the page has to be whole characters. -/
def wholeText (u : Units) : Run String := do
  match u.toString? with
  | some s => return s
  | none =>
    fail ("Conversion from string failed: invalid utf-8 sequence of 1 bytes from index " ++ toString u.soundBytes)

end PocketReader.Script
