import PocketReader.Script.Heap
import PocketReader.Script.Number
import PocketReader.Script.Numeral

/-! Values on the console, and texts and numbers made of values that are no objects. -/
namespace PocketReader.Script

open PocketReader.Text

/-- A value on the console; text that holds half a character is left out. -/
def consoleText (heap : Heap) : Value → String
  | .undefined => "undefined"
  | .null => "null"
  | .boolean b => if b then "true" else "false"
  | .number x => String.ofList (consoleNumber x)
  | .text u => u.toString?.getD ""
  | .symbol _ => "[Object]"
  | .object address =>
    match heap[address]? with
    | none => "[Object]"
    | some o => if o.isArray then "[Array]" else if o.isFunction then "[Function]" else "[Object]"

def plainText? : Value → Option Units
  | .undefined => some (Units.ofString "undefined")
  | .null => some (Units.ofString "null")
  | .boolean b => some (Units.ofString (if b then "true" else "false"))
  | .number x => some (Units.ofChars (numberText x))
  | .text u => some u
  | .symbol _ | .object _ => none

def plainNumber? : Value → Option Float
  | .undefined => some notANumber
  | .null => some 0
  | .boolean b => some (if b then 1 else 0)
  | .number x => some x
  | .text u => some (readNumber u)
  | .symbol _ | .object _ => none

def Value.truth : Value → Bool
  | .undefined | .null => false
  | .boolean b => b
  | .number x => !(x == 0 || x.isNaN)
  | .text u => !u.isEmpty
  | .symbol _ | .object _ => true

def symbolText (description? : Option Units) : Units :=
  Units.ofString "Symbol(" ++ description?.getD [] ++ Units.ofString ")"

end PocketReader.Script
