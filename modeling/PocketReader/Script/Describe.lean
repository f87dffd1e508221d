import PocketReader.Script.Convert

/-! Objects made of values that are none, and texts of objects, as functions of the script language give them. -/
namespace PocketReader.Script

open PocketReader.Text

def toObject (v : Value) : Run Value := do
  match v, (← heap).prototype? v with
  | .object _, _ => return v
  | v, some prototype => makeObject (.wrapper v) prototype
  | _, none => fail "Cannot convert undefined or null to object"

/-- A value that is no object, also out of an object that holds it. -/
def unwrapped (v : Value) : Run Value := do
  match (← heap).form? v with
  | some (.wrapper held) => return held
  | _ => return v

/-- No text is longer. -/
def longestText : Nat := 1073741823

/-- What an object is called when nothing else says it. -/
def Form.called : Form → String
  | .plain => "Object"
  | .error => "Error"
  | .wrapper (.text _) => "String"
  | .wrapper (.number _) => "Number"
  | .wrapper (.boolean _) => "Boolean"
  | .wrapper _ => "Object"
  | .array _ _ => "Array"
  | .function _ _ | .native _ => "Function"

def objectText (v : Value) : Run Units := do
  match v with
  | .undefined => return Units.ofString "[object Undefined]"
  | .null => return Units.ofString "[object Null]"
  | v =>
    match ← toObject v with
    | .object address =>
      let heap ← heap
      let called := ((heap[address]?.map Object.form).map Form.called).getD "Object"
      return Units.ofString ("[object " ++ (heap.tag? address).getD called ++ "]")
    | _ => return []

section

variable (invoke : Invoke)

/-- A function as it stands in its source, or with its name only. -/
def functionText (f : Value) : Run Units := do
  match (← heap).form? f with
  | some (.function _ text) => return text
  | some (.native _) =>
    let name ← match ← getProperty f "name" with
      | .undefined => pure []
      | name => toText invoke name
    return Units.ofString "function " ++ name ++ Units.ofString "() \x7b\n    [native code]\n\x7d"
  | _ => fail "not a function"

/-- The name of an error and its message. -/
def errorText (v : Value) : Run Units := do
  let name ← match ← getProperty v "name" with
    | .undefined => pure (Units.ofString "Error")
    | name => toText invoke name
  let message ← match ← getProperty v "message" with
    | .undefined => pure []
    | message => toText invoke message
  return if name.isEmpty || message.isEmpty then name ++ message else name ++ Units.ofString ": " ++ message

/-- An item of an array as text; what is undefined or null is left out. -/
def itemText (address place : Nat) : Run Units := do
  match (← heap).item? address place with
  | none | some .undefined | some .null => return []
  | some item => toText invoke item

/-- A length, whatever value says it. -/
def toLength (v : Value) : Run Nat := do
  let x ← toNumber invoke v
  return if 0 < x then (min x 9007199254740991).toUInt64.toNat else 0

def join (receiver separator : Value) : Run Units := do
  match ← toObject receiver with
  | .object address =>
    let length ← toLength invoke (← getProperty (.object address) "length")
    let between ← match separator with
      | .undefined => pure (Units.ofString ",")
      | v => toText invoke v
    if longestText < length then fail "invalid string length"
    else
      let texts ← (List.range length).mapM (itemText invoke address)
      return between.intercalate texts
  | _ => return []

def arrayText (receiver : Value) : Run Value := do
  let f ← getProperty receiver "join"
  if (← heap).isFunction f then invoke f receiver [] else return .text (← objectText receiver)

end
end PocketReader.Script
