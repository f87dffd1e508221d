import PocketReader.Script.Run

/-! Reading properties and variables. A value that is no object has the properties of the values of its kind, and a
text has a length as well. -/
namespace PocketReader.Script

open PocketReader.Text

namespace Heap

/-- The object a value has properties from that are not its own. -/
def prototype? (heap : Heap) : Value → Option Nat
  | .undefined | .null => none
  | .boolean _ => some Standard.booleanPrototype
  | .number _ => some Standard.numberPrototype
  | .text _ => some Standard.textPrototype
  | .symbol _ => some Standard.symbolPrototype
  | .object address => heap[address]?.bind Object.prototype?

def inherited? (heap : Heap) (v : Value) (name : String) : Option Property :=
  (heap.prototype? v).bind fun prototype => heap.find? prototype name

def property? (heap : Heap) (v : Value) (name : String) : Option Property :=
  match v with
  | .object address => heap.find? address name
  | .text u => if name = "length" then some (.data (.number u.length.toFloat) false) else heap.inherited? v name
  | v => heap.inherited? v name

/-- The item at a place, of an array or of an array that an object has properties from. -/
def itemFrom? (heap : Heap) (place : Nat) : Nat → Nat → Option Value
  | 0, _ => none
  | fuel + 1, address =>
    heap[address]?.bind fun o => (o.item? place).or (o.prototype?.bind (heap.itemFrom? place fuel))

def item? (heap : Heap) (address place : Nat) : Option Value := heap.itemFrom? place (heap.size + 1) address

def form? (heap : Heap) : Value → Option Form
  | .object address => heap[address]?.map Object.form
  | _ => none

end Heap

/-- The value of a property that was found on a value, or on an object it has properties from. -/
def Property.read (receiver : Value) : Property → Run Value
  | .data v _ => return v
  | .accessor none _ => return .undefined
  | .accessor (some .prototype) _ => return (((← heap).prototype? receiver).map Value.object).getD .null
  | .accessor (some .forbidden) _ => fail "invalid property access"

def getProperty (v : Value) (name : String) : Run Value := do
  match v with
  | .undefined => fail ("cannot read property '" ++ shown name ++ "' of undefined")
  | .null => fail ("cannot read property '" ++ shown name ++ "' of null")
  | v =>
    match (← heap).property? v name with
    | some p => p.read v
    | none => return .undefined

/-- The object whose properties are the variables. -/
def globals : Value := .object Standard.globals

def isVariable (name : String) : Run Bool := return ((← heap).property? globals name).isSome

def readVariable (name : String) : Run Value := do
  match (← heap).property? globals name with
  | some p => p.read globals
  | none => undefinedName name

end PocketReader.Script
