import PocketReader.Script.Native
import PocketReader.Script.Program

/-! Values of a script. Objects live in a heap and are known by their address, so that two names can mean one object.
An object has what its prototype has, unless it has a property of that name itself. -/
namespace PocketReader.Script

open PocketReader.Text

inductive Value where
  | undefined
  | null
  | boolean (b : Bool)
  | number (x : Float)
  | text (u : Units)
  /-- Something that is like nothing else. -/
  | symbol (description? : Option Units)
  | object (address : Nat)

inductive Property where
  | data (value : Value) (writable : Bool)
  | accessor (get? : Option Getter) (set : Setter)

/-- What an object is, apart from its properties. -/
inductive Form where
  | plain
  | error
  /-- Holds a value that is no object. -/
  | wrapper (v : Value)
  /-- An array longer than its items ends in gaps. -/
  | array (items : List Value) (length : Nat)
  | function (body : List Statement) (text : Units)
  | native (n : Native)

structure Object where
  form : Form
  prototype? : Option Nat
  /-- What the object is called when it is shown as text. -/
  tag? : Option String := none
  /-- A look-up takes the first of a name. -/
  properties : List (String × Property) := []

abbrev Heap := Array Object

def Constant.value : Constant → Value
  | .null => .null
  | .boolean b => .boolean b
  | .number x => .number x
  | .text u => .text u

namespace Value

def isText : Value → Bool
  | .text _ => true
  | _ => false

def isNumber : Value → Bool
  | .number _ => true
  | _ => false

def isBoolean : Value → Bool
  | .boolean _ => true
  | _ => false

def isSymbol : Value → Bool
  | .symbol _ => true
  | _ => false

def isNothing : Value → Bool
  | .undefined | .null => true
  | _ => false

end Value

/-- Changes the first entry of a name, or adds one at the end. -/
def setKey {α : Type} (name : String) (v : α) : List (String × α) → List (String × α)
  | [] => [(name, v)]
  | (key, old) :: rest => if key = name then (key, v) :: rest else (key, old) :: setKey name v rest

theorem lookup_setKey {α : Type} (name other : String) (v : α) (entries : List (String × α)) :
    (setKey name v entries).lookup other = if other = name then some v else entries.lookup other := by
  induction entries with
  | nil =>
    by_cases h : other = name
    · simp only [setKey, h, List.lookup_cons, beq_self_eq_true, if_true]
    · simp only [setKey, List.lookup_cons, beq_false_of_ne h, List.lookup_nil, if_neg h]
  | cons entry rest ih =>
    obtain ⟨key, old⟩ := entry
    unfold setKey
    by_cases hk : key = name
    · by_cases h : other = name
      · simp only [hk, h, if_true, List.lookup_cons, beq_self_eq_true]
      · simp only [hk, if_true, List.lookup_cons, beq_false_of_ne h, if_neg h]
    · by_cases h : other = key
      · have : ¬ other = name := fun same => hk (h.symm.trans same)
        simp only [if_neg hk, List.lookup_cons, beq_iff_eq.mpr h, if_neg this]
      · simp only [if_neg hk, List.lookup_cons, beq_false_of_ne h, ih]

namespace Object

def isFunction (o : Object) : Bool :=
  match o.form with
  | .function _ _ | .native _ => true
  | _ => false

def isArray (o : Object) : Bool :=
  match o.form with
  | .array _ _ => true
  | _ => false

/-- The length of an array, and of text in an object. -/
def length? (o : Object) : Option Property :=
  match o.form with
  | .array _ length => some (.data (.number length.toFloat) true)
  | .wrapper (.text u) => some (.data (.number u.length.toFloat) false)
  | _ => none

/-- The item of an array at a place, or the part of a text in an object. -/
def item? (o : Object) (place : Nat) : Option Value :=
  match o.form with
  | .array items _ => items[place]?
  | .wrapper (.text u) => u[place]?.map fun unit => .text [unit]
  | _ => none

/-- A property the object has itself. -/
def own? (o : Object) (name : String) : Option Property :=
  match o.properties.lookup name with
  | some p => some p
  | none => if name = "length" then o.length? else none

end Object

namespace Heap

/-- The property of an object at an address, or of the objects it has it from; `fuel` bounds their number. -/
def findFrom? (heap : Heap) (name : String) : Nat → Nat → Option Property
  | 0, _ => none
  | fuel + 1, address =>
    heap[address]?.bind fun o => (o.own? name).or (o.prototype?.bind (heap.findFrom? name fuel))

def find? (heap : Heap) (address : Nat) (name : String) : Option Property :=
  heap.findFrom? name (heap.size + 1) address

/-- What objects of an address are called, as far as it is said. -/
def tagFrom? (heap : Heap) : Nat → Nat → Option String
  | 0, _ => none
  | fuel + 1, address => heap[address]?.bind fun o => o.tag?.or (o.prototype?.bind (heap.tagFrom? fuel))

def tag? (heap : Heap) (address : Nat) : Option String := heap.tagFrom? (heap.size + 1) address

/-- Whether an object is among those that the object at an address has properties from, or is that object. -/
def leadsTo (heap : Heap) (target : Nat) : Nat → Nat → Bool
  | 0, _ => false
  | fuel + 1, address =>
    address == target ||
      match heap[address]?.bind Object.prototype? with
      | none => false
      | some prototype => heap.leadsTo target fuel prototype

def isFunction (heap : Heap) : Value → Bool
  | .object address => heap[address]?.any Object.isFunction
  | _ => false

def change (heap : Heap) (address : Nat) (f : Object → Object) : Heap := heap.modify address f

end Heap
end PocketReader.Script
