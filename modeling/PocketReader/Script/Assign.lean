import PocketReader.Script.Convert

/-! Writing properties and variables. -/
namespace PocketReader.Script

open PocketReader.Text

inductive Place where
  /-- A value of the object itself. -/
  | value
  | arrayLength
  /-- A value that stays as it is. -/
  | fixed
  | setter (set : Setter)
  /-- Nothing, so that the property can be added. -/
  | vacant

namespace Heap

/-- What is in the way of a property of an object, in that object or in those it has properties from. -/
def obstacleFrom (heap : Heap) (name : String) : Nat → Nat → Place
  | 0, _ => .vacant
  | fuel + 1, address =>
    match heap[address]? with
    | none => .vacant
    | some o =>
      match o.own? name with
      | some (.accessor _ set) => .setter set
      | some (.data _ false) => .fixed
      | some (.data _ true) | none =>
        match o.prototype? with
        | none => .vacant
        | some prototype => heap.obstacleFrom name fuel prototype

def obstacle (heap : Heap) (name : String) (address : Nat) : Place := heap.obstacleFrom name (heap.size + 1) address

def place (heap : Heap) (v : Value) (name : String) : Place :=
  match v with
  | .object address =>
    match heap[address]? with
    | none => .vacant
    | some o =>
      match o.own? name with
      | some (.data _ true) => if o.isArray && name == "length" then .arrayLength else .value
      | _ => heap.obstacle name address
  | v =>
    match heap.prototype? v with
    | none => .vacant
    | some prototype => heap.obstacle name prototype

end Heap

def setInnerMarkup (node : Handle) (source : String) : Run Unit := modify fun w => w.assignMarkup node source

/-- Lets an object have the properties of another one. No object can have them from itself, and the object from which
the others have theirs has none from elsewhere. -/
def setPrototype (address : Nat) (prototype? : Option Nat) : Run Unit := do
  let heap ← heap
  if (heap[address]?.bind Object.prototype?) = prototype? then return
  else if address = Standard.objectPrototype then
    fail "'Immutable prototype object 'Object.prototype' cannot have their prototype set'"
  else if prototype?.any (heap.leadsTo address (heap.size + 1)) then fail "circular prototype chain"
  else change address fun o => { o with prototype? }

/-- The length of an array that a number stands for. -/
def arrayLength? (x : Float) : Option Nat :=
  if 0 ≤ x && x ≤ 4294967295 && x.floor == x then some x.toUInt64.toNat else none

section

variable (invoke : Invoke)

/-- A value as the length of an array; an object is made a number twice. -/
def toArrayLength (v : Value) : Run Nat := do
  let first ← toNumber invoke v
  let x ← match v with
    | .object _ => toNumber invoke v
    | _ => pure first
  match arrayLength? x with
  | some length => return length
  | none => fail "invalid array length"

def setArrayLength (address : Nat) (v : Value) : Run Unit := do
  let length ← toArrayLength invoke v
  change address fun o =>
    match o.form with
    | .array items _ => { o with form := .array (items.take length) length }
    | _ => o

/-- Writes a property that holds no value. -/
def Setter.write (target v : Value) : Setter → Run Unit
  | .forbidden => fail "invalid property access"
  | .markup node => do
    let source ← wholeText (← toText invoke v)
    setInnerMarkup node source
  | .function address => do
    let _ ← invoke (.object address) target [v]
  | .prototype =>
    match target, v with
    | .object address, .object other => setPrototype address (some other)
    | .object address, .null => setPrototype address none
    | _, _ => return

/-- Writes a property of an object, or one that is not there by `add`. -/
def write (target : Value) (name : String) (v : Value) (add : Run Unit) : Run Unit := do
  match (← heap).place target name, target with
  | .value, .object address => store address name v
  | .arrayLength, .object address => setArrayLength invoke address v
  | .fixed, _ => fail ("'" ++ shown name ++ "' is read-only")
  | .setter set, target => set.write invoke target v
  | _, _ => add

def setProperty (target : Value) (name : String) (v : Value) : Run Unit := do
  match target with
  | .undefined => fail ("cannot set property '" ++ shown name ++ "' of undefined")
  | .null => fail ("cannot set property '" ++ shown name ++ "' of null")
  | .object address => write invoke target name v (store address name v)
  | target => write invoke target name v (fail "not an object")

def writeVariable (name : String) (v : Value) : Run Unit := write invoke globals name v (undefinedName name)

end

/-- Whether a property has to stay what it is. -/
def Object.isSettled (o : Object) (name : String) : Bool :=
  match o.own? name with
  | none | some (.data _ true) => o.isArray && name == "length"
  | some (.data _ false) => !(o.isFunction && (name == "length" || name == "name"))
  | some (.accessor _ (.markup _)) => true
  | some (.accessor _ _) => false

/-- The property with another function that is called when it is written. -/
def Property.withSetter (f : Nat) : Option Property → Property
  | some (.accessor get? _) => .accessor get? (.function f)
  | _ => .accessor none (.function f)

/-- Lets an object call a function when a property of it is written. -/
def defineSetter (address : Nat) (name : String) (f : Nat) : Run Unit := do
  if (← heap)[address]?.any fun o => o.isSettled name then fail "property is not configurable"
  else change address fun o => { o with properties := setKey name (.withSetter f (o.own? name)) o.properties }

/-- Declares a variable, which keeps its value if it exists. -/
def declare (name : String) : Run Unit := do
  if ((← heap)[Standard.globals]?.bind fun o => o.own? name).isNone then store Standard.globals name .undefined

/-- A variable that is fixed cannot be a function. -/
def permitFunction (name : String) : Run Unit := do
  match (← heap)[Standard.globals]?.bind fun o => o.own? name with
  | some (.data _ false) => fail ("cannot define variable '" ++ shown name ++ "'")
  | _ => return

end PocketReader.Script
