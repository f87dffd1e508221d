import PocketReader.Script.Arithmetic
import PocketReader.Script.Assign
import PocketReader.Script.Describe
import PocketReader.Script.Element

/-! What the functions do that exist before any script runs. -/
namespace PocketReader.Script

open PocketReader.Text

/-- The argument at a place; the arguments end in undefined ones. -/
def argument (arguments : List Value) (place : Nat) : Value := arguments[place]?.getD .undefined

/-- Text without an account of what it holds. -/
def readable (u : Units) : List Char := (u.toString?.getD "").toList

section

variable (invoke : Invoke)

/-! Errors and arrays. -/

/-- A fresh error; nothing said is no message. -/
def makeError (prototype : Nat) (message : Value) : Run Value := do
  let own ← match message with
    | .undefined => pure []
    | v => pure [("message", Property.data (.text (← toText invoke v)) true)]
  return .object (← allocate { form := .error, prototype? := some prototype, properties := own })

def arrayOf (arguments : List Value) : Run Value := do
  match arguments with
  | [.number x] =>
    match arrayLength? x with
    | some length => makeArray [] length
    | none => fail "invalid array length"
  | items => makeArray items items.length

/-- Changes the items of an array by a function that also gives a result. -/
def onItems (receiver : Value) (f : List Value → Nat → Value × List Value × Nat) : Run Value := do
  match receiver, (← heap).form? receiver with
  | .object address, some (.array items length) =>
    let (result, items, length) := f items length
    change address fun o => { o with form := .array items length }
    return result
  | _, _ => return .undefined

/-- The items of an array together with its gaps. -/
def filled (items : List Value) (length : Nat) : List Value :=
  items ++ List.replicate (length - items.length) .undefined

def lengthValue (length : Nat) : Value := .number length.toFloat

def changeArray (n : Native) (receiver : Value) (arguments : List Value) : Run Value :=
  onItems receiver fun items length =>
    match n with
    | .push =>
      let all := filled items length ++ arguments
      (lengthValue all.length, all, all.length)
    | .unshift => (lengthValue (arguments.length + length), arguments ++ items, arguments.length + length)
    | .pop => (items[length - 1]?.getD .undefined, items.take (length - 1), length - 1)
    | .shift => (items.head?.getD .undefined, items.drop 1, length - 1)
    | .reverse => (receiver, (filled items length).reverse, length)
    | _ => (.undefined, items, length)

/-! Calls. -/

/-- Gives a value of a kind, and fails if there is none. -/
def expecting (receiver : Value) (kind : String) (is : Value → Bool) : Run Value := do
  let v ← unwrapped receiver
  if is v then return v else fail ("not a " ++ kind)

def describe : Value → Run Value
  | .symbol description? => return .text (symbolText description?)
  | v => return .text (← toText invoke v)

/-- The value that a function makes of its first argument; of none, `empty`. -/
def madeOf (arguments : List Value) (empty : Value) (make : Value → Run Value) : Run Value :=
  match arguments with
  | [] => return empty
  | v :: _ => make v

def numberValue (v : Value) : Run Value := return .number (← toNumber invoke v)

/-- The items of an array, as the arguments of a call. -/
def argumentsOf (v : Value) : Run (List Value) := do
  match v, (← heap).form? v with
  | .undefined, _ | .null, _ => return []
  | _, some (.array items length) => return filled items length
  | .object _, _ => return []
  | _, _ => fail "not a object"

/-- Puts the call of a function in the place of another. -/
def callThrough (f : Value) (receiver : Value) (arguments : Run (List Value)) : Run Value := do
  if (← heap).isFunction f then invoke f receiver (← arguments) else fail "not a function"

/-- Does what a function of the page or of the script language does. -/
def callNative (n : Native) (receiver : Value) (arguments : List Value) : Run Value := do
  let first := argument arguments 0
  let second := argument arguments 1
  match n with
  | .getElementById =>
    match first with
    | .text u => findElement invoke (← wholeText u)
    | _ => return .undefined
  | .console level =>
    let heap ← heap
    report (.console level (" ".intercalate (arguments.map (consoleText heap))))
    return .undefined
  | .nothing => return .undefined
  | .nothingOnObject =>
    let _ ← toObject receiver
    return .undefined
  | .nothingOnText => if receiver.isNothing then fail "null or undefined are forbidden" else return .undefined
  | .make prototype => makeObject .plain prototype
  | .makeOnly _ => fail "must be called with new"
  | .same => return first
  | .object => if first.isNothing then makeObject .plain Standard.objectPrototype else toObject first
  | .objectText => return .text (← objectText receiver)
  | .objectLocalText => callThrough invoke (← getProperty receiver "toString") receiver (return [])
  | .objectValue => toObject receiver
  | .hasOwnProperty =>
    let name ← toText invoke first
    match ← toObject receiver with
    | .object address =>
      let heap ← heap
      return .boolean ((name.toString?.bind fun s => heap[address]?.bind fun o => o.own? s).isSome)
    | _ => return .undefined
  | .isPrototypeOf =>
    match first, ← toObject receiver with
    | .object address, .object target =>
      let heap ← heap
      return .boolean ((heap[address]?.bind Object.prototype?).any (heap.leadsTo target (heap.size + 1)))
    | _, _ => return .boolean false
  | .defineSetter =>
    match ← toObject receiver, second with
    | .object address, .object f =>
      if (← heap).isFunction second then
        match (← toText invoke first).toString? with
        | none => return .undefined
        | some name =>
          defineSetter address name f
          return .undefined
      else fail "not a function"
    | _, _ => fail "not a function"
  | .function =>
    makeObject (.function [] (Units.ofString "function anonymous(\n) \x7b\n\n\x7d")) Standard.functionPrototype
  | .functionText => return .text (← functionText invoke receiver)
  | .call => callThrough invoke receiver first (return arguments.drop 1)
  | .apply => callThrough invoke receiver first (argumentsOf second)
  | .error prototype => makeError invoke prototype first
  | .errorText =>
    match receiver with
    | .object _ => return .text (← errorText invoke receiver)
    | _ => fail "not an object"
  | .errorOfMany prototype =>
    let e ← makeError invoke prototype second
    let _ ← getProperty first "Symbol.iterator"
    return e
  | .array => arrayOf arguments
  | .isArray =>
    match (← heap).form? first with
    | some (.array _ _) => return .boolean true
    | _ => return .boolean false
  | .arrayText => arrayText invoke (← toObject receiver)
  | .join => return .text (← join invoke receiver first)
  | .push | .pop | .shift | .unshift | .reverse => changeArray n receiver arguments
  | .text => madeOf arguments (.text []) (describe invoke)
  | .textValue => expecting receiver "string" Value.isText
  | .boolean => return .boolean first.truth
  | .booleanText => return .text (← toText invoke (← expecting receiver "boolean" Value.isBoolean))
  | .booleanValue => expecting receiver "boolean" Value.isBoolean
  | .number => madeOf arguments (.number 0) (numberValue invoke)
  | .numberText => return .text (← toText invoke (← expecting receiver "number" Value.isNumber))
  | .numberValue => expecting receiver "number" Value.isNumber
  | .symbol =>
    match first with
    | .undefined => return .symbol none
    | v => return .symbol (some (← toText invoke v))
  | .symbolText => describe invoke (← expecting receiver "symbol" Value.isSymbol)
  | .symbolValue => expecting receiver "symbol" Value.isSymbol
  | .bigInteger => fail "cannot convert to bigint"
  | .isNaN => return .boolean (← toNumber invoke first).isNaN
  | .isFinite => return .boolean (← toNumber invoke first).isFinite
  | .parseInteger =>
    let text ← toText invoke first
    match baseOf? (← toNumber invoke second) with
    | none => return .number notANumber
    | some base => return .number (parseInteger base (readable text))
  | .parseNumber => return .number (parseNumber (readable (← toText invoke first)))
  | .asText => return .text (← toText invoke first)
  | .patternText => return .text (Units.ofString "/(?:)/")
  | .withFunction => if (← heap).isFunction first then return .undefined else fail "not a function"
  | .arithmetic operation => return .number (operation.apply (← toNumber invoke first))
  | .extreme largest =>
    let numbers ← arguments.mapM (toNumber invoke)
    return .number (numbers.foldl (extremeOf largest) (if largest then -infinity else infinity))

/-- Makes an object with a function of the page or of the script language. -/
def constructNative (n : Native) (arguments : List Value) : Run Value := do
  let first := argument arguments 0
  match n with
  | .makeOnly prototype => makeObject .plain prototype
  | .text =>
    let u ← match arguments with
      | [] => pure []
      | v :: _ => toText invoke v
    makeObject (.wrapper (.text u)) Standard.textPrototype
  | .boolean => makeObject (.wrapper (.boolean first.truth)) Standard.booleanPrototype
  | .number =>
    let x ← madeOf arguments (.number 0) (numberValue invoke)
    makeObject (.wrapper x) Standard.numberPrototype
  | .object | .function | .array | .error _ | .errorOfMany _ | .make _ => callNative invoke n .undefined arguments
  | _ => fail "not a constructor"

/-- Makes an object with a function. A function of the page is called on a fresh object. -/
def construct (f : Value) (arguments : List Value) : Run Value := do
  match f, (← heap).form? f with
  | _, some (.function _ _) =>
    let prototype := match ← getProperty f "prototype" with
      | .object address => address
      | _ => Standard.objectPrototype
    let o ← makeObject .plain prototype
    let _ ← invoke f o arguments
    return o
  | _, some (.native n) => constructNative invoke n arguments
  | .object _, _ => fail "not a constructor"
  | _, _ => fail "not a function"

end
end PocketReader.Script
