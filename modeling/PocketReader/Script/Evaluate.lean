import PocketReader.Script.Builtin
import PocketReader.Script.Parser

/-! Running a script. Whatever it did before it failed stays done. -/
namespace PocketReader.Script

open PocketReader.Text

section

variable (invoke : Invoke) (receiver : Value)

mutual

/-- The value of an expression; parts are evaluated from left to right. -/
def evaluate : Expression → Run Value
  | .constant c => return c.value
  | .name name => readVariable name
  | .receiver => return receiver
  | .array items => do
    let items ← evaluateAll items
    makeArray items items.length
  | .record => makeObject .plain Standard.objectPrototype
  | .member object property => do
    let o ← evaluate object
    getProperty o property
  | .call (.member object property) arguments => do
    let o ← evaluate object
    let f ← getProperty o property
    let arguments ← evaluateAll arguments
    invoke f o arguments
  | .call callee arguments => do
    let f ← evaluate callee
    let arguments ← evaluateAll arguments
    invoke f .undefined arguments
  | .construct callee arguments => do
    let f ← evaluate callee
    let arguments ← evaluateAll arguments
    construct invoke f arguments
  | .sum left right => do
    let a ← evaluate left
    let b ← evaluate right
    add invoke a b
  | .positive e => do
    let v ← evaluate e
    let x ← toNumber invoke v
    return .number x
  | .negative e => do
    let v ← evaluate e
    let x ← toNumber invoke v
    return .number (-x)
  | .assign name value => do
    let known ← isVariable name
    let v ← evaluate value
    if known then writeVariable invoke name v else undefinedName name
    return v
  | .extend name value => do
    let old ← readVariable name
    let v ← evaluate value
    let v ← add invoke old v
    writeVariable invoke name v
    return v
  | .assignMember object property value => do
    let o ← evaluate object
    let v ← evaluate value
    setProperty invoke o property v
    return v
  | .extendMember object property value => do
    let o ← evaluate object
    let old ← getProperty o property
    let v ← evaluate value
    let v ← add invoke old v
    setProperty invoke o property v
    return v
  | .sequence first second => do
    let _ ← evaluate first
    evaluate second

def evaluateAll : List Expression → Run (List Value)
  | [] => return []
  | e :: rest => do
    let v ← evaluate e
    let others ← evaluateAll rest
    return v :: others

end

def perform : Statement → Run Unit
  | .declare _ none => return
  | .declare name (some value) => do
    let v ← evaluate invoke receiver value
    writeVariable invoke name v
  | .throw value => do
    let v ← evaluate invoke receiver value
    throw (.value v)
  | .evaluate value => do
    let _ ← evaluate invoke receiver value

def performAll : List Statement → Run Unit
  | [] => return
  | s :: rest => do
    perform invoke receiver s
    performAll rest

end

/-- Calls a value. A function of the page carries out its body and gives nothing; no more calls than the first
argument says are under way within this one. -/
def invoke : Nat → Invoke
  | 0, f, _, _ => do
    if (← heap).isFunction f then fail "Maximum call stack size exceeded" else fail "not a function"
  | depth + 1, f, receiver, arguments => do
    match (← heap).form? f with
    | some (.function body _) =>
      performAll (invoke depth) receiver body
      return .undefined
    | some (.native n) => callNative (invoke depth) n receiver arguments
    | _ => fail "not a function"

/-- As many calls can be under way at once. -/
def callDepth : Nat := 2000

def define (f : Function) : Run Unit := do
  let prototype ← allocate { form := .plain, prototype? := some Standard.objectPrototype }
  let address ← allocate
    { form := .function f.body f.text, prototype? := some Standard.functionPrototype
      properties :=
        [ ("length", .data (.number 0) false), ("name", .data (Standard.textValue f.name) false),
          ("prototype", .data (.object prototype) true) ] }
  store prototype "constructor" (.object address)
  store Standard.globals f.name (.object address)

/-- Functions and variables exist before the first statement. -/
def Program.run (p : Program) : Run Unit := do
  p.functions.forM fun f => permitFunction f.name
  p.functions.forM define
  (p.statements.filterMap Statement.declared?).forM declare
  performAll (invoke callDepth) globals p.statements

/-- What is told of something thrown that says nothing. -/
def silent : String := "non-error value thrown"

/-- What is told of something thrown: the message of an error, or text. -/
def Thrown.tell : Thrown → Run String
  | .error message | .value (.text message) => return message.toString?.getD silent
  | .value v => do
    match (← heap).form? v with
    | some .error =>
      match ← getProperty v "message" with
      | .undefined | .null => return silent
      | message => return (← toText (invoke callDepth) message).toString?.getD silent
    | _ => return silent

namespace World

def runPieces (w : World) (source : List Piece) : Except Error Unit × World :=
  match Program.read source with
  | .error fault => (.error (.exception (String.ofList (clipped fault.message))), w)
  | .ok p =>
    match p.run.run.run w with
    | (.ok _, w) => (.ok (), w)
    | (.error thrown, w) =>
      match thrown.tell.run.run w with
      | (.ok text, w) => (.error (.exception text), w)
      | (.error _, w) => (.error (.exception silent), w)

/-- Runs the contents of a file. A NUL is found before anything else is looked at. -/
def run (w : World) (source : ByteArray) : Except Error Unit × World :=
  match source.toList.findIdx? (· == 0) with
  | some position => (.error (.nul position), w)
  | none => w.runPieces (Piece.ofBytes 0 source.toList)

end World

instance : Engine Heap := ⟨fun _ => Standard.heap, fun _ w source => some (w.run source)⟩

instance : Engine.Terminating Heap := ⟨fun _ _ _ => rfl⟩

end PocketReader.Script
