import PocketReader.Script.Standard
import PocketReader.Script.World
import PocketReader.Text.Clip

/-! What scripts change while they run, and how a run can end. -/
namespace PocketReader.Script

open PocketReader.Text

inductive Thrown where
  | error (message : Units)
  | value (v : Value)

/-- A run ends with a result or with something thrown, and with the world as it is then. -/
abbrev Run := Task Heap Thrown

/-- How a function is called: with the object it is called on, and with arguments. -/
abbrev Invoke := Value → Value → List Value → Run Value

/-- A message of the evaluator has room for so many bytes. -/
def messageRoom : Nat := 255

/-- A name with a character beyond the first 128 has room for so many bytes in a message. -/
def nameRoom : Nat := 63

def shown (name : String) : String :=
  if name.toList.all fun c => c.toNat < 0x80 then name else String.ofList (clip nameRoom name.toList)

/-- A message, as far as there is room for it. -/
def clipped (message : String) : List Char := clip messageRoom message.toList

def fail {α : Type} (message : String) : Run α := throw (.error (Units.ofChars (clipped message)))

def undefinedName {α : Type} (name : String) : Run α := fail (shown name ++ " is not defined")

def report (entry : LogEntry) : Run Unit := modify fun w => w.note entry

def heap : Run Heap := return (← get).context.memory

def allocate (o : Object) : Run Nat :=
  modifyGet fun w => (w.context.memory.size, w.mapMemory fun heap => heap.push o)

/-- A fresh object without properties of its own. -/
def makeObject (form : Form) (prototype : Nat) : Run Value :=
  return .object (← allocate { form, prototype? := some prototype })

def makeArray (items : List Value) (length : Nat) : Run Value :=
  makeObject (.array items length) Standard.arrayPrototype

def change (address : Nat) (f : Object → Object) : Run Unit :=
  modify fun w => w.mapMemory fun heap => heap.change address f

/-- Gives an object a property, which can be written. -/
def store (address : Nat) (name : String) (v : Value) : Run Unit :=
  change address fun o => { o with properties := setKey name (.data v true) o.properties }

end PocketReader.Script
