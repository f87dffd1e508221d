import PocketReader.Page.Lookup
import PocketReader.Script.Assign

/-! Elements. An element is an object with the attributes of a node; markup below the node is written to it, and never
read. -/
namespace PocketReader.Script

/-- What an engine makes elements with. Setting a property may run what scripts said should be done then. -/
structure Objects (γ ε ω : Type) where
  /-- A fresh object without properties of its own. -/
  create : Task γ ε ω
  set : ω → String → String → Task γ ε Unit
  /-- Lets an object put markup below a node, under the name "innerHTML". -/
  acceptMarkup : ω → Handle → Task γ ε Unit

section

variable {γ ε ω : Type} (objects : Objects γ ε ω)

/-- A fresh object for a node. Attributes are set from the last to the first, each over the ones before, so that of
several of a name the first stays. -/
def makeElement (node : Handle) (c : Content) : Task γ ε ω := do
  let element ← objects.create
  c.attributes.reverse.forM fun (name, value) => objects.set element name value
  objects.acceptMarkup element node
  return element

/-- The nearest node of a name, with what it is. -/
def found? (d : Document) (id : String) : Option (Handle × Content) :=
  (d.findById? id).bind fun h => (d.get? h).map fun node => (h, node.content)

/-- A fresh object for the node of a name, if there is one. The page is held while the object is made. -/
def elementById (id : String) : Task γ ε (Option ω) := do
  match found? (← page) id with
  | none => return none
  | some (node, content) => return some (← holding (makeElement objects node content))

end

/-- The objects of the interpreter, by their addresses. -/
def heapObjects (invoke : Invoke) : Objects Heap Thrown Nat where
  create := allocate { form := .plain, prototype? := some Standard.objectPrototype }
  set address name value := setProperty invoke (.object address) name (Standard.textValue value)
  acceptMarkup address node :=
    change address fun o => { o with properties := setKey "innerHTML" (.accessor none (.markup node)) o.properties }

def findElement (invoke : Invoke) (id : String) : Run Value := do
  match ← elementById (heapObjects invoke) id with
  | none => return .undefined
  | some address => return .object address

end PocketReader.Script
