import PocketReader.Log
import PocketReader.Markup.Clean
import PocketReader.Page.Document
import PocketReader.Script.Heap

/-! What the scripts of a page can reach, whichever engine runs them. An engine keeps a memory for the scripts of one
page; the page it sees through handles, and it changes it by assigning markup. -/
namespace PocketReader.Script

structure Context (γ : Type := Heap) where
  memory : γ
  /-- Whether the page changed since this was last asked. -/
  mutated : Bool := false

structure World (γ : Type := Heap) where
  context : Context γ
  document : Document
  parser : Markup.Parser
  /-- Whether an element is being made of a node of the page; until it is, the page cannot be changed. -/
  held : Bool := false
  log : List LogEntry := []

/-- What is left to chance while a script runs: what the clock says, and numbers drawn at random. -/
abbrev Chance := Nat → Bool

/-- Engines by the memory they keep: what they start a page with, and how they run a source. Whatever a source did
before it failed stays done. -/
class Engine (γ : Type) where
  fresh : Chance → γ
  /-- Nothing comes of a source that runs for ever. -/
  run : Chance → World γ → ByteArray → Option (Except Error Unit × World γ)

/-- Every source comes to an end. -/
class Engine.Terminating (γ : Type) [Engine γ] : Prop where
  ends : ∀ (chance : Chance) (w : World γ) (source : ByteArray), (Engine.run chance w source).isSome

variable {γ : Type}

def Context.fresh [Engine γ] (chance : Chance) : Context γ := { memory := Engine.fresh chance }

/-- What is done in the world of some scripts, and may end with something thrown. -/
abbrev Task (γ ε : Type) := ExceptT ε (StateM (World γ))

namespace World

def note (w : World γ) (entry : LogEntry) : World γ := { w with log := w.log ++ [entry] }

def mapMemory (w : World γ) (f : γ → γ) : World γ :=
  { w with context := { w.context with memory := f w.context.memory } }

/-- Takes hold of the page, or lets go of it. -/
def hold (w : World γ) (held : Bool) : World γ := { w with held }

/-- Puts markup below a node. Markup that cannot be read is reported, and so is any other while the page is held; a
node that is gone stays gone. -/
def assignMarkup (w : World γ) (node : Handle) (source : String) : World γ :=
  match w.parser.read source with
  | .error cause => w.note (.warning (.markupRejected cause))
  | .ok forest =>
    if w.held then w.note (.warning .documentBusy)
    else
      match w.document.replaceChildren? node forest with
      | none => w
      | some document => { w with document, context := { w.context with mutated := true } }

/-- Whether the page changed since this was last asked. -/
def takeMutation (w : World γ) : Bool × World γ :=
  (w.context.mutated, { w with context := { w.context with mutated := false } })

section

variable [Engine γ] [Engine.Terminating γ]

/-- Runs a source to its end. -/
def evaluate (chance : Chance) (w : World γ) (source : ByteArray) : Except Error Unit × World γ :=
  (Engine.run chance w source).get (Engine.Terminating.ends chance w source)

/-- Runs a snippet of the page; a failure only leaves a warning. -/
def runSnippet (chance : Chance) (w : World γ) (label source : String) : Bool × World γ :=
  match w.evaluate chance source.toUTF8 with
  | (.ok _, w) => (true, w)
  | (.error cause, w) => (false, w.note (.warning (.scriptFailed label cause)))

def runFile {σ : Type} [Storage σ] (chance : Chance) (w : World γ) (files : σ) (path : String) :
    Except Error Unit × World γ :=
  match Storage.read files path with
  | .error cause => (.error (.storage path cause), w)
  | .ok source => w.evaluate chance source

end
end World

/-- The page as it is at a point of a run. -/
def page {ε : Type} : Task γ ε Document := return (← get).document

/-- Holds on to the page while something is done, however that ends. -/
def holding {ε α : Type} (task : Task γ ε α) : Task γ ε α := fun w =>
  let (outcome, after) := task (w.hold true)
  (outcome, after.hold w.held)

end PocketReader.Script
