import PocketReader.Page.Lookup

/-! Where the reader has been and what it is asked to do next. Input only leaves requests here; the reader takes one
of them each tick. -/
namespace PocketReader

/-- A page to be loaded; going back, the page is among those visited already. -/
structure Visit where
  path : String
  back : Bool := false
  deriving DecidableEq

structure Navigation where
  /-- The pages visited, the latest first. -/
  visited : List String := []
  current? : Option String := none
  pending? : Option Visit := none
  callback? : Option String := none
  deriving DecidableEq

namespace Navigation

inductive Action where
  | load (visit : Visit)
  | callback (source : String)
  deriving DecidableEq

/-- A callback that waits was meant for the page about to be left. -/
def await (n : Navigation) (visit : Visit) : Navigation := { n with pending? := some visit, callback? := none }

def requestLoad (n : Navigation) (path : String) : Navigation := n.await { path }

def requestCallback (n : Navigation) (source : String) : Navigation := { n with callback? := some source }

/-- A link asks for its page and a button for its callback. -/
def activate (n : Navigation) (content : Content) : Navigation :=
  match content.kind with
  | .link => (content.attribute? "href").elim n n.requestLoad
  | .button => (content.attribute? "onclick").elim n n.requestCallback
  | _ => n

def interact (n : Navigation) (d : Document) (selected? : Option Handle) : Navigation :=
  match selected?.bind d.get? with
  | none => n
  | some node => n.activate node.content

/-- Forgets the latest page and asks for the one before; with no page before it, nothing happens. -/
def goBack (n : Navigation) : Navigation :=
  match n.visited with
  | _ :: previous :: earlier =>
    { n with visited := previous :: earlier }.await { path := previous, back := true }
  | _ => n

/-- The request to be met now; a load comes before a callback and cancels it. -/
def take (n : Navigation) : Option Action × Navigation :=
  match n.pending? with
  | some visit => (some (.load visit), { n with pending? := none, callback? := none })
  | none => (n.callback?.map .callback, { n with callback? := none })

def complete (n : Navigation) (visit : Visit) : Navigation :=
  { n with
    visited := if visit.back then n.visited else visit.path :: n.visited
    current? := some visit.path }

end Navigation
end PocketReader
