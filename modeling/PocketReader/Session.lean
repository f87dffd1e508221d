import PocketReader.Button
import PocketReader.Navigation
import PocketReader.Scroll
import PocketReader.Settings

/-! What the buttons act on while a page is shown: the selection with its scroll position, and the requests for the
reader. -/
namespace PocketReader

inductive Command where
  | selectPrevious
  | selectNext
  | interact
  | goBack
  deriving DecidableEq

/-- Clicks move the selection; holding one button activates, holding the other goes back. -/
def Command.ofEvent? (event : ButtonEvent) : Option Command :=
  match event.button, event.gesture with
  | .previous, .click => some .selectPrevious
  | .next, .click => some .selectNext
  | .next, .hold => some .interact
  | .previous, .hold => some .goBack
  | _, _ => none

structure Session where
  scroll : Scroll
  navigation : Navigation := {}
  entries : List Focus.Entry := []
  deriving DecidableEq

namespace Session

def ofSettings (settings : PageSettings) : Session :=
  { scroll := { viewport := settings.bodyHeight, step := settings.scrollStep.toNat } }

def selectedNode? (s : Session) : Option Handle := s.scroll.selectedNode? s.entries

/-- For another document: nothing is selected and the page starts at its top. -/
def resetForLoad (s : Session) (d : Document) : Session :=
  { s with entries := Focus.index d, scroll := s.scroll.reset }

/-- For the same document after it changed: a selected node that is still there stays selected. -/
def refresh (s : Session) (d : Document) : Session :=
  let entries := Focus.index d
  let kept? := s.selectedNode?.bind fun h => entries.findIdx? (·.node == h)
  { s with entries, scroll := s.scroll.resetLayout entries.length kept? }

def apply (s : Session) (d : Document) : Command → Session
  | .selectPrevious => { s with scroll := s.scroll.previous s.entries }
  | .selectNext => { s with scroll := s.scroll.next s.entries }
  | .interact => { s with navigation := s.navigation.interact d s.selectedNode? }
  | .goBack => { s with navigation := s.navigation.goBack }

/-- The command an event stands for, if any, carried out. -/
def handle (s : Session) (d : Document) (event : ButtonEvent) : Option Command × Session :=
  match Command.ofEvent? event with
  | none => (none, s)
  | some command => (some command, s.apply d command)

end Session
end PocketReader
