/-! Two buttons. A button gives presses and releases; how long it was down decides whether a release was a click or a
hold. -/
namespace PocketReader

inductive Button where
  | previous
  | next
  deriving DecidableEq

inductive Gesture where
  | press
  | release
  | click
  | hold
  deriving DecidableEq

structure ButtonEvent where
  button : Button
  gesture : Gesture
  deriving DecidableEq

/-- Watches one button; times are in milliseconds. -/
structure Classifier where
  button : Button
  threshold : UInt64
  pressedAt? : Option UInt64 := none
  deriving DecidableEq

namespace Classifier

def isPressed (c : Classifier) : Bool := c.pressedAt?.isSome

/-- The time between two readings of a clock; nothing when it went backwards. -/
def elapsed (since now : UInt64) : UInt64 := if since ≤ now then now - since else 0

/-- A press as long as the threshold is a hold. -/
def classify (c : Classifier) (since now : UInt64) : Gesture :=
  if c.threshold ≤ elapsed since now then .hold else .click

/-- The events of a reading; a button that was already so gives none. -/
def update (c : Classifier) (pressed : Bool) (now : UInt64) : Classifier × List ButtonEvent :=
  match pressed, c.pressedAt? with
  | true, none => ({ c with pressedAt? := some now }, [⟨c.button, .press⟩])
  | false, some since =>
    ({ c with pressedAt? := none }, [⟨c.button, c.classify since now⟩, ⟨c.button, .release⟩])
  | _, _ => (c, [])

end Classifier
end PocketReader
