import PocketReader.Button

/-! The way from the buttons to the reader: a channel with little room, which drops what does not fit, and the pair of
classifiers that feed it. -/
namespace PocketReader

/-- Channels of events. Neither those who send nor those who receive ever wait. -/
class Channel (κ : Type) where
  empty : κ
  /-- Leaves an event; `false` when it was refused. -/
  trySend : κ → ButtonEvent → Bool × κ
  /-- Takes an event, if there is one. -/
  tryReceive : κ → Option ButtonEvent × κ
  /-- The events that are in it, the next one first. -/
  waiting : κ → List ButtonEvent

namespace Channel

def capacity : Nat := 8

variable {κ : Type} [Channel κ]

/-- Sends events in turn and counts those that were not refused. -/
def sendAll (channel : κ) : List ButtonEvent → Nat × κ
  | [] => (0, channel)
  | event :: rest =>
    let (accepted, channel) := trySend channel event
    let (count, channel) := sendAll channel rest
    ((if accepted then 1 else 0) + count, channel)

end Channel

/-- The channel of the reader. Events wait in it with the oldest in front. -/
structure EventQueue where
  events : List ButtonEvent := []
  deriving DecidableEq

namespace EventQueue

def offer (q : EventQueue) (event : ButtonEvent) : Bool × EventQueue :=
  if q.events.length < Channel.capacity then (true, ⟨q.events ++ [event]⟩) else (false, q)

def take (q : EventQueue) : Option ButtonEvent × EventQueue := (q.events.head?, ⟨q.events.tail⟩)

instance : Channel EventQueue where
  empty := {}
  trySend := offer
  tryReceive := take
  waiting := events

end EventQueue

structure Keypad (κ : Type) where
  previous : Classifier
  next : Classifier
  channel : κ
  deriving DecidableEq

namespace Keypad

variable {κ : Type}

/-- Both buttons share one threshold. -/
def withThreshold [Channel κ] (threshold : UInt64) : Keypad κ :=
  { previous := { button := .previous, threshold }, next := { button := .next, threshold }, channel := Channel.empty }

def classifier (k : Keypad κ) : Button → Classifier
  | .previous => k.previous
  | .next => k.next

def setClassifier (k : Keypad κ) (c : Classifier) : Button → Keypad κ
  | .previous => { k with previous := c }
  | .next => { k with next := c }

variable [Channel κ]

/-- Feeds one reading of one button; the count is of the events that found room. -/
def transition (k : Keypad κ) (button : Button) (pressed : Bool) (now : UInt64) : Nat × Keypad κ :=
  let (c, events) := (k.classifier button).update pressed now
  let (count, channel) := Channel.sendAll k.channel events
  (count, { k.setClassifier c button with channel })

def publish (k : Keypad κ) (event : ButtonEvent) : Bool × Keypad κ :=
  let (accepted, channel) := Channel.trySend k.channel event
  (accepted, { k with channel })

def receive (k : Keypad κ) : Option ButtonEvent × Keypad κ :=
  let (event?, channel) := Channel.tryReceive k.channel
  (event?, { k with channel })

end Keypad
end PocketReader
