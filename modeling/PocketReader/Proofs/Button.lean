import PocketReader.Button

/-! Readings of one button in turn, and the events they give when nothing is in their way. -/
namespace PocketReader

/-- What a button was seen to be at some time. -/
structure Reading where
  button : Button
  pressed : Bool
  now : UInt64
  deriving DecidableEq

namespace Classifier

@[simp] theorem button_update (c : Classifier) (pressed : Bool) (now : UInt64) :
    (c.update pressed now).1.button = c.button := by
  unfold update
  split <;> rfl

theorem button_of_mem_update {c : Classifier} {pressed : Bool} {now : UInt64} {event : ButtonEvent}
    (given : event ∈ (c.update pressed now).2) : event.button = c.button := by
  unfold update at given
  split at given
  · rw [List.mem_singleton.mp given]
  · rcases List.mem_cons.mp given with rfl | last
    · rfl
    · rw [List.mem_singleton.mp last]
  · exact (List.not_mem_nil given).elim

/-- A classifier that is fed readings in turn, whichever button they are of, and all events it gives. -/
def updateAll (c : Classifier) : List Reading → Classifier × List ButtonEvent
  | [] => (c, [])
  | reading :: rest =>
    let (c, events) := c.update reading.pressed reading.now
    let (c, later) := c.updateAll rest
    (c, events ++ later)

theorem updateAll_cons (c : Classifier) (reading : Reading) (rest : List Reading) :
    c.updateAll (reading :: rest) =
      (((c.update reading.pressed reading.now).1.updateAll rest).1,
        (c.update reading.pressed reading.now).2 ++
        ((c.update reading.pressed reading.now).1.updateAll rest).2) := rfl

@[simp] theorem button_updateAll (c : Classifier) (readings : List Reading) :
    (c.updateAll readings).1.button = c.button := by
  induction readings generalizing c with
  | nil => rfl
  | cons reading rest ih => exact (ih _).trans (c.button_update _ _)

theorem updateAll_append (c : Classifier) (first second : List Reading) :
    c.updateAll (first ++ second) =
      (((c.updateAll first).1.updateAll second).1, (c.updateAll first).2 ++
        ((c.updateAll first).1.updateAll second).2) := by
  induction first generalizing c with
  | nil => rfl
  | cons reading rest ih => simp only [List.cons_append, updateAll, ih, List.append_assoc]

end Classifier
end PocketReader
