import PocketReader.Proofs.Script.Effects
import PocketReader.Proofs.Script.Scripted

/-! The interpreter is oblivious: what was logged before a run changes neither what the run does nor what it gives. -/
namespace PocketReader.Script

section

variable {γ : Type} (earlier : List LogEntry) (w : World γ)

theorem World.note_after (entry : LogEntry) : (w.after earlier).note entry = (w.note entry).after earlier := by
  simp only [World.note, World.after, List.append_assoc]

theorem World.assignMarkup_after (node : Handle) (source : String) :
    (w.after earlier).assignMarkup node source = (w.assignMarkup node source).after earlier := by
  unfold World.assignMarkup
  rw [show (w.after earlier).parser = w.parser from rfl]
  split
  · exact w.note_after earlier _
  · rw [show (w.after earlier).held = w.held from rfl]
    split
    · exact w.note_after earlier _
    · rw [show (w.after earlier).document = w.document from rfl]
      split <;> rfl

end

/-- A run that gives the same and does the same whatever was logged before. -/
def Blind {α : Type} (m : Run α) : Prop :=
  ∀ (w : World) (earlier : List LogEntry),
    m.run.run (w.after earlier) = ((m.run.run w).1, (m.run.run w).2.after earlier)

theorem Blind.bind {α β : Type} {m : Run α} {f : α → Run β} (first : Blind m) (next : ∀ a, Blind (f a)) :
    Blind (m >>= f) := by
  intro w earlier
  rw [run_bind, run_bind, first w earlier]
  rcases m.run.run w with ⟨outcome, after⟩
  cases outcome with
  | ok a => exact next a after earlier
  | error e => rfl

theorem Blind.holding {α : Type} {m : Run α} (inner : Blind m) : Blind (holding m) := by
  intro w earlier
  have ran := inner (w.hold true) earlier
  exact congrArg (fun ended : Except Thrown α × World => (ended.1, ended.2.hold w.held)) ran

theorem Scripted.blind {α : Type} {m : Run α} (scripted : Scripted m) : Blind m := by
  induction scripted with
  | pure a => exact fun _ _ => rfl
  | throw e => exact fun _ _ => rfl
  | bind _ _ first next => exact first.bind next
  | heap => exact fun _ _ => rfl
  | page => exact fun _ _ => rfl
  | memory read f => exact fun _ _ => rfl
  | console level line => exact fun w earlier => congrArg (Prod.mk (Except.ok ())) (w.note_after earlier _)
  | markup node source =>
    exact fun w earlier => congrArg (Prod.mk (Except.ok ())) (w.assignMarkup_after earlier node source)
  | holding _ inner => exact inner.holding

namespace World

theorem runPieces_after (w : World) (earlier : List LogEntry) (source : List PocketReader.Text.Piece) :
    (w.after earlier).runPieces source = ((w.runPieces source).1, (w.runPieces source).2.after earlier) := by
  unfold runPieces
  split
  · rfl
  · rename_i p _
    rw [(scripted_run p).blind w earlier]
    rcases p.run.run.run w with ⟨outcome, after⟩
    cases outcome with
    | ok _ => rfl
    | error thrown =>
      dsimp only
      rw [(scripted_tell thrown).blind after earlier]
      rcases thrown.tell.run.run after with ⟨outcome, last⟩
      cases outcome <;> rfl

theorem run_after (w : World) (earlier : List LogEntry) (source : ByteArray) :
    (w.after earlier).run source = ((w.run source).1, (w.run source).2.after earlier) := by
  unfold World.run
  split
  · rfl
  · exact w.runPieces_after earlier _

end World

theorem oblivious_heap : Engine.Oblivious Heap :=
  fun _ w earlier source => congrArg some (w.run_after earlier source)

end PocketReader.Script
