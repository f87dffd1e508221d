import Mathlib.Logic.Relation
import PocketReader.Script.World

/-! What a script can do to what it can reach. However a script runs and however it ends, it does a number of things
of four kinds, one after another: it changes the memory of its engine, it writes to the console, it assigns markup to
a node, and it holds the page while an element is made. What was logged before is nothing to it. -/
namespace PocketReader.Script

theorem run_bind {γ ε α β : Type} (task : Task γ ε α) (next : α → Task γ ε β) (w : World γ) :
    (task >>= next).run.run w =
      match task.run.run w with
      | (.ok a, after) => (next a).run.run after
      | (.error e, after) => (.error e, after) := by
  change (task.run >>= ExceptT.bindCont next).run w = _
  rw [StateT.run_bind]
  rcases task.run.run w with ⟨outcome, after⟩
  cases outcome <;> rfl

theorem run_bind_ok {γ ε α β : Type} {task : Task γ ε α} {a : α} {w after : World γ} (next : α → Task γ ε β)
    (ran : task.run.run w = (.ok a, after)) : (task >>= next).run.run w = (next a).run.run after := by
  rw [run_bind, ran]

/-- One thing that a script does. -/
inductive Effect {γ : Type} : World γ → World γ → Prop
  | memory {w : World γ} (f : γ → γ) : Effect w (w.mapMemory f)
  | console {w : World γ} (level : Level) (line : String) : Effect w (w.note (.console level line))
  | markup {w : World γ} (node : Handle) (source : String) : Effect w (w.assignMarkup node source)
  | hold {w : World γ} (held : Bool) : Effect w (w.hold held)

/-- A number of things that a script does. -/
abbrev Effects {γ : Type} : World γ → World γ → Prop := Relation.ReflTransGen Effect

/-- Scripts have no say in how markup is read. -/
theorem Effects.parser {γ : Type} {w last : World γ} (effects : Effects w last) : last.parser = w.parser := by
  induction effects with
  | refl => rfl
  | @tail before after _ effect ih =>
    rw [← ih]
    cases effect with
    | memory f | console level line | hold held => rfl
    | markup node source =>
      unfold World.assignMarkup
      split
      · rfl
      · split
        · rfl
        · split <;> rfl

/-- The same world with some entries logged before all others. -/
def World.after {γ : Type} (earlier : List LogEntry) (w : World γ) : World γ := { w with log := earlier ++ w.log }

namespace Engine

variable (γ : Type) [Engine γ]

/-- An engine whose scripts do nothing else, whatever they are given to run and whether or not it succeeds; in the end
the page is held only if it was before. -/
def Confined : Prop :=
  ∀ (chance : Chance) (w : World γ) (source : ByteArray), ∀ ended ∈ run chance w source,
    Effects w ended.2 ∧ ended.2.held = w.held

/-- An engine whose scripts do the same whatever was logged before they started. -/
def Oblivious : Prop :=
  ∀ (chance : Chance) (w : World γ) (earlier : List LogEntry) (source : ByteArray),
    run chance (w.after earlier) source = (run chance w source).map fun ended => (ended.1, ended.2.after earlier)

/-- Two draws that an engine does the same with. They may be the same draw, or the engine leaves nothing to chance. -/
structure Alike (chance chance' : Chance) : Prop where
  fresh : (fresh chance : γ) = fresh chance'
  run : ∀ (w : World γ) (source : ByteArray), run chance w source = run chance' w source

/-- An engine that leaves nothing to chance. -/
def Deterministic : Prop := ∀ chance chance', Alike γ chance chance'

end Engine

section

variable {γ : Type} [Engine γ] [Engine.Terminating γ] (chance : Chance) (w : World γ)

theorem run_eq_evaluate (source : ByteArray) : Engine.run chance w source = some (w.evaluate chance source) :=
  (Option.some_get _).symm

theorem Engine.Confined.evaluate (confined : Engine.Confined γ) (source : ByteArray) :
    Effects w (w.evaluate chance source).2 :=
  (confined chance w source _ (run_eq_evaluate chance w source)).1

/-- What a run leaves is read in the same way as before, and held only if it was. -/
theorem Engine.Confined.keeps (confined : Engine.Confined γ) (source : ByteArray) :
    (w.evaluate chance source).2.parser = w.parser ∧ (w.evaluate chance source).2.held = w.held :=
  ⟨(confined.evaluate chance w source).parser, (confined chance w source _ (run_eq_evaluate chance w source)).2⟩

theorem evaluate_after (oblivious : Engine.Oblivious γ) (earlier : List LogEntry) (source : ByteArray) :
    (w.after earlier).evaluate chance source =
      ((w.evaluate chance source).1, (w.evaluate chance source).2.after earlier) := by
  have ran := oblivious chance w earlier source
  rw [run_eq_evaluate, run_eq_evaluate, Option.map_some] at ran
  exact Option.some.inj ran

variable {chance}

theorem evaluate_of_alike {chance' : Chance} (alike : Engine.Alike γ chance chance') (source : ByteArray) :
    w.evaluate chance source = w.evaluate chance' source := by
  have ran := alike.run w source
  rw [run_eq_evaluate, run_eq_evaluate] at ran
  exact Option.some.inj ran

theorem runSnippet_of_alike {chance' : Chance} (alike : Engine.Alike γ chance chance') (label source : String) :
    w.runSnippet chance label source = w.runSnippet chance' label source := by
  unfold World.runSnippet
  rw [evaluate_of_alike w alike]

end

end PocketReader.Script
