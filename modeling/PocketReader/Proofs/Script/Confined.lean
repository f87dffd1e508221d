import PocketReader.Proofs.Script.Effects
import PocketReader.Proofs.Script.Scripted

/-! The interpreter is confined: whatever world a run starts in, and however it ends, it leaves a world that the
effects of a script lead to, in which the page is held only if it was before. -/
namespace PocketReader.Script

/-- The effects of a script lead from one world to another, and in the end the page is held only if it was before. -/
def Leads (w last : World) : Prop := Effects w last ∧ last.held = w.held

theorem Leads.refl (w : World) : Leads w w := ⟨.refl, rfl⟩

theorem Leads.single {w last : World} (effect : Effect w last) (held : last.held = w.held) : Leads w last :=
  ⟨.single effect, held⟩

theorem Leads.trans {first second third : World} (early : Leads first second) (late : Leads second third) :
    Leads first third :=
  ⟨early.1.trans late.1, late.2.trans early.2⟩

theorem held_assignMarkup (w : World) (node : Handle) (source : String) :
    (w.assignMarkup node source).held = w.held := by
  unfold World.assignMarkup
  split
  · rfl
  · split
    · rfl
    · split <;> rfl

/-- Whatever world it starts in, a run leaves a world that the effects of a script lead to. -/
def Within {α : Type} (m : Run α) : Prop := ∀ w : World, Leads w (m.run.run w).2

theorem Within.bind {α β : Type} {m : Run α} {f : α → Run β} (first : Within m) (next : ∀ a, Within (f a)) :
    Within (m >>= f) := by
  intro w
  have start := first w
  rw [run_bind]
  rcases result : m.run.run w with ⟨outcome, after⟩
  rw [result] at start
  cases outcome with
  | ok a => exact start.trans (next a after)
  | error e => exact start

/-- The page is held while the run goes on, and then it is held again only if it was before. -/
theorem Within.holding {α : Type} {m : Run α} (inner : Within m) : Within (holding m) := by
  intro w
  have ran := (inner (w.hold true)).1
  have start : Effects w (w.hold true) := .single (.hold true)
  exact ⟨(start.trans ran).tail (.hold w.held), rfl⟩

theorem Scripted.within {α : Type} {m : Run α} (scripted : Scripted m) : Within m := by
  induction scripted with
  | pure a => exact fun w => .refl w
  | throw e => exact fun w => .refl w
  | bind _ _ first next => exact first.bind next
  | heap => exact fun w => .refl w
  | page => exact fun w => .refl w
  | memory read f => exact fun _ => .single (.memory f) rfl
  | console level line => exact fun _ => .single (.console level line) rfl
  | markup node source => exact fun w => .single (.markup node source) (held_assignMarkup w node source)
  | holding _ inner => exact inner.holding

namespace World

theorem leads_runPieces (w : World) (source : List PocketReader.Text.Piece) : Leads w (w.runPieces source).2 := by
  unfold runPieces
  split
  · exact .refl w
  · rename_i p _
    have ran := (scripted_run p).within w
    rcases result : p.run.run.run w with ⟨outcome, after⟩
    rw [result] at ran
    cases outcome with
    | ok _ => exact ran
    | error thrown =>
      have told := (scripted_tell thrown).within after
      dsimp only
      rcases result : thrown.tell.run.run after with ⟨outcome, last⟩
      rw [result] at told
      cases outcome with
      | ok _ => exact ran.trans told
      | error _ => exact ran.trans told

theorem leads_run (w : World) (source : ByteArray) : Leads w (w.run source).2 := by
  unfold World.run
  split
  · exact .refl w
  · exact leads_runPieces _ _

end World

theorem confined_heap : Engine.Confined Heap := by
  intro chance w source ended ran
  rw [← Option.some.inj ran]
  exact w.leads_run source

/-- The interpreter has no clock and draws no numbers. -/
theorem deterministic_heap : Engine.Deterministic Heap := fun _ _ => ⟨rfl, fun _ _ => rfl⟩

end PocketReader.Script
