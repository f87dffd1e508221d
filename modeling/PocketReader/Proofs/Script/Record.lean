import PocketReader.Proofs.Page.Reachable
import PocketReader.Proofs.Script.Effects

/-! What scripts do to the page. They change it by assigning markup alone, and a change is on record from then on,
also when the script that made it fails afterwards. -/
namespace PocketReader.Script

variable {γ : Type}

/-- The page is still one that can come about, and it is as it was unless a change is on record. -/
structure Recorded (before after : World γ) : Prop where
  reachable : before.document.Reachable → after.document.Reachable
  lasting : before.context.mutated = true → after.context.mutated = true
  kept : after.context.mutated = true ∨ after.document = before.document

namespace Recorded

theorem refl (w : World γ) : Recorded w w := ⟨id, id, .inr rfl⟩

theorem trans {first second third : World γ} (early : Recorded first second) (late : Recorded second third) :
    Recorded first third := by
  refine ⟨fun start => late.reachable (early.reachable start), fun start => late.lasting (early.lasting start), ?_⟩
  rcases late.kept with changed | same
  · exact .inl changed
  · rcases early.kept with changed | before
    · exact .inl (late.lasting changed)
    · exact .inr (same.trans before)

/-- What is logged is nothing to the page. -/
theorem note (w : World γ) (entry : LogEntry) : Recorded w (w.note entry) := ⟨id, id, .inr rfl⟩

end Recorded

theorem recorded_assignMarkup (w : World γ) (node : Handle) (source : String) :
    Recorded w (w.assignMarkup node source) := by
  unfold World.assignMarkup
  split
  · exact .note w _
  · rename_i forest _
    split
    · exact .note w _
    · split
      · exact .refl w
      · rename_i document result
        refine ⟨fun start => ?_, fun _ => rfl, .inl rfl⟩
        have next := start.replace node forest
        rwa [result, Option.getD_some] at next

theorem Effect.recorded {w next : World γ} (effect : Effect w next) : Recorded w next := by
  cases effect with
  | memory f => exact ⟨id, id, .inr rfl⟩
  | console level line => exact .note w _
  | markup node source => exact recorded_assignMarkup w node source
  | hold held => exact ⟨id, id, .inr rfl⟩

theorem Effects.recorded {w last : World γ} (effects : Effects w last) : Recorded w last := by
  induction effects with
  | refl => exact .refl w
  | tail _ effect ih => exact ih.trans effect.recorded

theorem recorded_evaluate [Engine γ] [Engine.Terminating γ] (confined : Engine.Confined γ) (chance : Chance)
    (w : World γ) (source : ByteArray) : Recorded w (w.evaluate chance source).2 :=
  (confined.evaluate chance w source).recorded

end PocketReader.Script
