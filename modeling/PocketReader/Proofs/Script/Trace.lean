import PocketReader.Proofs.Page.Head

/-! What of a run of scripts is on record. The log has an entry for each page that is put in place and for each source
that is run, and scripts cannot add to these; so it tells what the scripts of a page were given, in order. -/
namespace PocketReader

open PocketReader.Script (Chance Engine World)

/-- Pages that are put in place and sources that are run. -/
def LogEntry.isTraced : LogEntry → Bool
  | .loaded _ | .evaluating _ => true
  | .console .. | .warning _ => false

def trace (log : List LogEntry) : List LogEntry := log.filter LogEntry.isTraced

@[simp] theorem trace_append (log more : List LogEntry) : trace (log ++ more) = trace log ++ trace more :=
  List.filter_append log more

namespace Script

variable {γ : Type}

theorem trace_note (w : World γ) {entry : LogEntry} (other : entry.isTraced = false) :
    trace (w.note entry).log = trace w.log := by
  rw [World.note, trace_append, trace, trace, List.filter_singleton, other, cond_false, List.append_nil]

theorem trace_assignMarkup (w : World γ) (node : Handle) (source : String) :
    trace (w.assignMarkup node source).log = trace w.log := by
  unfold World.assignMarkup
  split
  · exact trace_note w rfl
  · split
    · exact trace_note w rfl
    · split <;> rfl

theorem Effects.trace {w last : World γ} (effects : Effects w last) : trace last.log = trace w.log := by
  induction effects with
  | refl => rfl
  | tail _ effect ih =>
    rw [← ih]
    cases effect with
    | memory f => rfl
    | console level line => exact trace_note _ rfl
    | markup node source => exact trace_assignMarkup _ node source
    | hold held => rfl

variable [Engine γ] [Engine.Terminating γ]

/-- The scripts of a page are given sources to run, one after another, whether or not they succeed; between them there
are warnings, and it is taken notice of what they changed. -/
inductive Hears (w : World γ) : List ByteArray → World γ → Prop
  | nothing : Hears w [] w
  | source {sources : List ByteArray} {last : World γ} (chance : Chance) (source : ByteArray) : Hears w sources last →
      Hears w (sources ++ [source]) ((last.note (.evaluating source)).evaluate chance source).2
  | warning {sources : List ByteArray} {last : World γ} (cause : Warning) : Hears w sources last →
      Hears w sources (last.note (.warning cause))
  | noticed {sources : List ByteArray} {last : World γ} : Hears w sources last → Hears w sources last.takeMutation.2

namespace Hears

variable {w last : World γ} {sources : List ByteArray} (hears : Hears w sources last)

include hears

/-- A run that fails is followed by a warning. -/
theorem run (chance : Chance) (source : ByteArray) {after : World γ}
    (ended : after = ((last.note (.evaluating source)).evaluate chance source).2 ∨
      ∃ cause, after = ((last.note (.evaluating source)).evaluate chance source).2.note (.warning cause)) :
    Hears w (sources ++ [source]) after := by
  rcases ended with rfl | ⟨cause, rfl⟩
  · exact hears.source chance source
  · exact (hears.source chance source).warning cause

variable (confined : Engine.Confined γ)

include confined

theorem trace : trace last.log = trace w.log ++ sources.map .evaluating := by
  induction hears with
  | nothing => exact (List.append_nil _).symm
  | @source sources last chance source _ ih =>
    have noted : PocketReader.trace (last.note (.evaluating source)).log =
        PocketReader.trace last.log ++ [.evaluating source] :=
      trace_append last.log _
    rw [Effects.trace (confined.evaluate chance _ source), noted, ih, List.map_append, List.append_assoc]
    rfl
  | warning cause _ ih => rw [trace_note _ rfl, ih]
  | noticed _ ih => exact ih

theorem document (reachable : w.document.Reachable) :
    last.document.Reachable ∧ last.document.forest.roots = w.document.forest.roots := by
  induction hears with
  | nothing => exact ⟨reachable, rfl⟩
  | @source sources last chance source _ ih =>
    have effects := confined.evaluate chance (last.note (.evaluating source)) source
    exact ⟨(Effects.recorded effects).reachable ih.1, (effects.roots ih.1).trans ih.2⟩
  | warning cause _ ih => exact ih
  | noticed _ ih => exact ih

end Hears

end Script

end PocketReader
