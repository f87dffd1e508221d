import PocketReader.Proofs.Reader.History
import PocketReader.Proofs.Script.Trace

/-! Which page the scripts of a reader came to life with. They start with a page, live through what they are given to
do and what is noted, and end with the page; so they are those of the latest load, and the log tells which that is. -/
namespace PocketReader

open PocketReader.Script (Chance Engine World Job)

def LogEntry.isLoad : LogEntry → Bool
  | .loaded _ => true
  | .console .. | .warning _ | .evaluating _ => false

/-- How many pages were put in place, as the log tells. -/
def loads (log : List LogEntry) : Nat := log.countP LogEntry.isLoad

theorem loads_append_loaded (log : List LogEntry) (path : String) :
    loads (log ++ [.loaded path]) = loads log + 1 := by
  unfold loads
  rw [List.countP_append, List.countP_singleton]
  rfl

theorem loads_append_other (log : List LogEntry) {entry : LogEntry} (other : entry.isLoad = false) :
    loads (log ++ [entry]) = loads log := by
  unfold loads
  rw [List.countP_append, List.countP_singleton, other]
  rfl

theorem loads_trace (log : List LogEntry) : loads (trace log) = loads log := by
  unfold loads trace
  rw [List.countP_filter]
  refine List.countP_congr fun entry _ => ?_
  cases entry <;> simp [LogEntry.isLoad, LogEntry.isTraced]

namespace Script

variable {γ : Type}

theorem Effects.loads {w last : World γ} (effects : Effects w last) : loads last.log = loads w.log := by
  rw [← loads_trace, effects.trace, loads_trace]

variable [Engine γ] [Engine.Terminating γ]

/-- What the scripts of one page live through. -/
inductive Passes : World γ → World γ → Prop
  | job {w : World γ} {act : World γ → World γ} : Job act → Passes w (act w)
  | warning {w : World γ} (cause : Warning) : Passes w (w.note (.warning cause))
  /-- It is taken notice of what they changed. -/
  | noticed {w : World γ} : Passes w w.takeMutation.2

abbrev Lives : World γ → World γ → Prop := Relation.ReflTransGen Passes

/-- No script can make believe that a page was loaded. -/
theorem Job.loads (confined : Engine.Confined γ) {act : World γ → World γ} (job : Job act) (w : World γ) :
    loads (act w).log = loads w.log := by
  obtain ⟨chance, source, last⟩ := job.cases w
  have effects := confined.evaluate chance (w.note (.evaluating source)) source
  have ran := effects.loads.trans (loads_append_other w.log rfl)
  rcases last with last | ⟨cause, last⟩
  · rw [last]
    exact ran
  · rw [last]
    exact (loads_append_other _ rfl).trans ran

end Script

namespace Reader

open PocketReader.Script (Lives)

variable {δ σ γ : Type} [Engine γ] [Engine.Terminating γ]

omit [Engine.Terminating γ] in
/-- What the scripts of a page can reach when they start: fresh memory, and the page as it was put in place. -/
def beginning (parser : Markup.Parser) (chance : Chance) (earlier : List LogEntry) (path : String)
    (forest : Forest Content) : World γ :=
  { context := .fresh chance, document := .ofForest forest, parser, log := earlier ++ [.loaded path] }

/-- The latest load is the n-th, and the scripts came to life with it, knowing of nothing before. -/
structure OnLoad (r : Reader δ σ γ) (n : Nat) : Prop where
  loads : loads r.log = n
  life : ∀ context, r.script? = some context → ∃ chance earlier path forest,
    PocketReader.loads (earlier ++ [.loaded path]) = n ∧
      Lives (beginning r.parser chance earlier path forest) (r.world context)

theorem onLoad_start (setup : Setup) (display : δ) (files : σ) : (start γ setup display files).OnLoad 0 :=
  ⟨rfl, fun _ found => by cases found⟩

/-- The scripts that a page is given know of no page before it. -/
theorem onLoad_startScripts (r : Reader δ σ γ) (visit : Visit) (forest : Forest Content) :
    (r.replacePage visit forest).startScripts.OnLoad (loads r.log + 1) := by
  have counted : loads (r.log ++ [.loaded visit.path]) = loads r.log + 1 := loads_append_loaded r.log _
  unfold startScripts
  split
  · refine ⟨counted, ?_⟩
    intro context found
    have fresh : Script.Context.fresh _ = context := Option.some.inj found
    rw [← fresh]
    exact ⟨_, r.log, visit.path, forest, counted, .refl⟩
  · exact ⟨(loads_append_other _ rfl).trans counted, fun _ found => by cases found⟩

namespace OnLoad

variable {r : Reader δ σ γ} {n : Nat} (here : r.OnLoad n)

include here

theorem refreshIfMutated : r.refreshIfMutated.OnLoad n := by
  unfold Reader.refreshIfMutated
  split
  · rename_i memory found
    refine ⟨here.loads, ?_⟩
    intro context noticed
    obtain ⟨chance, earlier, path, forest, counted, life⟩ := here.life _ found
    rw [← Option.some.inj noticed]
    exact ⟨chance, earlier, path, forest, counted, life.tail .noticed⟩
  · exact here

/-- Neither buttons nor the taking of a request are anything to the scripts. -/
theorem taken_drain : r.drain.2.taken.OnLoad n := ⟨here.loads, here.life⟩

theorem draw [Display δ] : r.draw.2.OnLoad n := by
  refine draw_keeps (P := fun t => t.OnLoad n) (fun _ _ before => ⟨before.loads, before.life⟩) ?_ here
  intro t before
  unfold drawPage
  split
  · exact ⟨before.loads, before.life⟩
  · exact before

variable (confined : Engine.Confined γ)

include confined

theorem stage {t : Reader δ σ γ} (stage : r.Stage t) : t.OnLoad n := by
  cases stage with
  | @scripts act job =>
    cases found : r.script? with
    | none =>
      rw [withScripts, found]
      exact here
    | some context =>
      obtain ⟨next, started, left⟩ := world_withScripts confined found job
      have counted : PocketReader.loads (r.withScripts act).log = n :=
        (congrArg (fun w => PocketReader.loads w.log) left).trans ((job.loads confined _).trans here.loads)
      refine ⟨counted, ?_⟩
      intro last ran
      obtain ⟨chance, earlier, path, forest, opened, life⟩ := here.life context found
      have parser : (r.withScripts act).parser = r.parser := by rw [withScripts, found]
      rw [← Option.some.inj (started.symm.trans ran), left, parser]
      exact ⟨chance, earlier, path, forest, opened, life.tail (.job job)⟩
  | warning cause =>
    refine ⟨(loads_append_other _ rfl).trans here.loads, ?_⟩
    intro context found
    obtain ⟨chance, earlier, path, forest, counted, life⟩ := here.life context found
    exact ⟨chance, earlier, path, forest, counted, life.tail (.warning cause)⟩

theorem stages {t : Reader δ σ γ} (stages : r.Stages t) : t.OnLoad n := by
  induction stages with
  | refl => exact here
  | tail _ stage ih => exact ih.stage confined stage

variable [Storage σ]

theorem leave_enter (visit : Visit) (forest : Forest Content) : (r.leave.enter visit forest).OnLoad (n + 1) := by
  obtain ⟨last, stages, entered⟩ := r.leave.enter_stages visit forest
  have fresh := onLoad_startScripts r.leave visit forest
  rw [(here.stages confined r.stages_leave).loads] at fresh
  rw [entered]
  exact (fresh.stages confined stages).refreshIfMutated

theorem load (visit : Visit) : (r.load visit).2.OnLoad (if (r.load visit).1.isOk then n + 1 else n) := by
  rcases r.load_cases visit with ⟨cause, load⟩ | ⟨forest, load⟩
  · rw [load]
    exact here
  · rw [load]
    exact here.leave_enter confined visit forest

theorem act : ∃ m, r.act.OnLoad m := by
  refine act_keeps (P := fun t => ∃ m, t.OnLoad m) ⟨n, here.loads, here.life⟩ ?_ ?_ ?_
  · intro t source ⟨m, there⟩
    exact ⟨m, (there.stages confined (stages_runSnippet _ _ _)).refreshIfMutated⟩
  · intro t visit ⟨m, there⟩
    exact ⟨_, there.load confined visit⟩
  · intro t cause ⟨m, there⟩
    exact ⟨m, there.stage confined (.warning t (.loadFailed cause))⟩

variable [Display δ]

theorem perform (operation : Operation δ σ) : ∃ m, (r.perform operation).OnLoad m := by
  cases operation with
  | goTo path => exact ⟨_, here.load confined { path }⟩
  | tick =>
    have heard : r.drain.2.OnLoad n := ⟨here.loads, here.life⟩
    obtain ⟨m, met⟩ := heard.act confined
    exact ⟨m, met.draw⟩
  | request path | publish event | drain | outside display files obstacle? => exact ⟨n, here.loads, here.life⟩

end OnLoad

end Reader
end PocketReader
