import PocketReader.Proofs.Reader.Run
import PocketReader.Proofs.Script.Effects

/-! What becomes of a reader while the scripts of its page run. Every step is a job that scripts are given or a
warning, so what these two keep is kept by everything the reader does with its scripts. -/
namespace PocketReader

open PocketReader.Script (Chance Engine World)

/-- What a reader gives its scripts to do: it is noted what is run, that is run, and a failure is noted. -/
inductive Script.Job {γ : Type} [Engine γ] [Engine.Terminating γ] : (World γ → World γ) → Prop
  | snippet (chance : Chance) (label source : String) : Job fun w =>
    ((w.note (.evaluating source.toUTF8)).runSnippet chance label source).2
  | file (chance : Chance) (path : String) (source : ByteArray) : Job fun w =>
    match (w.note (.evaluating source)).evaluate chance source with
    | (.ok _, w) => w
    | (.error cause, w) => w.note (.warning (.scriptFileFailed path cause))

section

variable {γ : Type} [Engine γ] [Engine.Terminating γ] (chance : Chance) (w : World γ)

theorem Script.runSnippet_cases (label source : String) :
    (w.runSnippet chance label source).2 = (w.evaluate chance source.toUTF8).2 ∨
      ∃ cause, (w.runSnippet chance label source).2 =
        (w.evaluate chance source.toUTF8).2.note (.warning cause) := by
  unfold World.runSnippet
  rcases w.evaluate chance source.toUTF8 with ⟨outcome, last⟩
  cases outcome with
  | ok _ => exact .inl rfl
  | error cause => exact .inr ⟨.scriptFailed label cause, rfl⟩

theorem Script.runFile_cases (path : String) (source : ByteArray) :
    let after := match w.evaluate chance source with
      | (.ok _, last) => last
      | (.error cause, last) => last.note (.warning (.scriptFileFailed path cause))
    after = (w.evaluate chance source).2 ∨ ∃ cause, after = (w.evaluate chance source).2.note (.warning cause) := by
  rcases w.evaluate chance source with ⟨outcome, last⟩
  cases outcome with
  | ok _ => exact .inl rfl
  | error cause => exact .inr ⟨.scriptFileFailed path cause, rfl⟩

omit chance in
theorem Script.Job.cases {act : World γ → World γ} (job : Job act) :
    ∃ chance source, act w = ((w.note (.evaluating source)).evaluate chance source).2 ∨
      ∃ cause, act w = ((w.note (.evaluating source)).evaluate chance source).2.note (.warning cause) := by
  cases job with
  | snippet chance label source => exact ⟨chance, source.toUTF8, runSnippet_cases chance _ label source⟩
  | file chance path source => exact ⟨chance, source, runFile_cases chance _ path source⟩

theorem Script.Job.keeps {w : World γ} (confined : Engine.Confined γ) {act : World γ → World γ} (job : Job act) :
    (act w).parser = w.parser ∧ (act w).held = w.held := by
  obtain ⟨chance, source, ran | ⟨cause, warned⟩⟩ := job.cases w
  · rw [ran]
    exact confined.keeps chance _ source
  · rw [warned]
    exact confined.keeps chance _ source

end

namespace Reader

open PocketReader.Script (Job)

variable {δ σ γ : Type} [Engine γ] [Engine.Terminating γ]

inductive Stage : Reader δ σ γ → Reader δ σ γ → Prop
  | scripts (r : Reader δ σ γ) {act : World γ → World γ} : Job act → Stage r (r.withScripts act)
  | warning (r : Reader δ σ γ) (w : Warning) : Stage r (r.note (.warning w))

/-- A number of jobs and warnings. -/
abbrev Stages : Reader δ σ γ → Reader δ σ γ → Prop := Relation.ReflTransGen Stage

theorem stages_runSnippet (r : Reader δ σ γ) (label source : String) : r.Stages (r.runSnippet label source) :=
  .single (.scripts r (.snippet r.chance label source))

theorem stages_runRootAttribute (r : Reader δ σ γ) (label : String) (names : List String) :
    r.Stages (r.runRootAttribute label names) := by
  unfold runRootAttribute
  split
  · exact .refl
  · exact r.stages_runSnippet label _

theorem stages_leave (r : Reader δ σ γ) : r.Stages r.leave := by
  unfold leave
  split
  · exact r.stages_runRootAttribute _ _
  · exact .refl

section

variable [Storage σ]

theorem stages_runFile (r : Reader δ σ γ) (path : String) : r.Stages (r.runFile path) := by
  unfold runFile
  split
  · exact .refl
  · exact .single (.warning r _)
  · exact .single (.scripts r (.file r.chance path _))

theorem stages_runFiles (r : Reader δ σ γ) (paths : List String) : r.Stages (paths.foldl runFile r) := by
  induction paths generalizing r with
  | nil => exact .refl
  | cons path paths ih => exact (r.stages_runFile path).trans (ih _)

/-- A page that is taken up is put in place and given scripts; they run, and then its changes are taken notice of. -/
theorem enter_stages (r : Reader δ σ γ) (visit : Visit) (forest : Forest Content) :
    ∃ last, (r.replacePage visit forest).startScripts.Stages last ∧ r.enter visit forest = last.refreshIfMutated := by
  unfold enter
  dsimp only
  split
  · exact ⟨_, (stages_runFiles _ _).trans (stages_runRootAttribute _ _ _), rfl⟩
  · exact ⟨_, stages_runRootAttribute _ _ _, rfl⟩

end

/-- What the scripts of a page can reach after a job is what the job leaves. -/
theorem world_withScripts (confined : Engine.Confined γ) {r : Reader δ σ γ} {context : Script.Context γ}
    (found : r.script? = some context) {act : World γ → World γ} (job : Job act) :
    ∃ next, (r.withScripts act).script? = some next ∧ (r.withScripts act).world next = act (r.world context) := by
  have rebuilt : ∀ last : World γ, last.parser = r.parser → last.held = false →
      ({ context := last.context, document := last.document, parser := r.parser, log := last.log } : World γ) =
        last := by
    rintro ⟨context, document, parser, held, log⟩ rfl rfl
    rfl
  obtain ⟨parser, held⟩ := job.keeps (w := r.world context) confined
  unfold withScripts
  rw [found]
  exact ⟨_, rfl, rebuilt _ parser held⟩

/-- Scripts reach their own memory, the page and the log, and nothing else of the reader. -/
theorem Stage.frame {r t : Reader δ σ γ} (stage : r.Stage t) :
    ∃ script? document log, t = { r with script?, document, log } := by
  cases stage with
  | scripts job =>
    unfold withScripts
    split
    · exact ⟨r.script?, r.document, r.log, rfl⟩
    · exact ⟨_, _, _, rfl⟩
  | warning w => exact ⟨r.script?, r.document, _, rfl⟩

theorem Stages.frame {r t : Reader δ σ γ} (stages : r.Stages t) :
    ∃ script? document log, t = { r with script?, document, log } := by
  induction stages with
  | refl => exact ⟨r.script?, r.document, r.log, rfl⟩
  | tail _ stage ih =>
    obtain ⟨_, _, _, rfl⟩ := ih
    obtain ⟨script?, document, log, rfl⟩ := stage.frame
    exact ⟨script?, document, log, rfl⟩

theorem Stages.session {r t : Reader δ σ γ} (stages : r.Stages t) : t.session = r.session := by
  obtain ⟨_, _, _, rfl⟩ := stages.frame
  rfl

theorem Stages.setup {r t : Reader δ σ γ} (stages : r.Stages t) : t.toSetup = r.toSetup := by
  obtain ⟨_, _, _, rfl⟩ := stages.frame
  rfl

omit [Engine.Terminating γ] in
theorem session_startScripts (r : Reader δ σ γ) : r.startScripts.session = r.session := by
  unfold startScripts
  split <;> rfl

omit [Engine.Terminating γ] in
theorem setup_startScripts (r : Reader δ σ γ) : r.startScripts.toSetup = r.toSetup := by
  unfold startScripts
  split <;> rfl

omit [Engine γ] [Engine.Terminating γ] in
theorem setup_refreshIfMutated (r : Reader δ σ γ) : r.refreshIfMutated.toSetup = r.toSetup := by
  unfold refreshIfMutated
  split <;> rfl

section

variable [Storage σ]

theorem setup_enter (r : Reader δ σ γ) (visit : Visit) (forest : Forest Content) :
    (r.enter visit forest).toSetup = r.toSetup := by
  obtain ⟨last, stages, entered⟩ := r.enter_stages visit forest
  rw [entered, setup_refreshIfMutated, stages.setup, setup_startScripts]
  rfl

/-- A page that is taken up is shown from its top with nothing selected, also when its scripts changed it. -/
theorem scroll_enter (r : Reader δ σ γ) (visit : Visit) (forest : Forest Content) :
    (r.enter visit forest).session.scroll = r.session.scroll.reset := by
  obtain ⟨last, stages, entered⟩ := r.enter_stages visit forest
  have session : last.session = (r.replacePage visit forest).session := stages.session.trans (session_startScripts _)
  rw [entered]
  unfold refreshIfMutated
  split
  · -- Changes noticed here keep a selection and an offset, but there are none yet to keep.
    dsimp only
    rw [session]
    rfl
  · rw [session]
    rfl

theorem setup_load (r : Reader δ σ γ) (visit : Visit) : (r.load visit).2.toSetup = r.toSetup := by
  unfold load
  split
  · rfl
  · split
    · rfl
    · exact (setup_enter _ _ _).trans r.stages_leave.setup

theorem setup_act (r : Reader δ σ γ) : r.act.toSetup = r.toSetup := by
  refine act_keeps (P := fun t => t.toSetup = r.toSetup) rfl ?_ ?_ ?_
  · intro t source before
    exact (setup_refreshIfMutated _).trans ((stages_runSnippet _ _ _).setup.trans before)
  · intro t visit before
    exact (t.setup_load visit).trans before
  · intro t cause before
    exact before

variable [Display δ]

omit [Storage σ] [Engine γ] [Engine.Terminating γ] in
theorem setup_draw (r : Reader δ σ γ) : r.draw.2.toSetup = r.toSetup := by
  refine draw_keeps (P := fun t => t.toSetup = r.toSetup) (fun _ _ before => before) ?_ rfl
  intro t before
  unfold drawPage
  split <;> exact before

theorem setup_perform (r : Reader δ σ γ) (operation : Operation δ σ) : (r.perform operation).toSetup = r.toSetup := by
  cases operation with
  | goTo path => exact r.setup_load { path }
  | tick => exact (setup_draw _).trans (setup_act _)
  | request | publish | drain | outside => rfl

/-- What a reader is given for good it has after every run. -/
theorem setup_run (r : Reader δ σ γ) (operations : List (Operation δ σ)) : (r.run operations).toSetup = r.toSetup :=
  run_keeps (P := fun t => t.toSetup = r.toSetup) (fun t operation before => (t.setup_perform operation).trans before)
    rfl operations

end

end Reader
end PocketReader
