import PocketReader.Display.Panel
import PocketReader.Proofs.Reader.History
import PocketReader.Proofs.Script.Confined
import PocketReader.Proofs.Script.Oblivious
import PocketReader.Proofs.Session.Unseen
import PocketReader.Storage.Memory

/-! What a page that is opened has of the pages before it: nothing. Two readers with the same settings that can read
the same are abreast as soon as they have put the same page in place, and from then on what they do with its scripts
keeps them so, whatever either went through before. Only what they logged before differs. -/
namespace PocketReader

open PocketReader.Script (Chance Engine World Job)

namespace Script

variable {γ : Type} [Engine γ] [Engine.Terminating γ] (oblivious : Engine.Oblivious γ)

include oblivious

theorem Job.after {act : World γ → World γ} (job : Job act) (w : World γ) (earlier : List LogEntry) :
    act (w.after earlier) = (act w).after earlier := by
  cases job with
  | snippet chance label source =>
    dsimp only
    unfold World.runSnippet
    rw [World.note_after, evaluate_after chance _ oblivious]
    rcases (w.note (.evaluating source.toUTF8)).evaluate chance source.toUTF8 with ⟨outcome, last⟩
    cases outcome with
    | ok _ => rfl
    | error cause => exact last.note_after earlier _
  | file chance path source =>
    dsimp only
    rw [World.note_after, evaluate_after chance _ oblivious]
    rcases (w.note (.evaluating source)).evaluate chance source with ⟨outcome, last⟩
    cases outcome with
    | ok _ => rfl
    | error cause => exact last.note_after earlier _

end Script

/-- Commands leave what is set for all pages. -/
theorem Scroll.Moves.reset {s t : Scroll} {entries : List Focus.Entry} (moves : s.Moves entries t) :
    t.reset = s.reset := by
  cases moves with
  | stay => rfl
  | @focus i entry _ =>
    have kept := congrArg Scroll.reset (s.unseen_focus i entry.extent)
    exact kept
  | nudge distance =>
    have kept := congrArg Scroll.reset (s.unseen_nudge distance)
    exact kept

theorem Session.reset_handleAll (s : Session) (d : Document) (events : List ButtonEvent) :
    (events.foldl (fun s event => (s.handle d event).2) s).scroll.reset = s.scroll.reset := by
  induction events generalizing s with
  | nil => rfl
  | cons event events ih =>
    have handled : (s.handle d event).2.scroll.reset = s.scroll.reset := by
      unfold Session.handle
      split
      · rfl
      · exact (s.moves_apply d _).reset
    exact (ih _).trans handled

namespace Reader

variable {δ σ γ δ' σ' : Type}

/-- The settings are these, and a scroll position that is made anew is the one they begin with. -/
structure Fitted (r : Reader δ σ γ) (settings : PageSettings) : Prop where
  same : r.settings = settings
  reset : r.session.scroll.reset = (Session.ofSettings settings).scroll

namespace Fitted

variable {r : Reader δ σ γ} {settings : PageSettings} (fitted : r.Fitted settings)

include fitted

theorem refreshIfMutated : r.refreshIfMutated.Fitted settings := by
  unfold Reader.refreshIfMutated
  split
  · exact ⟨fitted.same, fitted.reset⟩
  · exact fitted

variable [Engine γ] [Engine.Terminating γ]

theorem stages {t : Reader δ σ γ} (stages : r.Stages t) : t.Fitted settings := by
  obtain ⟨_, _, _, rfl⟩ := stages.frame
  exact ⟨fitted.same, fitted.reset⟩

theorem load [Storage σ] (visit : Visit) : (r.load visit).2.Fitted settings := by
  rcases r.load_cases visit with ⟨cause, load⟩ | ⟨forest, load⟩
  · rw [load]
    exact fitted
  · rw [load]
    have left := fitted.stages r.stages_leave
    refine ⟨(congrArg Setup.settings (setup_enter _ _ _)).trans left.same, ?_⟩
    rw [scroll_enter]
    exact left.reset

theorem act [Storage σ] : r.act.Fitted settings := by
  refine act_keeps (P := fun t => t.Fitted settings) ⟨fitted.same, fitted.reset⟩ ?_ ?_ ?_
  · intro t source before
    exact (before.stages (stages_runSnippet _ _ _)).refreshIfMutated
  · intro t visit before
    exact before.load visit
  · intro t cause before
    exact ⟨before.same, before.reset⟩

variable [Display δ]

omit [Engine γ] [Engine.Terminating γ] in
theorem draw : r.draw.2.Fitted settings := by
  refine draw_keeps (P := fun t => t.Fitted settings) (fun _ _ before => ⟨before.same, before.reset⟩) ?_ fitted
  intro t before
  unfold drawPage
  split
  · refine ⟨before.same, ?_⟩
    have seen := Layout.unseen_paint t.settings t.document t.session.scroll t.session.entries t.display
    exact (congrArg Scroll.reset seen).trans before.reset
  · exact before

theorem perform [Storage σ] (operation : Operation δ σ) : (r.perform operation).Fitted settings := by
  have heard : r.drain.2.Fitted settings := ⟨fitted.same, (r.session.reset_handleAll _ _).trans fitted.reset⟩
  cases operation with
  | goTo path => exact fitted.load { path }
  | drain => exact heard
  | tick => exact heard.act.draw
  | request | publish | outside => exact ⟨fitted.same, fitted.reset⟩

end Fitted

theorem fitted_run [Display δ] [Storage σ] [Engine γ] [Engine.Terminating γ] (setup : Setup) (display : δ) (files : σ)
    (operations : List (Operation δ σ)) : ((start γ setup display files).run operations).Fitted setup.settings :=
  run_keeps (P := fun r => r.Fitted setup.settings)
    (fun _ operation before => before.perform operation) ⟨rfl, rfl⟩ operations

/-- Two readers that have the same page, each with a log of its own from before and the same told since. What is left
to chance from then on makes no difference between them. -/
structure Abreast [Storage σ] [Storage σ'] [Engine γ] (earlier earlier' : List LogEntry) (r : Reader δ σ γ)
    (t : Reader δ' σ' γ) : Prop where
  reads : ∀ path, Storage.read r.files path = Storage.read t.files path
  parser : r.parser = t.parser
  draws : ∀ n, Engine.Alike γ (r.chances (earlier.length + n)) (t.chances (earlier'.length + n))
  document : r.document = t.document
  entries : r.session.entries = t.session.entries
  scroll : r.session.scroll = t.session.scroll
  title : r.title = t.title
  scripts : r.script? = t.script?
  told : ∃ told, r.log = earlier ++ told ∧ t.log = earlier' ++ told

section

variable [Storage σ] [Storage σ'] [Engine γ]

/-- Two readers that would read a path as the same page, and then leave the same to chance. -/
structure Ready (r : Reader δ σ γ) (t : Reader δ' σ' γ) : Prop where
  reads : ∀ path, Storage.read r.files path = Storage.read t.files path
  parser : r.parser = t.parser
  draws : ∀ n, Engine.Alike γ (r.chances (r.log.length + n)) (t.chances (t.log.length + n))

theorem abreast_replacePage {r : Reader δ σ γ} {t : Reader δ' σ' γ} {settings : PageSettings} (ready : r.Ready t)
    (fitted : r.Fitted settings) (fitted' : t.Fitted settings) (visit : Visit) (forest : Forest Content) :
    Abreast r.log t.log (r.replacePage visit forest) (t.replacePage visit forest) where
  reads := ready.reads
  parser := ready.parser
  draws := ready.draws
  document := rfl
  entries := rfl
  scroll := fitted.reset.trans fitted'.reset.symm
  title := by rw [replacePage, replacePage, fitted.same, fitted'.same]
  scripts := rfl
  told := ⟨[.loaded visit.path], rfl, rfl⟩

namespace Abreast

variable {earlier earlier' : List LogEntry} {r : Reader δ σ γ} {t : Reader δ' σ' γ}
  (abreast : Abreast earlier earlier' r t)

include abreast

theorem note (entry : LogEntry) : Abreast earlier earlier' (r.note entry) (t.note entry) := by
  obtain ⟨told, mine, other⟩ := abreast.told
  refine { abreast with told := ⟨told ++ [entry], ?_, ?_⟩ }
  · rw [Reader.note, mine, List.append_assoc]
  · rw [Reader.note, other, List.append_assoc]

/-- What is told after the logs from before decides where the next draw is taken from, and it is the same. -/
theorem draw (k : ℕ) : Engine.Alike γ (r.chances (r.log.length + k)) (t.chances (t.log.length + k)) := by
  obtain ⟨told, mine, other⟩ := abreast.told
  have drawn := abreast.draws (told.length + k)
  rw [mine, other, List.length_append, List.length_append, Nat.add_assoc, Nat.add_assoc]
  exact drawn

theorem withScripts {act act' : World γ → World γ} (same : ∀ w, act w = act' w)
    (after : ∀ w earlier, act (World.after earlier w) = (act w).after earlier) :
    Abreast earlier earlier' (r.withScripts act) (t.withScripts act') := by
  rw [← funext same]
  unfold Reader.withScripts
  rw [← abreast.scripts]
  split
  · exact abreast
  · rename_i context _
    obtain ⟨told, mine, other⟩ := abreast.told
    -- Each log is what was told since with another log in front, so one run of the act stands for both.
    have ran := after { context, document := r.document, parser := r.parser, log := told } earlier
    have ran' := after { context, document := r.document, parser := r.parser, log := told } earlier'
    unfold World.after at ran ran'
    unfold Reader.world
    dsimp only at ran ran' ⊢
    rw [← abreast.document, ← abreast.parser, mine, other, ran, ran']
    exact { abreast with document := rfl, scripts := rfl, told := ⟨_, rfl, rfl⟩ }

theorem refreshIfMutated : Abreast earlier earlier' r.refreshIfMutated t.refreshIfMutated := by
  unfold Reader.refreshIfMutated
  rw [← abreast.scripts]
  split
  · have scroll : (r.session.refresh r.document).scroll = (t.session.refresh t.document).scroll := by
      rw [Session.refresh, Session.refresh, Session.selectedNode?, Session.selectedNode?, abreast.document,
        abreast.entries, abreast.scroll]
    exact { abreast with entries := congrArg Focus.index abreast.document, scroll, scripts := rfl }
  · exact abreast

theorem startScripts (obstacle : r.obstacle? = t.obstacle?) :
    Abreast earlier earlier' r.startScripts t.startScripts := by
  unfold Reader.startScripts
  rw [← obstacle]
  split
  · have fresh := congrArg (fun memory => ({ memory } : Script.Context γ)) (abreast.draw 0).fresh
    exact { abreast with scripts := congrArg some fresh }
  · have without : Abreast earlier earlier' ({ r with script? := none } : Reader δ σ γ)
        { t with script? := none, obstacle? := r.obstacle? } :=
      { abreast with scripts := rfl }
    exact without.note _

variable [Engine.Terminating γ] (oblivious : Engine.Oblivious γ)

include oblivious

theorem runRootAttribute (label : String) (names : List String) :
    Abreast earlier earlier' (r.runRootAttribute label names) (t.runRootAttribute label names) := by
  unfold Reader.runRootAttribute rootAttribute?
  rw [← abreast.document]
  split
  · exact abreast
  · rename_i source _
    have drawn : Engine.Alike γ r.chance t.chance := abreast.draw 1
    refine abreast.withScripts (fun w => ?_) (Job.after oblivious (.snippet r.chance label source))
    rw [Script.runSnippet_of_alike _ drawn]

theorem runFile (path : String) : Abreast earlier earlier' (r.runFile path) (t.runFile path) := by
  unfold Reader.runFile
  rw [← abreast.reads]
  split
  · exact abreast
  · exact abreast.note _
  · rename_i source _
    have drawn : Engine.Alike γ r.chance t.chance := abreast.draw 1
    refine abreast.withScripts (fun w => ?_) (Job.after oblivious (.file r.chance path source))
    rw [Script.evaluate_of_alike _ drawn]

theorem runFiles (paths : List String) :
    Abreast earlier earlier' (paths.foldl Reader.runFile r) (paths.foldl Reader.runFile t) := by
  induction paths generalizing r t with
  | nil => exact abreast
  | cons path paths ih => exact ih (abreast.runFile oblivious path)

end Abreast

variable [Engine.Terminating γ]

theorem abreast_enter (oblivious : Engine.Oblivious γ) {r : Reader δ σ γ} {t : Reader δ' σ' γ}
    {settings : PageSettings} (ready : r.Ready t) (obstacle : r.obstacle? = t.obstacle?) (fitted : r.Fitted settings)
    (fitted' : t.Fitted settings) (visit : Visit) (forest : Forest Content) :
    Abreast r.log t.log (r.enter visit forest) (t.enter visit forest) := by
  have started := (abreast_replacePage ready fitted fitted' visit forest).startScripts obstacle
  unfold enter
  dsimp only
  rw [← started.scripts, ← started.document]
  split
  · exact ((started.runFiles oblivious _).runRootAttribute oblivious _ _).refreshIfMutated
  · exact (started.runRootAttribute oblivious _ _).refreshIfMutated

/-- Whether a page can be loaded depends on what can be read alone, and so does what is put in place. -/
theorem load_alike {r : Reader δ σ γ} {t : Reader δ' σ' γ}
    (reads : ∀ path, Storage.read r.files path = Storage.read t.files path) (parser : r.parser = t.parser)
    (visit : Visit) :
    (∃ cause, r.load visit = (.error cause, r) ∧ t.load visit = (.error cause, t)) ∨
      ∃ forest, r.load visit = (.ok (), r.leave.enter visit forest) ∧
        t.load visit = (.ok (), t.leave.enter visit forest) := by
  unfold load
  rw [← reads, ← parser]
  split
  · exact .inl ⟨_, rfl, rfl⟩
  · split
    · exact .inl ⟨_, rfl, rfl⟩
    · exact .inr ⟨_, rfl, rfl⟩

/-- After any two runs a page that is opened is the same page, whatever the parser reads it as: the same document,
entries and title, shown from its top with nothing selected, with scripts in the same state, which told the same since
the pages before were left. What was left to chance before need not be alike, but from then on it is. -/
theorem goTo_whatever_before [Display δ] [Display δ'] (oblivious : Engine.Oblivious γ) (setup : Setup)
    (chances : Nat → Chance) (display : δ) (display' : δ') (files : σ) (files' : σ')
    (operations : List (Operation δ σ)) (others : List (Operation δ' σ')) (path : String) :
    let r := (start γ setup display files).run operations
    let t := (start γ { setup with chances } display' files').run others
    (∀ n, Engine.Alike γ (setup.chances (r.leave.log.length + n)) (chances (t.leave.log.length + n))) →
      (∀ path, Storage.read r.files path = Storage.read t.files path) → r.obstacle? = t.obstacle? →
        (r.goTo path).1 = (t.goTo path).1 ∧
          ((r.goTo path).1 = .ok () →
            Abreast r.leave.log t.leave.log (r.goTo path).2 (t.goTo path).2 ∧
              (r.goTo path).2.session.scroll =
                { viewport := setup.settings.bodyHeight, step := setup.settings.scrollStep.toNat, offset := 0,
                  target := 0, selected? := none }) := by
  intro r t draws reads obstacle
  have fitted : r.leave.Fitted setup.settings :=
    (fitted_run setup display files operations).stages r.stages_leave
  have fitted' : t.leave.Fitted setup.settings :=
    (fitted_run { setup with chances } display' files' others).stages t.stages_leave
  have given : r.toSetup = setup := setup_run _ operations
  have given' : t.toSetup = { setup with chances } := setup_run _ others
  have parser : r.parser = t.parser := by rw [given, given']
  unfold goTo
  rcases load_alike reads parser { path } with ⟨cause, load, load'⟩ | ⟨forest, load, load'⟩
  · rw [load, load']
    refine ⟨rfl, ?_⟩
    intro succeeded
    cases succeeded
  · rw [load, load']
    refine ⟨rfl, ?_⟩
    intro _
    have kept : r.leave.toSetup = setup := r.stages_leave.setup.trans given
    have kept' : t.leave.toSetup = { setup with chances } := t.stages_leave.setup.trans given'
    obtain ⟨_, _, _, left⟩ := r.stages_leave.frame
    obtain ⟨_, _, _, left'⟩ := t.stages_leave.frame
    have ready : r.leave.Ready t.leave :=
      { reads := by rw [left, left']; exact reads
        parser := by rw [kept, kept']
        draws := by rw [kept, kept']; exact draws }
    have obstacle : r.leave.obstacle? = t.leave.obstacle? := by
      rw [left, left']
      exact obstacle
    exact ⟨abreast_enter oblivious ready obstacle fitted fitted' { path } forest,
      (scroll_enter _ _ _).trans fitted.reset⟩

end

/-- A page is opened from one that says something when it is left, with a button selected and its callback waiting,
and by a reader that shows no page yet and has other numbers to draw. -/
theorem goTo_whatever_before_first :
    let first := "<body onunload=\"console.log('bye')\"><button onclick=\"kept = 7\">go</button></body>"
    let second := "<head><script src=\"/s.js\"></script></head><body onload=\"console.log(kept)\"><a>two</a></body>"
    let files := ((Storage.Memory.insert {} "/a.3ml" first.toUTF8).insert "/b.3ml" second.toUTF8).insert "/s.js"
      "console.log('s')".toUTF8
    let panel : Panel := { width := 320, height := 170 }
    let setup : Setup := { parser := Markup.tagParser 12 }
    let chances : Nat → Chance := fun n bit => n == bit
    let operations := [.goTo "/a.3ml", .publish ⟨.next, .click⟩, .publish ⟨.next, .hold⟩, .drain,
      .outside panel files none]
    let r := (start Script.Heap setup panel files).run operations
    let t := (start Script.Heap { setup with chances } panel files).run []
    (Engine.Oblivious Script.Heap ∧
      (∀ n, Engine.Alike Script.Heap (setup.chances (r.leave.log.length + n)) (chances (t.leave.log.length + n))) ∧
      (∀ path, Storage.read r.files path = Storage.read t.files path) ∧ r.obstacle? = t.obstacle? ∧
      (r.goTo "/b.3ml").1 = .ok ()) ∧
    (r.loaded = true ∧ r.session.scroll.selected? = some 0 ∧ r.session.navigation.callback? = some "kept = 7" ∧
      t.loaded = false) ∧
    (r.goTo "/b.3ml").1 = (t.goTo "/b.3ml").1 ∧
    Abreast r.leave.log t.leave.log (r.goTo "/b.3ml").2 (t.goTo "/b.3ml").2 ∧
    (r.goTo "/b.3ml").2.session.scroll =
      { viewport := setup.settings.bodyHeight, step := setup.settings.scrollStep.toNat, offset := 0, target := 0,
        selected? := none } := by
  intro first second files panel setup chances operations r t
  have succeeded : (r.goTo "/b.3ml").1 = .ok () := by decide +kernel
  have draws : ∀ n, Engine.Alike Script.Heap (setup.chances (r.leave.log.length + n))
      (chances (t.leave.log.length + n)) := fun _ => Script.deterministic_heap _ _
  obtain ⟨same, page⟩ :=
    goTo_whatever_before Script.oblivious_heap setup chances panel panel files files operations []
    "/b.3ml" draws (fun _ => rfl) rfl
  obtain ⟨abreast, scroll⟩ := page succeeded
  refine ⟨⟨Script.oblivious_heap, draws, fun _ => rfl, rfl, succeeded⟩, by decide +kernel, same, abreast, ?_⟩
  subst r
  exact scroll

end Reader
end PocketReader
