import PocketReader.Display.Panel
import PocketReader.Proofs.Reader.Stages
import PocketReader.Proofs.Script.Confined
import PocketReader.Proofs.Session.Unseen
import PocketReader.Storage.Memory

/-! What is left of a reader when nobody sees the page. An operation makes of this what it makes of it with a display,
so two readers that differ in their displays alone, and in which of their frames are refused, do the same. -/
namespace PocketReader.Reader

open PocketReader.Script (Chance Engine World)

variable {δ σ γ : Type}

/-- Nobody sees the page, and something else is left to chance. -/
def unseen (chances : Nat → Chance) (r : Reader δ σ γ) : Reader Unit σ γ :=
  { r with display := (), session := r.session.unseen, chances }

def Operation.unseen : Operation δ σ → Operation Unit σ
  | .goTo path => .goTo path
  | .request path => .request path
  | .publish event => .publish event
  | .drain => .drain
  | .tick => .tick
  | .outside _ files obstacle? => .outside () files obstacle?

section

variable (chances : Nat → Chance)

theorem unseen_withScripts (r : Reader δ σ γ) (act : World γ → World γ) :
    (r.withScripts act).unseen chances = (r.unseen chances).withScripts act := by
  unfold withScripts
  rw [show (r.unseen chances).script? = r.script? from rfl]
  split <;> rfl

theorem unseen_refreshIfMutated (r : Reader δ σ γ) :
    r.refreshIfMutated.unseen chances = (r.unseen chances).refreshIfMutated := by
  unfold refreshIfMutated
  rw [show (r.unseen chances).script? = r.script? from rfl]
  split
  · rename_i memory _
    have session := r.session.unseen_refresh r.document
    exact congrArg
      (fun session => ({ r.unseen chances with script? := some { memory }, session } : Reader Unit σ γ)) session
  · rfl

theorem unseen_replacePage (r : Reader δ σ γ) (visit : Visit) (forest : Forest Content) :
    (r.replacePage visit forest).unseen chances = (r.unseen chances).replacePage visit forest := by
  have session := r.session.unseen_resetForLoad (Document.ofForest forest)
  exact congrArg
    (fun session : Session => ({ (r.unseen chances).replacePage visit forest with
      session := { session with navigation := r.session.navigation.complete visit } } : Reader Unit σ γ)) session

theorem unseen_drain (r : Reader δ σ γ) : (r.unseen chances).drain.2.unseen chances = r.drain.2.unseen chances := by
  have session := Session.unseen_handleAll r.session.unseen_unseen r.document r.queue.events
  exact congrArg (fun session => ({ r.unseen chances with queue := {}, session } : Reader Unit σ γ)) session

theorem unseen_drawPage [Display δ] (r : Reader δ σ γ) : r.drawPage.2.unseen chances = r.unseen chances := by
  unfold drawPage
  split
  · have session := r.session.unseen_paint r.settings r.document r.display
    exact congrArg (fun session => ({ r.unseen chances with session } : Reader Unit σ γ)) session
  · rfl

/-- However much of a frame is drawn, and whichever request is refused, nothing of it is left. -/
theorem unseen_draw [Display δ] (r : Reader δ σ γ) : r.draw.2.unseen chances = r.unseen chances :=
  draw_keeps (P := fun t => t.unseen chances = r.unseen chances) (fun _ _ before => before)
    (fun t before => (unseen_drawPage chances t).trans before) rfl

end

/-- The engine does the same with what is left to chance here as with something else. -/
def DrawsLike [Engine γ] (r : Reader δ σ γ) (chances : Nat → Chance) : Prop :=
  ∀ n, Engine.Alike γ (r.chances n) (chances n)

theorem DrawsLike.of_setup [Engine γ] {r t : Reader δ σ γ} {chances : Nat → Chance} (alike : r.DrawsLike chances)
    (same : t.toSetup = r.toSetup) : t.DrawsLike chances := by
  unfold DrawsLike
  rw [same]
  exact alike

section

variable [Engine γ] {chances : Nat → Chance} {r : Reader δ σ γ} (alike : r.DrawsLike chances)

include alike

theorem unseen_startScripts : r.startScripts.unseen chances = (r.unseen chances).startScripts := by
  unfold startScripts
  rw [show (r.unseen chances).obstacle? = r.obstacle? from rfl]
  split
  · have fresh : Script.Context.fresh (r.chances r.log.length) =
        (Script.Context.fresh (chances r.log.length) : Script.Context γ) :=
      congrArg (fun memory => ({ memory } : Script.Context γ)) (alike r.log.length).fresh
    exact congrArg (fun context => ({ r.unseen chances with script? := some context } : Reader Unit σ γ)) fresh
  · rfl

variable [Engine.Terminating γ]

theorem unseen_runSnippet (label source : String) :
    (r.runSnippet label source).unseen chances = (r.unseen chances).runSnippet label source := by
  have drawn : Engine.Alike γ r.chance (r.unseen chances).chance := alike (r.log.length + 1)
  have same : ∀ w : World γ,
      w.runSnippet r.chance label source = w.runSnippet (r.unseen chances).chance label source := fun w =>
    Script.runSnippet_of_alike w drawn label source
  rw [runSnippet, unseen_withScripts, runSnippet]
  exact congrArg (r.unseen chances).withScripts (funext fun w => congrArg Prod.snd (same _))

theorem unseen_runRootAttribute (label : String) (names : List String) :
    (r.runRootAttribute label names).unseen chances = (r.unseen chances).runRootAttribute label names := by
  unfold runRootAttribute
  rw [show (r.unseen chances).rootAttribute? names = r.rootAttribute? names from rfl]
  split
  · rfl
  · exact unseen_runSnippet alike label _

theorem unseen_leave : r.leave.unseen chances = (r.unseen chances).leave := by
  unfold leave
  rw [show (r.unseen chances).loaded = r.loaded from rfl]
  split
  · exact unseen_runRootAttribute alike _ _
  · rfl

variable [Storage σ]

theorem unseen_runFile (path : String) : (r.runFile path).unseen chances = (r.unseen chances).runFile path := by
  have drawn : Engine.Alike γ r.chance (r.unseen chances).chance := alike (r.log.length + 1)
  unfold runFile
  rw [show (r.unseen chances).files = r.files from rfl]
  split
  · rfl
  · rfl
  · rw [unseen_withScripts]
    refine congrArg (r.unseen chances).withScripts (funext fun w => ?_)
    rw [Script.evaluate_of_alike _ drawn]

theorem unseen_runFiles (paths : List String) :
    (paths.foldl runFile r).unseen chances = paths.foldl runFile (r.unseen chances) := by
  induction paths generalizing r with
  | nil => rfl
  | cons path paths ih =>
    rw [List.foldl_cons, List.foldl_cons, ih (alike.of_setup (r.stages_runFile path).setup), unseen_runFile alike]

theorem unseen_enter (visit : Visit) (forest : Forest Content) :
    (r.enter visit forest).unseen chances = (r.unseen chances).enter visit forest := by
  have placed : (r.replacePage visit forest).DrawsLike chances := alike
  have started := placed.of_setup (setup_startScripts (r.replacePage visit forest))
  unfold enter
  dsimp only
  rw [unseen_refreshIfMutated, ← unseen_replacePage, ← unseen_startScripts placed,
    show ∀ t : Reader δ σ γ, (t.unseen chances).script? = t.script? from fun _ => rfl]
  split
  · rw [unseen_runRootAttribute (started.of_setup (stages_runFiles _ _).setup), unseen_runFiles started]
    rfl
  · rw [unseen_runRootAttribute started]

theorem unseen_load (visit : Visit) :
    (r.unseen chances).load visit = ((r.load visit).1, (r.load visit).2.unseen chances) := by
  unfold load
  rw [show (r.unseen chances).files = r.files from rfl, show (r.unseen chances).parser = r.parser from rfl]
  split
  · rfl
  · split
    · rfl
    · rw [unseen_enter (alike.of_setup r.stages_leave.setup), unseen_leave alike]

theorem unseen_act : r.act.unseen chances = (r.unseen chances).act := by
  have taken : r.taken.DrawsLike chances := alike
  rw [act_eq, act_eq, show (r.unseen chances).session.navigation = r.session.navigation from rfl]
  cases r.session.navigation.take.1 with
  | none => rfl
  | some action =>
    cases action with
    | callback source =>
      dsimp only
      rw [unseen_refreshIfMutated, unseen_runSnippet taken]
      rfl
    | load visit =>
      dsimp only
      rw [show (r.unseen chances).taken = r.taken.unseen chances from rfl, unseen_load taken]
      rcases r.taken.load visit with ⟨outcome, after⟩
      cases outcome <;> rfl

variable [Display δ]

omit alike [Display δ] in
/-- What an operation makes of a reader when nobody sees the page. -/
def performUnseen (t : Reader Unit σ γ) : Operation Unit σ → Reader Unit σ γ
  | .goTo path => (t.goTo path).2
  | .request path => t.request path
  | .publish event => (t.publish event).2
  | .drain => t.drain.2.unseen t.chances
  | .tick => (t.drain.2.unseen t.chances).act
  | .outside _ files obstacle? => { t with files, obstacle? }

theorem unseen_perform (operation : Operation δ σ) :
    (r.perform operation).unseen chances = (r.unseen chances).performUnseen operation.unseen := by
  cases operation with
  | goTo path => exact (congrArg Prod.snd (unseen_load alike { path })).symm
  | request path => rfl
  | publish event => rfl
  | drain => exact (r.unseen_drain chances).symm
  | tick =>
    -- Without a display there is no frame to draw: the frame is what drops out on the left.
    have heard : r.drain.2.DrawsLike chances := alike
    change r.drain.2.act.draw.2.unseen chances = ((r.unseen chances).drain.2.unseen chances).act
    rw [unseen_draw, unseen_act heard, unseen_drain]
  | outside display files obstacle? => rfl

theorem unseen_run (operations : List (Operation δ σ)) :
    (r.run operations).unseen chances = (operations.map Operation.unseen).foldl performUnseen (r.unseen chances) := by
  induction operations generalizing r with
  | nil => rfl
  | cons operation operations ih =>
    rw [List.map_cons, List.foldl_cons, ← unseen_perform alike]
    exact ih (alike.of_setup (r.setup_perform operation))

end

/-- Two readers that do the same, whatever is seen of it. -/
structure SameCourse {δ' : Type} (r : Reader δ σ γ) (t : Reader δ' σ γ) : Prop where
  document : r.document = t.document
  navigation : r.session.navigation = t.session.navigation
  nodes : r.session.entries.map Focus.Entry.node = t.session.entries.map Focus.Entry.node
  selected : r.session.scroll.selected? = t.session.scroll.selected?
  title : r.title = t.title
  scripts : r.script? = t.script?
  log : r.log = t.log
  waiting : r.queue = t.queue
  loaded : r.loaded = t.loaded

theorem sameCourse_of_unseen {δ' : Type} {r : Reader δ σ γ} {t : Reader δ' σ γ} {chances : Nat → Chance}
    (same : r.unseen chances = t.unseen chances) : r.SameCourse t where
  document := congrArg Reader.document same
  navigation := congrArg (fun u => u.session.navigation) same
  nodes := by
    have nodes := congrArg (fun u => u.session.entries.map Focus.Entry.node) same
    exact (r.session.map_node_unseen.symm.trans nodes).trans t.session.map_node_unseen
  selected := congrArg (fun u => u.session.scroll.selected?) same
  title := congrArg Reader.title same
  scripts := congrArg Reader.script? same
  log := congrArg Reader.log same
  waiting := congrArg Reader.queue same
  loaded := congrArg Reader.loaded same

/-- Whatever two displays are like and whatever they refuse, after each of the same operations two readers differ in
nothing but what there is to be seen, if their engine does the same with what is left to chance for the one as for the
other. Whether the pages can be read, and as what, is up to any parser. -/
theorem run_whatever_display {δ' : Type} [Display δ] [Display δ'] [Storage σ] [Engine γ] [Engine.Terminating γ]
    (setup : Setup) (chances : Nat → Chance) (drawn : ∀ n, Engine.Alike γ (setup.chances n) (chances n)) (display : δ)
    (display' : δ') (files : σ) (operations : List (Operation δ σ)) (others : List (Operation δ' σ))
    (alike : operations.map Operation.unseen = others.map Operation.unseen) (n : Nat) :
    let r := (start γ setup display files).run (operations.take n)
    let t := (start γ { setup with chances } display' files).run (others.take n)
    r.unseen chances = t.unseen chances ∧ r.SameCourse t := by
  intro r t
  have here := unseen_run (r := start γ setup display files) drawn (operations.take n)
  have there : t.unseen chances = _ :=
    unseen_run (r := start γ { setup with chances } display' files) (fun _ => ⟨rfl, fun _ _ => rfl⟩) (others.take n)
  have same : r.unseen chances = t.unseen chances := by
    rw [List.map_take, alike, ← List.map_take] at here
    exact here.trans there.symm
  exact ⟨same, sameCourse_of_unseen same⟩

/-- A panel that refuses after two calls, and then a ready one, beside a panel that refuses nothing: the first never
measured the page whose link it follows. What is left to chance differs too. -/
theorem run_whatever_display_refusing :
    let index := "<body><h1>Top</h1><a href=\"/next.3ml\">on</a></body>".toUTF8
    let files := (Storage.Memory.insert {} "/index.3ml" index).insert "/next.3ml" "<body><a>one</a></body>".toUTF8
    let panel : Panel := { width := 320, height := 170 }
    let spent : Panel := { width := 320, height := 170, supply? := some 2 }
    let following (ready : Panel) : List (Operation Panel Storage.Memory) :=
      [.goTo "/index.3ml", .tick, .publish ⟨.next, .click⟩, .tick, .publish ⟨.next, .hold⟩, .outside ready files none,
        .tick]
    let setup : Setup := { parser := Markup.tagParser 12 }
    let chances : Nat → Chance := fun n bit => n == bit
    let r := (start Script.Heap setup panel files).run ((following panel).take 4)
    let t := (start Script.Heap { setup with chances } spent files).run ((following spent).take 4)
    ((∀ n, Engine.Alike Script.Heap (setup.chances n) (chances n)) ∧
      (following panel).map Operation.unseen = (following spent).map Operation.unseen) ∧
      (r.session.scroll.measured = true ∧ t.session.scroll.measured = false ∧ r.session.entries ≠ t.session.entries ∧
        r.session.scroll.selected? = some 0) ∧
      r.unseen chances = t.unseen chances ∧ r.SameCourse t := by
  intro index files panel spent following setup chances r t
  have drawn : ∀ n, Engine.Alike Script.Heap (setup.chances n) (chances n) :=
    fun _ => Script.deterministic_heap _ _
  have alike : (following panel).map Operation.unseen = (following spent).map Operation.unseen := rfl
  refine ⟨⟨drawn, alike⟩, by decide +kernel, ?_⟩
  exact run_whatever_display setup chances drawn panel spent files (following panel) (following spent) alike 4

end PocketReader.Reader
