import PocketReader.Display.Panel
import PocketReader.Proofs.Navigation
import PocketReader.Proofs.Reader.Run
import PocketReader.Proofs.Reader.Stages
import PocketReader.Script.Evaluate
import PocketReader.Storage.Memory

/-! What the reader knows of the pages it visited. A page that cannot be loaded leaves the reader as it is. A page is
entered among those visited when it is loaded, but the page gone back from is forgotten when going back is asked for;
so while the page in place stays, those visited become fewer and no others. -/
namespace PocketReader

namespace Session

theorem recedes_handle (s : Session) (d : Document) (event : ButtonEvent) :
    s.navigation.Recedes (s.handle d event).2.navigation := by
  unfold handle
  split
  · exact .refl _
  · rename_i command _
    cases command with
    | selectPrevious | selectNext => exact .refl _
    | interact => exact s.navigation.recedes_interact d _
    | goBack => exact s.navigation.recedes_goBack

theorem recedes_handleAll (s : Session) (d : Document) (events : List ButtonEvent) :
    s.navigation.Recedes (events.foldl (fun s event => (s.handle d event).2) s).navigation := by
  induction events generalizing s with
  | nil => exact .refl _
  | cons event events ih => exact (s.recedes_handle d event).trans (ih _)

theorem visited_handle (s : Session) (d : Document) {event : ButtonEvent} (other : event ≠ ⟨.previous, .hold⟩) :
    (s.handle d event).2.navigation.visited = s.navigation.visited := by
  obtain ⟨button, gesture⟩ := event
  cases button with
  | previous =>
    cases gesture with
    | hold => exact absurd rfl other
    | press | release | click => rfl
  | next =>
    cases gesture with
    | hold => exact s.navigation.visited_interact d _
    | press | release | click => rfl

theorem visited_handleAll (s : Session) (d : Document) {events : List ButtonEvent}
    (others : ⟨.previous, .hold⟩ ∉ events) :
    (events.foldl (fun s event => (s.handle d event).2) s).navigation.visited = s.navigation.visited := by
  induction events generalizing s with
  | nil => rfl
  | cons event events ih =>
    rw [List.mem_cons, not_or] at others
    exact (ih _ others.2).trans (s.visited_handle d (Ne.symm others.1))

end Session

namespace Reader

open PocketReader.Script (Engine World)

variable {δ σ γ : Type}

def visited (r : Reader δ σ γ) : List String := r.session.navigation.visited

def current? (r : Reader δ σ γ) : Option String := r.session.navigation.current?

theorem navigation_refreshIfMutated (r : Reader δ σ γ) :
    r.refreshIfMutated.session.navigation = r.session.navigation := by
  unfold refreshIfMutated
  split <;> rfl

theorem navigation_draw [Display δ] (r : Reader δ σ γ) : r.draw.2.session.navigation = r.session.navigation := by
  refine draw_keeps (P := fun t => t.session.navigation = r.session.navigation) (fun _ _ before => before) ?_ rfl
  intro t before
  unfold drawPage
  split <;> exact before

theorem recedes_drain (r : Reader δ σ γ) : r.session.navigation.Recedes r.drain.2.session.navigation :=
  r.session.recedes_handleAll r.document r.queue.events

section

variable [Engine γ] [Engine.Terminating γ]

variable [Storage σ]

theorem navigation_enter (r : Reader δ σ γ) (visit : Visit) (forest : Forest Content) :
    (r.enter visit forest).session.navigation = r.session.navigation.complete visit := by
  obtain ⟨last, stages, entered⟩ := r.enter_stages visit forest
  rw [entered, navigation_refreshIfMutated, stages.session, session_startScripts]
  rfl

/-- A load fails and does nothing, or it puts a page in place. -/
theorem load_cases (r : Reader δ σ γ) (visit : Visit) :
    (∃ cause, r.load visit = (.error cause, r)) ∨ ∃ forest, r.load visit = (.ok (), r.leave.enter visit forest) := by
  unfold load
  split
  · exact .inl ⟨_, rfl⟩
  · split
    · exact .inl ⟨_, rfl⟩
    · exact .inr ⟨_, rfl⟩

theorem load_of_error {r : Reader δ σ γ} {visit : Visit} {cause : LoadError}
    (failed : (r.load visit).1 = .error cause) :
    r.load visit = (.error cause, r) := by
  rcases r.load_cases visit with ⟨other, load⟩ | ⟨forest, load⟩
  · rw [load] at failed ⊢
    rw [Except.error.inj failed]
  · rw [load] at failed
    cases failed

/-- Whether a load fails depends on the files and the parser alone. -/
theorem outcome_load_taken (r : Reader δ σ γ) (visit : Visit) : (r.taken.load visit).1 = (r.load visit).1 := by
  have files : r.taken.files = r.files := rfl
  have parser : r.taken.parser = r.parser := rfl
  unfold load
  rw [files, parser]
  split
  · rfl
  · split <;> rfl

theorem act_of_pending {r : Reader δ σ γ} {visit : Visit} (asked : r.session.navigation.pending? = some visit) :
    r.act = afterLoad (r.taken.load visit) := by
  rw [act_eq, Navigation.take_of_pending asked]

theorem act_of_no_pending {r : Reader δ σ γ} (free : r.session.navigation.pending? = none) :
    r.act.session.navigation = r.taken.session.navigation := by
  rw [act_eq, Navigation.take_of_no_pending free]
  cases r.session.navigation.callback? with
  | none => rfl
  | some source =>
    exact (navigation_refreshIfMutated _).trans (congrArg Session.navigation (stages_runSnippet _ _ _).session)

theorem act_of_failed {r : Reader δ σ γ} {visit : Visit} {cause : LoadError}
    (asked : r.session.navigation.pending? = some visit) (failed : (r.load visit).1 = .error cause) :
    r.act = r.taken.note (.warning (.loadFailed cause)) := by
  rw [act_of_pending asked, load_of_error ((r.outcome_load_taken visit).trans failed)]
  rfl

/-- The load that is completed when the next request is met. -/
def met? (r : Reader δ σ γ) : Option Visit :=
  r.session.navigation.pending?.filter fun visit => (r.load visit).1.isOk

theorem navigation_act (r : Reader δ σ γ) :
    r.act.session.navigation = r.met?.elim r.taken.session.navigation r.taken.session.navigation.complete := by
  unfold met?
  cases asked : r.session.navigation.pending? with
  | none => exact act_of_no_pending asked
  | some visit =>
    rw [Option.filter_some]
    cases outcome : (r.load visit).1 with
    | error cause =>
      rw [act_of_failed asked outcome]
      rfl
    | ok =>
      rcases r.taken.load_cases visit with ⟨cause, load⟩ | ⟨forest, load⟩
      · rw [← outcome_load_taken, load] at outcome
        cases outcome
      · rw [act_of_pending asked, load, afterLoad, navigation_enter, (stages_leave _).session]
        rfl

section

variable [Display δ]

def heard (r : Reader δ σ γ) : Operation δ σ → List ButtonEvent
  | .drain | .tick => r.queue.events
  | .goTo _ | .request _ | .publish _ | .outside .. => []

/-- The load an operation completes. -/
def loaded? (r : Reader δ σ γ) : Operation δ σ → Option Visit
  | .goTo path => if (r.goTo path).1.isOk then some { path } else none
  | .tick => r.drain.2.met?
  | .request _ | .publish _ | .drain | .outside .. => none

theorem navigation_tick (r : Reader δ σ γ) :
    r.tick.2.session.navigation =
      r.drain.2.met?.elim r.drain.2.taken.session.navigation r.drain.2.taken.session.navigation.complete :=
  r.drain.2.act.navigation_draw.trans r.drain.2.navigation_act

theorem recedes_perform {r : Reader δ σ γ} {operation : Operation δ σ} (still : r.loaded? operation = none) :
    r.session.navigation.Recedes (r.perform operation).session.navigation := by
  cases operation with
  | goTo path =>
    rcases r.load_cases { path } with ⟨cause, load⟩ | ⟨forest, load⟩
    · rw [perform, goTo, load]
      exact .refl _
    · rw [loaded?, goTo, load] at still
      cases still
  | request path => exact r.session.navigation.recedes_requestLoad path
  | publish event => exact .refl _
  | drain => exact r.recedes_drain
  | tick =>
    rw [perform, navigation_tick, show r.drain.2.met? = none from still]
    exact r.recedes_drain.trans r.drain.2.session.navigation.recedes_take
  | outside display files obstacle? => exact .refl _

/-- Nothing else than holding the button for the previous entry makes the reader forget a page. -/
theorem visited_perform {r : Reader δ σ γ} {operation : Operation δ σ} (still : r.loaded? operation = none)
    (others : ⟨.previous, .hold⟩ ∉ r.heard operation) :
    (r.perform operation).visited = r.visited := by
  cases operation with
  | goTo path =>
    rcases r.load_cases { path } with ⟨cause, load⟩ | ⟨forest, load⟩
    · rw [perform, goTo, load]
    · rw [loaded?, goTo, load] at still
      cases still
  | request path => rfl
  | publish event => rfl
  | drain => exact r.session.visited_handleAll r.document others
  | tick =>
    have drained := r.session.visited_handleAll r.document others
    rw [perform, visited, navigation_tick, show r.drain.2.met? = none from still]
    exact r.drain.2.session.navigation.visited_take.trans drained
  | outside display files obstacle? => rfl

end

end

/-- The pages visited as they were when the latest load was completed, and whether going back was asked for since. -/
structure Trail where
  visited : List String
  wentBack : Bool := false

section

variable [Display δ] [Storage σ] [Engine γ] [Engine.Terminating γ]

def Trail.next (trail : Trail) (r : Reader δ σ γ) (operation : Operation δ σ) : Trail :=
  if (r.loaded? operation).isSome then { visited := (r.perform operation).visited }
  else { trail with wentBack := trail.wentBack || decide (⟨.previous, .hold⟩ ∈ r.heard operation) }

def Trail.run (trail : Trail) (r : Reader δ σ γ) : List (Operation δ σ) → Trail
  | [] => trail
  | operation :: operations => (trail.next r operation).run (r.perform operation) operations

end

/-- The latest page of a trail is in place, and the pages visited are what is left of the trail. -/
structure Follows (r : Reader δ σ γ) (trail : Trail) : Prop where
  current : trail.visited.head? = r.current?
  left : r.visited <:+ trail.visited
  all : trail.wentBack = false → r.visited = trail.visited
  back : r.session.navigation.BackToLatest

section

variable [Storage σ] [Engine γ] [Engine.Terminating γ]

theorem follows_goTo_start (setup : Setup) (display : δ) (files : σ) (path : String) :
    ((start γ setup display files).goTo path).2.Follows
      { visited := ((start γ setup display files).goTo path).2.visited } := by
  rcases (start γ setup display files).load_cases { path } with ⟨cause, load⟩ | ⟨forest, load⟩
  · rw [goTo, load]
    exact ⟨rfl, List.suffix_refl _, fun _ => rfl, Navigation.backToLatest_of_no_pending rfl⟩
  · rw [goTo, load]
    refine ⟨?_, List.suffix_refl _, fun _ => rfl, ?_⟩
    · rw [visited, current?, navigation_enter, (stages_leave _).session]
      rfl
    · rw [navigation_enter, (stages_leave _).session]
      exact Navigation.backToLatest_of_no_pending rfl

variable [Display δ]

theorem follows_tick_of_loaded {r : Reader δ σ γ} (latest : r.session.navigation.BackToLatest) {visit : Visit}
    (loaded : r.drain.2.met? = some visit) : r.tick.2.Follows { visited := r.tick.2.visited } := by
  obtain ⟨asked, -⟩ := Option.filter_eq_some_iff.mp loaded
  have drained : r.drain.2.session.navigation.BackToLatest := r.recedes_drain.back latest
  have after : r.tick.2.session.navigation = r.drain.2.session.navigation.take.2.complete visit := by
    rw [navigation_tick, loaded]
    rfl
  refine ⟨?_, List.suffix_refl _, fun _ => rfl, ?_⟩
  · rw [visited, current?, after]
    apply Navigation.latest_complete
    intro back
    rw [Navigation.visited_take, drained visit asked back]
  · rw [after, Navigation.take_of_pending asked]
    exact Navigation.backToLatest_of_no_pending rfl

variable {r : Reader δ σ γ} {trail : Trail} (follows : r.Follows trail)

include follows

theorem Follows.perform {operation : Operation δ σ} (inside : ∀ path, operation ≠ .goTo path) :
    (r.perform operation).Follows (trail.next r operation) := by
  unfold Trail.next
  cases loaded : r.loaded? operation with
  | none =>
    obtain ⟨current, visited, back⟩ := recedes_perform loaded
    rw [Option.isSome_none, if_neg Bool.false_ne_true]
    refine ⟨follows.current.trans current.symm, visited.trans follows.left, ?_, back follows.back⟩
    intro never
    rw [Bool.or_eq_false_iff, decide_eq_false_iff_not] at never
    exact (visited_perform loaded never.2).trans (follows.all never.1)
  | some visit =>
    rw [Option.isSome_some, if_pos rfl]
    cases operation with
    | goTo path => exact absurd rfl (inside path)
    | request | publish | drain | outside => cases loaded
    | tick => exact follows_tick_of_loaded follows.back loaded

theorem Follows.run {operations : List (Operation δ σ)}
    (inside : ∀ operation ∈ operations, ∀ path, operation ≠ .goTo path) :
    (r.run operations).Follows (trail.run r operations) := by
  induction operations generalizing r trail with
  | nil => exact follows
  | cons operation operations ih =>
    rw [List.forall_mem_cons] at inside
    exact ih (follows.perform inside.1) inside.2

end

/-- A load that fails leaves the page that is in place with all that belongs to it, and the pages visited. But going
back makes the reader forget a page before the load, and a load that fails does not bring it back. So after one
opening and any requests, events and ticks, the page in place is the latest of those visited unless going back was
asked for since it was loaded, and then those visited are what is left of the pages up to it. -/
theorem failed_load_keeps_page [Display δ] [Storage σ] [Engine γ] [Engine.Terminating γ] :
    (∀ (r : Reader δ σ γ) path cause, (r.goTo path).1 = .error cause → (r.goTo path).2 = r) ∧
    (∀ (r : Reader δ σ γ) visit cause, r.session.navigation.pending? = some visit → (r.load visit).1 = .error cause →
      r.act = { r with
        session := { r.session with
          navigation := { r.session.navigation with pending? := none, callback? := none } }
        log := r.log ++ [.warning (.loadFailed cause)] }) ∧
    (∀ (r : Reader δ σ γ) operation, r.loaded? operation = none → ⟨.previous, .hold⟩ ∉ r.heard operation →
      (r.perform operation).visited = r.visited) ∧
    ∀ setup (display : δ) (files : σ) path operations,
      (∀ operation ∈ operations, ∀ page, operation ≠ .goTo page) →
        let opened := ((start γ setup display files).goTo path).2
        let r := opened.run operations
        let trail := Trail.run { visited := opened.visited } opened operations
        (trail.wentBack = false → r.visited.head? = r.current?) ∧
          trail.visited.head? = r.current? ∧ r.visited <:+ trail.visited := by
  refine ⟨?_, ?_, ?_, ?_⟩
  · intro r path cause failed
    rw [goTo, load_of_error failed]
  · intro r visit cause asked failed
    rw [act_of_failed asked failed, taken, Navigation.take_of_pending asked]
    rfl
  · intro r operation still others
    exact visited_perform still others
  · intro setup display files path operations inside opened r trail
    have follows : r.Follows trail := (follows_goTo_start setup display files path).run inside
    refine ⟨?_, follows.current, follows.left⟩
    intro never
    rw [follows.all never]
    exact follows.current

/-- A page is asked for that is not there; the one before it stays, as the latest of two. -/
theorem failed_load_keeps_page_missing :
    let files :=
      (Storage.Memory.insert {} "/a.3ml" "<body>one</body>".toUTF8).insert "/b.3ml" "<body>two</body>".toUTF8
    let panel : Panel := { width := 320, height := 170 }
    let opened := ((start Script.Heap {} panel files).goTo "/a.3ml").2
    let asked := opened.run [.request "/b.3ml", .tick, .request "/c.3ml"]
    let operations := [.request "/b.3ml", .tick, .request "/c.3ml", .tick]
    let r := opened.run operations
    let trail := Trail.run { visited := opened.visited } opened operations
    let cause := LoadError.storage "/c.3ml" .notFound
    ((asked.load { path := "/c.3ml" }).1 = .error cause ∧
      asked.session.navigation.pending? = some { path := "/c.3ml" } ∧ asked.loaded? .tick = none ∧
      asked.heard .tick = [] ∧ trail.wentBack = false) ∧
    (r.visited = ["/b.3ml", "/a.3ml"] ∧ r.current? = some "/b.3ml") ∧
    (asked.goTo "/c.3ml").2 = asked ∧
    asked.act = { asked with
      session := { asked.session with
        navigation := { asked.session.navigation with pending? := none, callback? := none } }
      log := asked.log ++ [.warning (.loadFailed cause)] } ∧
    (asked.perform .tick).visited = asked.visited ∧
    r.visited.head? = r.current? ∧
    trail.visited.head? = r.current? ∧ r.visited <:+ trail.visited := by
  intro files panel opened asked operations r trail cause
  have failed : (asked.load { path := "/c.3ml" }).1 = .error cause := by decide +kernel
  have refused : (asked.goTo "/c.3ml").1 = .error cause := by
    rw [goTo]
    exact failed
  have pending : asked.session.navigation.pending? = some { path := "/c.3ml" } := by decide +kernel
  have still : asked.loaded? .tick = none := by decide +kernel
  have silent : asked.heard .tick = [] := by decide +kernel
  have others : ⟨.previous, .hold⟩ ∉ asked.heard .tick := by
    rw [silent]
    exact List.not_mem_nil
  have never : trail.wentBack = false := by decide +kernel
  have inside : ∀ operation ∈ operations, ∀ page, operation ≠ .goTo page := by
    intro operation member page opening
    subst opening
    simp [operations] at member
  obtain ⟨now, later, unheard, run⟩ := failed_load_keeps_page (δ := Panel) (σ := Storage.Memory) (γ := Script.Heap)
  obtain ⟨latest, left⟩ := run {} panel files "/a.3ml" operations inside
  refine ⟨⟨failed, pending, still, silent, never⟩, by decide +kernel, ?_, ?_, ?_, ?_, ?_⟩
  · exact now asked _ cause refused
  · exact later asked _ cause pending failed
  · exact unheard asked .tick still others
  · exact latest never
  · exact left

/-- Going back to a page that can no longer be parsed: the page gone back from stays in place, and is forgotten. -/
theorem failed_load_back_forgets_page :
    let files :=
      (Storage.Memory.insert {} "/a.3ml" "<body>one</body>".toUTF8).insert "/b.3ml" "<body>two</body>".toUTF8
    let spoilt := files.insert "/a.3ml" "<body><div></body>".toUTF8
    let panel : Panel := { width := 320, height := 170 }
    let opened := ((start Script.Heap {} panel files).goTo "/a.3ml").2
    let before := opened.run [.request "/b.3ml", .tick, .outside panel spoilt none]
    let after := before.run [.publish ⟨.previous, .hold⟩, .tick]
    (before.visited = ["/b.3ml", "/a.3ml"] ∧ before.current? = some "/b.3ml" ∧
      before.session.navigation.pending? = none) ∧
    (before.load { path := "/a.3ml", back := true }).1 = .error (.markup "/a.3ml" .unbalanced) ∧
    (after.loaded ∧ after.session.navigation.pending? = none) ∧
    after.current? = some "/b.3ml" ∧ after.visited = ["/a.3ml"] := by
  decide +kernel

end Reader
end PocketReader
