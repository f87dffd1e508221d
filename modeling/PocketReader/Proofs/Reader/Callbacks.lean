import PocketReader.Display.Panel
import PocketReader.Proofs.Reader.Life
import PocketReader.Proofs.Script.Confined
import PocketReader.Storage.Memory

/-! Which page a callback belongs to and which page's scripts it runs in. A callback that waits was asked for on the
page in place, unless a page was opened directly since: a load that is asked for cancels what waits, but a page that
is opened leaves it waiting. -/
namespace PocketReader

open PocketReader.Script (Engine)

/-- What a button asks for when it is held. -/
def Content.callback? (content : Content) : Option String :=
  if content.kind = .button then content.attribute? "onclick" else none

namespace Navigation

theorem callback_activate (n : Navigation) (content : Content) {source : String}
    (waits : (n.activate content).callback? = some source) : content.callback?.or n.callback? = some source := by
  unfold activate at waits
  unfold Content.callback?
  cases kind : content.kind with
  | link =>
    simp only [kind] at waits
    cases href : content.attribute? "href" with
    | none =>
      rw [href] at waits
      exact waits
    | some path =>
      -- A load that is asked for cancels the callback.
      rw [href] at waits
      cases waits
  | button =>
    simp only [kind] at waits
    rw [if_pos rfl]
    cases onclick : content.attribute? "onclick" with
    | none =>
      rw [onclick] at waits
      exact waits
    | some asked =>
      rw [onclick] at waits
      exact waits
  | text | heading | container | body | head | script | title =>
    simp only [kind] at waits
    exact waits

theorem callback_interact (n : Navigation) (d : Document) (selected? : Option Handle) {source : String}
    (waits : (n.interact d selected?).callback? = some source) :
    ((selected?.bind d.get?).bind fun node => node.content.callback?).or n.callback? = some source := by
  unfold interact at waits
  cases found : selected?.bind d.get? with
  | none =>
    rw [found] at waits
    exact waits
  | some node =>
    rw [found] at waits
    exact n.callback_activate node.content waits

theorem callback_goBack (n : Navigation) {source : String} (waits : n.goBack.callback? = some source) :
    n.callback? = some source := by
  unfold goBack at waits
  split at waits
  · cases waits
  · exact waits

theorem callback_take (n : Navigation) : n.take.2.callback? = none := by
  unfold take
  split <;> rfl

theorem callback_of_take {n : Navigation} {source : String} (met : n.take.1 = some (.callback source)) :
    n.callback? = some source := by
  unfold take at met
  split at met
  · cases met
  · obtain ⟨asked, waits, same⟩ := Option.map_eq_some_iff.mp met
    rw [waits, Action.callback.inj same]

end Navigation

namespace Session

/-- The callback an event asks for: a held button stands for the one that has the focus. -/
def asks? (s : Session) (d : Document) (event : ButtonEvent) : Option String :=
  if Command.ofEvent? event = some .interact then
    (s.selectedNode?.bind d.get?).bind fun node => node.content.callback?
  else none

/-- The callback asked for last while some events are heard. -/
def lastAsked? (s : Session) (d : Document) : List ButtonEvent → Option String
  | [] => none
  | event :: events => ((s.handle d event).2.lastAsked? d events).or (s.asks? d event)

theorem callback_handle (s : Session) (d : Document) (event : ButtonEvent) {source : String}
    (waits : (s.handle d event).2.navigation.callback? = some source) :
    (s.asks? d event).or s.navigation.callback? = some source := by
  unfold handle at waits
  unfold asks?
  cases command : Command.ofEvent? event with
  | none =>
    rw [command] at waits
    exact waits
  | some command' =>
    rw [command] at waits
    cases command' with
    | selectPrevious | selectNext => exact waits
    | interact => exact s.navigation.callback_interact d _ waits
    | goBack => exact Navigation.callback_goBack _ waits

theorem callback_handleAll (s : Session) (d : Document) (events : List ButtonEvent) {source : String}
    (waits : (events.foldl (fun s event => (s.handle d event).2) s).navigation.callback? = some source) :
    (s.lastAsked? d events).or s.navigation.callback? = some source := by
  induction events generalizing s with
  | nil => exact waits
  | cons event events ih =>
    have later := ih _ waits
    rw [lastAsked?, Option.or_assoc]
    cases asked : (s.handle d event).2.lastAsked? d events with
    | none =>
      rw [asked] at later
      exact s.callback_handle d event later
    | some last =>
      rw [asked] at later
      exact later

end Session

namespace Reader

variable {δ σ γ : Type}

/-- A callback that was asked for, when so many pages had been put in place. -/
structure Callback where
  source : String
  load : Nat
  /-- Whether a page was opened directly since. -/
  openedOver : Bool := false
  deriving DecidableEq

/-- After so many loads, a callback that was asked for on the page in place, or on an earlier one that was opened
over. -/
def Callback.Due (c : Callback) (n : Nat) : Prop := if c.openedOver then c.load < n else c.load = n

theorem Callback.Due.le {c : Callback} {n : Nat} (due : c.Due n) : c.load ≤ n := by
  unfold Callback.Due at due
  split at due
  · exact due.le
  · exact due.le

/-- If a callback waits it is the one asked for last. -/
def Awaits (r : Reader δ σ γ) (last? : Option Callback) : Prop :=
  ∀ source, r.session.navigation.callback? = some source → ∃ c, last? = some c ∧ c.source = source ∧
  c.Due (loads r.log)

theorem awaits_of_no_callback {r : Reader δ σ γ} (free : r.session.navigation.callback? = none)
    (last? : Option Callback) :
    r.Awaits last? := by
  intro source waits
  rw [free] at waits
  cases waits

variable [Engine γ] [Engine.Terminating γ]

section

variable [Storage σ]

/-- The callback asked for last, when an operation has passed. -/
def Callback.latest? (last? : Option Callback) (r : Reader δ σ γ) : Operation δ σ → Option Callback
  | .goTo path => if (r.goTo path).1.isOk then last?.map fun c => { c with openedOver := true } else last?
  | .drain | .tick =>
    ((r.session.lastAsked? r.document r.queue.events).map fun source => { source, load := loads r.log }).or last?
  | .request _ | .publish _ | .outside .. => last?

namespace Awaits

variable {r : Reader δ σ γ} {last? : Option Callback} (awaits : r.Awaits last?)

include awaits

theorem drain : r.drain.2.Awaits (Callback.latest? last? r (.drain : Operation δ σ)) := by
  intro source waits
  have asked := r.session.callback_handleAll r.document r.queue.events waits
  unfold Callback.latest?
  cases last : r.session.lastAsked? r.document r.queue.events with
  | none =>
    rw [last, Option.none_or] at asked
    exact awaits source asked
  | some latest =>
    rw [last, Option.some_or] at asked
    exact ⟨{ source := latest, load := loads r.log }, rfl, Option.some.inj asked, rfl⟩

theorem goTo (confined : Engine.Confined γ) {n : Nat} (here : r.OnLoad n) (path : String) :
    (r.goTo path).2.Awaits (Callback.latest? last? r (.goTo path : Operation δ σ)) := by
  unfold Callback.latest? Reader.goTo
  dsimp only
  rcases r.load_cases { path } with ⟨cause, load⟩ | ⟨forest, load⟩
  · rw [load]
    exact awaits
  · rw [load]
    intro source waits
    -- Completing the load leaves the callback where it was, and now the page is a later one.
    rw [navigation_enter, (stages_leave _).session] at waits
    obtain ⟨c, last, asked, due⟩ := awaits source waits
    refine ⟨{ c with openedOver := true }, congrArg (Option.map _) last, asked, ?_⟩
    rw [(here.leave_enter confined { path } forest).loads]
    rw [here.loads] at due
    exact Nat.lt_succ_of_le due.le

end Awaits

variable [Display δ]

def Callback.latestOf? (last? : Option Callback) (r : Reader δ σ γ) : List (Operation δ σ) → Option Callback
  | [] => last?
  | operation :: operations => latestOf? (latest? last? r operation) (r.perform operation) operations

theorem callback_tick (r : Reader δ σ γ) : r.tick.2.session.navigation.callback? = none := by
  rw [navigation_tick]
  have taken : r.drain.2.taken.session.navigation.callback? = none := Navigation.callback_take _
  cases r.drain.2.met? with
  | none => exact taken
  | some visit => exact taken

namespace Awaits

variable {r : Reader δ σ γ} {last? : Option Callback} (awaits : r.Awaits last?)

include awaits

theorem perform (confined : Engine.Confined γ) {n : Nat} (here : r.OnLoad n) (operation : Operation δ σ) :
    (r.perform operation).Awaits (Callback.latest? last? r operation) := by
  cases operation with
  | goTo path => exact awaits.goTo confined here path
  | request path => exact awaits_of_no_callback rfl _
  | drain => exact awaits.drain
  | tick => exact awaits_of_no_callback r.callback_tick _
  | publish event | outside display files obstacle? => exact awaits

theorem run (confined : Engine.Confined γ) {n : Nat} (here : r.OnLoad n) (operations : List (Operation δ σ)) :
    (r.run operations).Awaits (Callback.latestOf? last? r operations) ∧ ∃ m, (r.run operations).OnLoad m := by
  induction operations generalizing r last? n with
  | nil => exact ⟨awaits, n, here⟩
  | cons operation operations ih =>
    obtain ⟨m, there⟩ := here.perform confined operation
    exact ih (awaits.perform confined here operation) there

end Awaits

/-- A callback that is met is the one asked for last. It runs in the scripts that came to life with the latest page,
which is the page it was asked for on, unless a page was opened directly since; then it runs in a later page's. -/
theorem callback_met_on_its_load (confined : Engine.Confined γ) (setup : Setup) (display : δ) (files : σ)
    (operations : List (Operation δ σ)) {source : String} :
    let first := start γ setup display files
    let heard := (first.run operations).drain.2
    let last? := Callback.latest? (Callback.latestOf? none first operations) (first.run operations) .tick
    heard.session.navigation.take.1 = some (.callback source) →
      ∃ n c, heard.taken.OnLoad n ∧ heard.act = (heard.taken.runSnippet "onclick" source).refreshIfMutated ∧
        last? = some c ∧ c.source = source ∧ (c.openedOver = false → c.load = n) ∧
        (c.openedOver = true → c.load < n) := by
  intro first heard last? met
  have free : first.Awaits none := awaits_of_no_callback rfl _
  obtain ⟨awaits, n, here⟩ := free.run confined (onLoad_start setup display files) operations
  have waits : heard.session.navigation.callback? = some source := Navigation.callback_of_take met
  obtain ⟨c, last, asked, due⟩ := awaits.drain source waits
  rw [show heard.log = (first.run operations).log from rfl, here.loads] at due
  refine ⟨n, c, here.taken_drain, ?_, last, asked, ?_, ?_⟩
  · rw [act_eq, met]
  · intro stayed
    rwa [Callback.Due, stayed, if_neg Bool.false_ne_true] at due
  · intro opened
    rwa [Callback.Due, opened, if_pos rfl] at due

end

/-- A button is held and the tick that follows runs its callback. -/
theorem callback_met_on_its_load_held :
    let files :=
      Storage.Memory.insert {} "/a.3ml" "<body><button onclick=\"console.log('a')\">go</button></body>".toUTF8
    let panel : Panel := { width := 320, height := 170 }
    let operations := [.goTo "/a.3ml", .publish ⟨.next, .click⟩, .publish ⟨.next, .hold⟩]
    let first := start Script.Heap {} panel files
    let heard := (first.run operations).drain.2
    let last? := Callback.latest? (Callback.latestOf? none first operations) (first.run operations) .tick
    Engine.Confined Script.Heap ∧ heard.session.navigation.take.1 = some (.callback "console.log('a')") ∧
      last? = some { source := "console.log('a')", load := 1 } ∧
      ∃ n c, heard.taken.OnLoad n ∧
        heard.act = (heard.taken.runSnippet "onclick" "console.log('a')").refreshIfMutated ∧
        last? = some c ∧ c.source = "console.log('a')" ∧ (c.openedOver = false → c.load = n) ∧
        (c.openedOver = true → c.load < n) := by
  intro files panel operations first heard last?
  have met : heard.session.navigation.take.1 = some (.callback "console.log('a')") := by decide +kernel
  refine ⟨Script.confined_heap, met, by decide +kernel, ?_⟩
  exact callback_met_on_its_load Script.confined_heap {} panel files operations met

/-- A button is held, and before a tick another page is opened: what the first page asked for runs in the scripts that
came to life with the second. -/
theorem callback_met_on_later_load :
    let files := (Storage.Memory.insert {} "/a.3ml"
      "<body><button onclick=\"console.log('a')\">go</button></body>".toUTF8).insert "/b.3ml"
        "<body>two</body>".toUTF8
    let panel : Panel := { width := 320, height := 170 }
    let operations := [.goTo "/a.3ml", .publish ⟨.next, .click⟩, .publish ⟨.next, .hold⟩, .drain, .goTo "/b.3ml"]
    let first := start Script.Heap {} panel files
    let heard := (first.run operations).drain.2
    (heard.current? = some "/b.3ml" ∧ heard.session.navigation.take.1 = some (.callback "console.log('a')")) ∧
    Callback.latestOf? none first operations = some { source := "console.log('a')", load := 1, openedOver := true } ∧
    (heard.taken.script?.isSome = true ∧ heard.taken.OnLoad 2) ∧
    heard.act = (heard.taken.runSnippet "onclick" "console.log('a')").refreshIfMutated := by
  intro files panel operations first heard
  have met : heard.session.navigation.take.1 = some (.callback "console.log('a')") := by decide +kernel
  have free : first.Awaits none := awaits_of_no_callback rfl _
  obtain ⟨-, n, here⟩ := free.run Script.confined_heap (onLoad_start {} panel files) operations
  have second : n = 2 := by
    rw [← here.loads]
    decide +kernel
  rw [second] at here
  refine ⟨⟨by decide +kernel, met⟩, by decide +kernel, ⟨by decide +kernel, here.taken_drain⟩, ?_⟩
  rw [act_eq, met]

end Reader
end PocketReader
