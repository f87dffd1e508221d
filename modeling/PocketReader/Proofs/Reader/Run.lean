import PocketReader.Reader

/-! Runs of a reader. Pages are opened and asked for, buttons are heard, ticks pass, and between these the display and
the files may become any others, and scripts may come to be out of reach. -/
namespace PocketReader.Reader

inductive Operation (δ σ : Type) where
  | goTo (path : String)
  | request (path : String)
  | publish (event : ButtonEvent)
  | drain
  | tick
  /-- What happens outside: the display finishes a frame, a page is written anew, or there is no room for scripts. -/
  | outside (display : δ) (files : σ) (obstacle? : Option String)

variable {δ σ γ : Type}

/-- A frame keeps what any display keeps, if the drawing of the page does. -/
theorem draw_keeps [Display δ] {P : Reader δ σ γ → Prop} (shown : ∀ r display, P r → P { r with display })
    (page : ∀ r, P r → P r.drawPage.2) {r : Reader δ σ γ} (before : P r) : P r.draw.2 := by
  have background : P (r.send [.screen .background]).2 := shown r _ before
  unfold draw
  split
  · rename_i result
    rw [result] at background
    exact background
  · rename_i filled result
    rw [result] at background
    have body := page filled background
    split
    · rename_i result
      rw [result] at body
      exact body
    · rename_i drawn result
      rw [result] at body
      have bar : P (drawn.send (Layout.statusBar drawn.settings drawn.title)).2 := shown drawn _ body
      split
      · rename_i result
        rw [result] at bar
        exact bar
      · rename_i last result
        rw [result] at bar
        exact shown last _ bar

/-- The reader when it has taken its next request and not met it yet. -/
def taken (r : Reader δ σ γ) : Reader δ σ γ :=
  { r with session := { r.session with navigation := r.session.navigation.take.2 } }

section

variable [Storage σ] [Script.Engine γ] [Script.Engine.Terminating γ]

/-- A load that fails is only noted. -/
def afterLoad (loaded : Except LoadError Unit × Reader δ σ γ) : Reader δ σ γ :=
  match loaded with
  | (.ok _, r) => r
  | (.error cause, r) => r.note (.warning (.loadFailed cause))

theorem act_eq (r : Reader δ σ γ) :
    r.act =
      match r.session.navigation.take.1 with
      | none => r.taken
      | some (.callback source) => (r.taken.runSnippet "onclick" source).refreshIfMutated
      | some (.load visit) => afterLoad (r.taken.load visit) := by
  rfl

/-- What a callback keeps, and a load, and a note that it failed, is kept when the next request is met. -/
theorem act_keeps {P : Reader δ σ γ → Prop} {r : Reader δ σ γ} (taken : P r.taken)
    (callback : ∀ t source, P t → P (t.runSnippet "onclick" source).refreshIfMutated)
    (load : ∀ t visit, P t → P (t.load visit).2)
    (note : ∀ t cause, P t → P (t.note (.warning (.loadFailed cause)))) : P r.act := by
  rw [act_eq]
  cases r.session.navigation.take.1 with
  | none => exact taken
  | some action =>
    cases action with
    | callback source => exact callback _ source taken
    | load visit =>
      have loaded := load _ visit taken
      rcases result : r.taken.load visit with ⟨outcome, after⟩
      rw [result] at loaded
      dsimp only
      rw [result]
      cases outcome with
      | ok _ => exact loaded
      | error cause => exact note after cause loaded

end

variable [Display δ] [Storage σ] [Script.Engine γ] [Script.Engine.Terminating γ]

def perform (r : Reader δ σ γ) : Operation δ σ → Reader δ σ γ
  | .goTo path => (r.goTo path).2
  | .request path => r.request path
  | .publish event => (r.publish event).2
  | .drain => r.drain.2
  | .tick => r.tick.2
  | .outside display files obstacle? => { r with display, files, obstacle? }

def run (r : Reader δ σ γ) (operations : List (Operation δ σ)) : Reader δ σ γ := operations.foldl perform r

/-- What each operation keeps is kept by every run. -/
theorem run_keeps {P : Reader δ σ γ → Prop} (step : ∀ r operation, P r → P (r.perform operation)) {r : Reader δ σ γ}
    (before : P r) (operations : List (Operation δ σ)) : P (r.run operations) := by
  induction operations generalizing r with
  | nil => exact before
  | cons operation operations ih => exact ih (step r operation before)

end PocketReader.Reader
