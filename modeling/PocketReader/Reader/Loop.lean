import PocketReader.Reader
import PocketReader.Script.Evaluate
import PocketReader.Settings.Load

/-! Starting a reader and keeping it going. A page that cannot be loaded and a frame that cannot be drawn are only
noted. -/
namespace PocketReader.Reader

variable {δ σ : Type} [Display δ] [Storage σ]

section

variable {γ : Type} [Script.Engine γ] [Script.Engine.Terminating γ]

/-- A reader made from the settings among its files, with the start page loaded; without usable settings there is only
what was logged. All else it is given as the setup says. -/
def boot (setup : Setup) (display : δ) (files : σ) :
    Except (SettingsError × List LogEntry) (Settings × Reader δ σ γ) :=
  match Settings.load files Settings.path with
  | (.error cause, log) => .error (cause, log)
  | (.ok settings, log) =>
    let r : Reader δ σ γ := { start γ { setup with settings := settings.page } display files with log }
    match r.goTo settings.startPage with
    | (.ok _, r) => .ok (settings, r)
    | (.error cause, r) => .ok (settings, r.note (.warning (.startPageFailed cause)))

/-- A tick whose frame may be dropped. -/
def step (r : Reader δ σ γ) : Except DisplayError Unit × Reader δ σ γ :=
  match r.tick with
  | (.ok _, r) => (.ok (), r)
  | (.error e, r) => (.error e, r.note (.warning (.frameDropped e)))

/-- One look at the display: no tick is due before it is ready. -/
def poll (r : Reader δ σ γ) : Reader δ σ γ := if Display.isReady r.display then r.step.2 else r

end

end PocketReader.Reader
