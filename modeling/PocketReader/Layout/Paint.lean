import PocketReader.Layout
import PocketReader.Scroll
import PocketReader.Settings

/-! Frames on a display. A frame ends at the first request the display refuses; what was drawn and noted before that
stays. -/
namespace PocketReader.Layout

variable {δ : Type} [Display δ]

def send : List DrawOp → δ → Except DisplayError Unit × δ
  | [], display => (.ok (), display)
  | op :: rest, display =>
    match Display.draw op display with
    | (.ok _, display) => send rest display
    | (.error e, display) => (.error e, display)

def carryOut : List Step → List Focus.Entry → δ → Except DisplayError Unit × List Focus.Entry × δ
  | [], entries, display => (.ok (), entries, display)
  | .draw op :: rest, entries, display =>
    match Display.draw op display with
    | (.ok _, display) => carryOut rest entries display
    | (.error e, display) => (.error e, entries, display)
  | .mark place _ extent :: rest, entries, display =>
    carryOut rest (entries.modify place fun entry => { entry with extent }) display

/-- The window a frame is laid out for; once the page is measured, what starts below the window is passed over. -/
def windowOf (settings : PageSettings) (scroll : Scroll) (entries : List Focus.Entry) : Window :=
  { statusBar := settings.statusBar.toNat
    offset := scroll.offset
    selected? := scroll.selectedNode? entries
    cutoff? := if scroll.measured then some scroll.bottom else none }

structure Painted (δ : Type) where
  outcome : Except DisplayError Unit
  scroll : Scroll
  entries : List Focus.Entry
  display : δ

/-- Draws the part of a page that is looked at; only a complete frame says how high the page is. -/
def paint (settings : PageSettings) (d : Document) (scroll : Scroll) (entries : List Focus.Entry) (display : δ) :
    Painted δ :=
  let scroll := scroll.beginFrame
  let (todo, last) := steps (windowOf settings scroll entries) d.located {}
  match carryOut todo entries display with
  | (.ok _, entries, display) => ⟨.ok (), scroll.finishLayout last.position, entries, display⟩
  | (.error e, entries, display) => ⟨.error e, scroll, entries, display⟩

/-- The bar above the page, as wide as the page is set to be. -/
def statusBar (settings : PageSettings) (title : String) : List DrawOp :=
  [ .rectangle 0 0 settings.width settings.statusBar .accent,
    .text 2 2 title ⟨.text, .accent, textScale⟩ ]

end PocketReader.Layout
