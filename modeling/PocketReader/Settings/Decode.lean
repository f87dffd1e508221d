import PocketReader.Settings
import PocketReader.Toml.Parser

/-! Settings from a TOML text. Every setting may be missing, and names that mean nothing are passed over. -/
namespace PocketReader

open PocketReader.Toml

/-- A number from zero up to a limit. -/
def natural? (limit : Nat) : Value → Option Nat
  | .integer n => if 0 ≤ n ∧ n ≤ limit then some n.toNat else none
  | _ => none

def word16? (v : Value) : Option UInt16 := (natural? 0xffff v).map UInt16.ofNat

def word32? (v : Value) : Option UInt32 := (natural? 0xffffffff v).map UInt32.ofNat

def word64? (v : Value) : Option UInt64 := (natural? 0xffffffffffffffff v).map UInt64.ofNat

def text? : Value → Option String
  | .text s => some s
  | _ => none

def label? (v : Value) : Option Label := (text? v).bind Label.ofString?

/-- The entries of a group whose settings have these names, in this order. An array gives settings by their place, and
what is behind the last one is never looked at; a date gives none. The entries of a table that are no settings are
looked at, but only for numbers too large. -/
def group? (names : List String) : Value → Option (List (String × Value))
  | .table entries =>
    if entriesSound (entries.filter fun (name, _) => !names.contains name) then some entries else none
  | .array items => some (names.zip items)
  | .moment _ => some []
  | _ => none

/-- A setting that may be missing but must not be wrong. -/
def orDefault {α : Type} (default : α) (read? : Value → Option α) : Option Value → Option α
  | none => some default
  | some v => read? v

def PageSettings.names : List String :=
  ["viewport_width", "viewport_height", "status_bar_height", "scroll_step", "default_title"]

def PageSettings.ofValue? (v : Value) : Option PageSettings := do
  let entries ← group? names v
  let default : PageSettings := {}
  let width ← orDefault default.width word16? (entries.lookup "viewport_width")
  let height ← orDefault default.height word16? (entries.lookup "viewport_height")
  let statusBar ← orDefault default.statusBar word16? (entries.lookup "status_bar_height")
  let scrollStep ← orDefault default.scrollStep word16? (entries.lookup "scroll_step")
  let title ← orDefault default.title label? (entries.lookup "default_title")
  some { width, height, statusBar, scrollStep, title }

/-- The one setting of the buttons. -/
def holdThreshold? (v : Value) : Option UInt32 := do
  let entries ← group? ["hold_threshold_ms"] v
  orDefault ({} : Settings).holdThreshold word32? (entries.lookup "hold_threshold_ms")

def Settings.names : List String := ["start_page", "tick_interval_ms", "renderer", "input"]

def Settings.ofValue? (v : Value) : Option Settings := do
  let entries ← group? names v
  let default : Settings := {}
  let startPage ← orDefault default.startPage text? (entries.lookup "start_page")
  let tickInterval ← orDefault default.tickInterval word64? (entries.lookup "tick_interval_ms")
  let page ← orDefault default.page PageSettings.ofValue? (entries.lookup "renderer")
  let holdThreshold ← orDefault default.holdThreshold holdThreshold? (entries.lookup "input")
  some { startPage, tickInterval, page, holdThreshold }

/-- The settings a text asks for; `none` when it is no TOML or a setting is wrong. -/
def Settings.ofText? (text : String) : Option Settings :=
  (Toml.parse? text).bind fun entries => Settings.ofValue? (.table entries)

end PocketReader
