/-! What can be set on a device. The defaults are those of a panel of 320 by 170 pixels. -/
namespace PocketReader

/-- A label short enough for the status bar: at most 24 bytes. -/
structure Label where
  text : String
  fits : text.utf8ByteSize ≤ 24 := by decide
  deriving DecidableEq

def Label.ofString? (text : String) : Option Label :=
  if fits : text.utf8ByteSize ≤ 24 then some { text, fits } else none

def Label.untitled : Label := { text := "3ML" }

/-- The geometry of a page on the panel. -/
structure PageSettings where
  width : UInt16 := 320
  /-- The whole panel, status bar included. -/
  height : UInt16 := 170
  statusBar : UInt16 := 20
  /-- How far the page moves when the selection cannot. -/
  scrollStep : UInt16 := 40
  /-- Shown for a page without a title. -/
  title : Label := .untitled
  deriving DecidableEq

def PageSettings.bodyHeight (s : PageSettings) : Nat := s.height.toNat - s.statusBar.toNat

structure Settings where
  /-- The page loaded first. -/
  startPage : String := "/index.3ml"
  /-- Milliseconds between two ticks. -/
  tickInterval : UInt64 := 33
  /-- Milliseconds after which a press is a hold. -/
  holdThreshold : UInt32 := 500
  page : PageSettings := {}
  deriving DecidableEq

end PocketReader
