/-! Panel colours: five bits of red, six of green, five of blue, and the palette every page is drawn in. -/
namespace PocketReader

structure Color where
  raw : UInt16
  deriving DecidableEq, Inhabited

namespace Color

/-- Packing keeps the high bits of each channel. -/
def rgb (r g b : UInt8) : Color :=
  ⟨((r.toUInt16 >>> 3) <<< 11) ||| ((g.toUInt16 >>> 2) <<< 5) ||| (b.toUInt16 >>> 3)⟩

/-- The status bar and whatever has the focus. -/
def accent : Color := rgb 247 176 91

def text : Color := rgb 255 255 255

def background : Color := rgb 31 19 0

end Color
end PocketReader
