/-! Text that has to fit into some room. -/
namespace PocketReader.Text

/-- The longest front of a text that takes no more bytes than there is room; no character is cut. -/
def clip (room : Nat) : List Char → List Char
  | [] => []
  | c :: rest => if c.utf8Size ≤ room then c :: clip (room - c.utf8Size) rest else []

theorem clip_prefix (room : Nat) (s : List Char) : clip room s <+: s := by
  induction s generalizing room with
  | nil => exact List.prefix_rfl
  | cons c rest ih =>
    unfold clip
    split
    · exact (List.prefix_cons_inj c).2 (ih _)
    · exact List.nil_prefix

theorem utf8ByteSize_clip_le (room : Nat) (s : List Char) : (String.ofList (clip room s)).utf8ByteSize ≤ room := by
  induction s generalizing room with
  | nil => simp [clip]
  | cons c rest ih =>
    unfold clip
    split
    · rw [String.ofList_cons, String.utf8ByteSize_append, String.utf8ByteSize_singleton]
      have := ih (room - c.utf8Size)
      omega
    · simp

end PocketReader.Text
