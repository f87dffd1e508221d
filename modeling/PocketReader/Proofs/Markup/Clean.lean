import PocketReader.Markup.Clean
import PocketReader.Proofs.Text.Wrap

/-! Trees made fit to be shown. Cleaning puts empty texts where a text is missing, breaks texts into lines and lets
links and buttons be selected; it changes nothing else, and nothing at all the second time. -/
namespace PocketReader

/-- The nodes that are not below a text, each with what is below it. -/
def Forest.outsideTexts : Forest Content → List (Content × Forest Content)
  | .nil => []
  | .node c kids rest => (c, kids) :: ((if c.kind = .text then [] else kids.outsideTexts) ++ rest.outsideTexts)

namespace Markup

/-- A node that can be shown. -/
structure Fit (width : Nat) (c : Content) (kids : Forest Content) : Prop where
  selectable : c.kind.isInteractive = true → c.selectable = true
  text : c.kind.bearsText = true → startsWithText kids = true
  lines : c.kind = .text → ∀ line ∈ c.lines, 1 ≤ line.length ∧ line.length ≤ max width 1

/-- The same node, but for where the lines of a text break and for what takes the focus without being told to. -/
structure Keeps (c c' : Content) : Prop where
  kind : c'.kind = c.kind
  id : c'.id? = c.id?
  attributes : c'.attributes = c.attributes
  lines : c.kind ≠ .text → c'.lines = c.lines
  chars : (c'.lines.flatMap fun line => Text.solidChars line.toList) =
    c.lines.flatMap fun line => Text.solidChars line.toList
  selectable : c.kind.isInteractive = false → c'.selectable = c.selectable

/-- The second trees are the first with empty texts in front of what is below nodes that miss one. -/
inductive Supplied : Forest Content → Forest Content → Prop
  | nil : Supplied .nil .nil
  /-- What is below a text stays as it is. -/
  | text {c c' : Content} {kids rest rest' : Forest Content} : c.kind = .text → Keeps c c' → Supplied rest rest' →
      Supplied (.node c kids rest) (.node c' kids rest')
  | element {c c' : Content} {kids kids' rest rest' : Forest Content} : c.kind ≠ .text → Keeps c c' →
      Supplied kids kids' → Supplied rest rest' → Supplied (.node c kids rest) (.node c' kids' rest')
  | front {c c' : Content} {kids kids' rest rest' : Forest Content} : c.kind.bearsText = true →
      startsWithText kids = false → Keeps c c' → Supplied kids kids' → Supplied rest rest' →
      Supplied (.node c kids rest) (.node c' (.node { kind := .text } .nil kids') rest')

section

variable {c : Content} (width : Nat)

theorem clean_text (text : c.kind = .text) (kids rest : Forest Content) :
    clean width (.node c kids rest) =
      .node { c with lines := Text.wrap (" ".intercalate c.lines) width } kids (clean width rest) := if_pos text

theorem clean_element (element : c.kind ≠ .text) (kids rest : Forest Content) :
    clean width (.node c kids rest) =
      .node { c with selectable := c.selectable || c.kind.isInteractive } (withLeadingText c.kind (clean width kids))
        (clean width rest) := if_neg element

@[simp] theorem startsWithText_node (c : Content) (kids rest : Forest Content) :
    startsWithText (.node c kids rest) = (c.kind == .text) := rfl

theorem startsWithText_clean (f : Forest Content) : startsWithText (clean width f) = startsWithText f := by
  cases f with
  | nil => rfl
  | node c kids rest =>
    by_cases text : c.kind = .text
    · rw [clean_text width text, startsWithText_node, startsWithText_node]
    · rw [clean_element width text, startsWithText_node, startsWithText_node]

theorem wrap_nothing : Text.wrap (" ".intercalate []) width = [] := rfl

theorem clean_withLeadingText (kind : Kind) (f : Forest Content) :
    clean width (withLeadingText kind f) = withLeadingText kind (clean width f) := by
  unfold withLeadingText
  rw [startsWithText_clean]
  split
  · rw [clean_text width rfl, wrap_nothing]
  · rfl

theorem withLeadingText_of_missing {kind : Kind} {f : Forest Content} (bears : kind.bearsText = true)
    (missing : startsWithText f = false) : withLeadingText kind f = .node { kind := .text } .nil f := by
  simp [withLeadingText, bears, missing]

theorem withLeadingText_of_present {kind : Kind} {f : Forest Content}
    (present : kind.bearsText = false ∨ startsWithText f = true) : withLeadingText kind f = f := by
  rcases present with bare | text
  · simp [withLeadingText, bare]
  · simp [withLeadingText, text]

theorem startsWithText_withLeadingText {kind : Kind} (bears : kind.bearsText = true) (f : Forest Content) :
    startsWithText (withLeadingText kind f) = true := by
  cases present : startsWithText f with
  | false => rw [withLeadingText_of_missing bears present]; rfl
  | true => rwa [withLeadingText_of_present (.inr present)]

theorem withLeadingText_withLeadingText (kind : Kind) (f : Forest Content) :
    withLeadingText kind (withLeadingText kind f) = withLeadingText kind f := by
  cases bears : kind.bearsText with
  | false => exact withLeadingText_of_present (.inl bears)
  | true => exact withLeadingText_of_present (.inr (startsWithText_withLeadingText bears f))

theorem clean_clean (f : Forest Content) : clean width (clean width f) = clean width f := by
  induction f with
  | nil => rfl
  | node c kids rest ihk ihr =>
    by_cases text : c.kind = .text
    · have again : ({ c with lines := Text.wrap (" ".intercalate c.lines) width } : Content).kind = .text := text
      rw [clean_text width text, clean_text width again, ihr, Text.wrap_wrap]
    · have again : ({ c with selectable := c.selectable || c.kind.isInteractive } : Content).kind ≠ .text := text
      rw [clean_element width text, clean_element width again, ihr, clean_withLeadingText, ihk,
        withLeadingText_withLeadingText, Bool.or_assoc, Bool.or_self]

theorem outsideTexts_withLeadingText {kind : Kind} {f : Forest Content} {n : Content × Forest Content}
    (member : n ∈ (withLeadingText kind f).outsideTexts) : n = ({ kind := .text }, .nil) ∨ n ∈ f.outsideTexts := by
  unfold withLeadingText at member
  split at member
  · exact List.mem_cons.mp member
  · exact .inr member

theorem fit_of_mem_clean {f : Forest Content} {n : Content × Forest Content}
    (member : n ∈ (clean width f).outsideTexts) : Fit width n.1 n.2 := by
  induction f with
  | nil => cases member
  | node c kids rest ihk ihr =>
    by_cases text : c.kind = .text
    · rw [clean_text width text, Forest.outsideTexts, if_pos text, List.nil_append] at member
      rcases List.mem_cons.mp member with rfl | later
      · refine ⟨fun interactive => ?_, fun bears => ?_, fun _ line there => ?_⟩
        · exact absurd (text ▸ interactive) (by decide)
        · exact absurd (text ▸ bears) (by decide)
        · exact Text.length_of_mem_wrap there
      · exact ihr later
    · rw [clean_element width text, Forest.outsideTexts, if_neg text] at member
      rcases List.mem_cons.mp member with rfl | later
      · have fronted (bears : c.kind.bearsText = true) := startsWithText_withLeadingText bears (clean width kids)
        refine ⟨fun interactive => ?_, fronted, fun same => absurd same text⟩
        simpa using .inr interactive
      · rcases List.mem_append.mp later with below | right
        · rcases outsideTexts_withLeadingText below with rfl | inside
          · exact ⟨nofun, nofun, fun _ => nofun⟩
          · exact ihk inside
        · exact ihr right

theorem supplied_clean (f : Forest Content) : Supplied f (clean width f) := by
  induction f with
  | nil => exact .nil
  | node c kids rest ihk ihr =>
    by_cases text : c.kind = .text
    · rw [clean_text width text]
      refine .text text ⟨rfl, rfl, rfl, fun element => absurd text element, ?_, fun _ => rfl⟩ ihr
      exact Text.solidChars_wrap c.lines width
    · have keeps : Keeps c { c with selectable := c.selectable || c.kind.isInteractive } :=
        ⟨rfl, rfl, rfl, fun _ => rfl, rfl, fun plain => by rw [plain, Bool.or_false]⟩
      rw [clean_element width text]
      by_cases missing : c.kind.bearsText = true ∧ startsWithText kids = false
      · obtain ⟨bears, missing⟩ := missing
        rw [withLeadingText_of_missing bears ((startsWithText_clean width kids).trans missing)]
        exact .front bears missing keeps ihk ihr
      · rw [withLeadingText_of_present]
        · exact .element text keeps ihk ihr
        · rw [startsWithText_clean]
          rwa [not_and_or, Bool.not_eq_true, Bool.not_eq_false] at missing

end

/-- Trees are clean after once: then every node that is not below a text can be shown, and nothing is there or
different that is not needed for that. Texts are so because their lines, joined and wrapped again, are the same
lines. -/
theorem clean_settles (width : Nat) (f : Forest Content) :
    clean width (clean width f) = clean width f ∧ (∀ n ∈ (clean width f).outsideTexts, Fit width n.1 n.2) ∧
      Supplied f (clean width f) ∧
      ∀ text, Text.wrap (" ".intercalate (Text.wrap text width)) width = Text.wrap text width :=
  ⟨clean_clean width f, fun _ => fit_of_mem_clean width, supplied_clean width f,
    fun text => Text.wrap_wrap text width⟩

end Markup
end PocketReader
