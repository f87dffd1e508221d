import PocketReader.Proofs.Markup.Clean
import PocketReader.Proofs.Markup.Nesting
import PocketReader.Proofs.Page.Reachable

/-! What is shown of the texts in an element once it is clean: the one in front of all else that is inside. A text
after another element stays where it is, below the element, and is not shown for it. -/
namespace PocketReader

/-- The nodes that are not texts, each with what is below it, in reading order. -/
def Forest.elements : Forest Content → List (Content × Forest Content)
  | .nil => []
  | .node c kids rest => (if c.kind = .text then [] else [(c, kids)]) ++ (kids.elements ++ rest.elements)

def Document.elements (d : Document) : List (Handle × Node) := d.walk.filter fun entry => entry.2.content.kind ≠ .text

def Forest.elementNodes (f : Forest Located) : List (Handle × Node) :=
  f.nodes.filter fun entry => entry.2.content.kind ≠ .text

theorem Forest.elementNodes_node (n : Located) (kids rest : Forest Located) :
    (Forest.node n kids rest).elementNodes =
      (if n.content.kind = .text then [] else [(n.handle, ⟨n.content, kids.rootHandles⟩)]) ++
        (kids.elementNodes ++ rest.elementNodes) := by
  rw [elementNodes, nodes, List.filter_cons, List.filter_append]
  by_cases text : n.content.kind = .text <;> simp [text, elementNodes]

namespace Markup

open PocketReader.Text

/-- The texts directly inside an element. -/
def texts (kids : Forest Content) : List String :=
  (kids.roots.filter fun c => c.kind = .text).flatMap Content.lines

/-- The text in front of all else inside an element, if there is one. -/
def leadingText : Forest Content → List String
  | .nil => []
  | .node c _ _ => if c.kind = .text then c.lines else []

/-- Trees as they are read: a text is one line and not blank, and no other node has lines. -/
inductive AsRead : Forest Content → Prop
  | nil : AsRead .nil
  | text {line : String} {rest : Forest Content} : ¬ Blank line.toList → AsRead rest →
      AsRead (.node (.text [line]) .nil rest)
  | element {c : Content} {kids rest : Forest Content} : c.kind ≠ .text → c.lines = [] → AsRead kids → AsRead rest →
      AsRead (.node c kids rest)

/-- The text in front is what is shown, and it is all there is to show unless a text comes later. -/
structure Shows (d : Document) (width : Nat) (read : Content × Forest Content) (entry : Handle × Node) : Prop where
  kind : entry.2.content.kind = read.1.kind
  id : entry.2.content.id? = read.1.id?
  attributes : entry.2.content.attributes = read.1.attributes
  leading : read.1.kind.bearsText = true →
    d.textLines entry.1 = wrap (" ".intercalate (leadingText read.2)) width
  whole : read.1.kind.bearsText = true →
    (d.textLines entry.1 = wrap (" ".intercalate (texts read.2)) width ↔ ∀ c ∈ read.2.roots.tail, c.kind ≠ .text)

/-- No text of an element is left out of what is shown for it. -/
def ShowsAll (d : Document) (width : Nat) (read : Content × Forest Content) (entry : Handle × Node) : Prop :=
  read.1.kind.bearsText = true → d.textLines entry.1 = wrap (" ".intercalate (texts read.2)) width

theorem Describes.kind_ne_text {body : List Char} {content : Content} (described : Describes body content) :
    content.kind ≠ .text := by
  obtain ⟨-, -, known, -, -⟩ := described
  rintro rfl
  unfold Kind.ofTag? at known
  split at known <;> cases known

theorem Describes.lines_eq {body : List Char} {content : Content} (described : Describes body content) :
    content.lines = [] := by
  obtain ⟨-, -, -, -, -⟩ := described
  rfl

theorem Linearises.asRead {tokens : List Token} {forest : Forest Content} (linearises : Linearises tokens forest) :
    AsRead forest := by
  induction linearises with
  | nil => exact .nil
  | blank _ _ ih => exact ih
  | text some _ ih => exact .text (by rwa [String.toList_ofList, blank_collapse_iff]) ih
  | childless _ described _ ih => exact .element described.kind_ne_text described.lines_eq .nil ih
  | element _ described _ _ _ ihk ihr => exact .element described.kind_ne_text described.lines_eq ihk ihr

section

variable {kids : Forest Content}

theorem solidChars_of_text (asRead : AsRead kids) {c : Content} (member : c ∈ kids.roots) (text : c.kind = .text) :
    (c.lines.flatMap fun line => solidChars line.toList) ≠ [] := by
  induction asRead with
  | nil => cases member
  | text some _ ih =>
    rcases List.mem_cons.mp member with rfl | later
    · rwa [Content.text, List.flatMap_singleton, ne_eq, ← blank_iff_solidChars]
    · exact ih later
  | element other _ _ _ _ ih =>
    rcases List.mem_cons.mp member with rfl | later
    · exact absurd text other
    · exact ih later

theorem texts_eq (kids : Forest Content) :
    texts kids = leadingText kids ++ (kids.roots.tail.filter fun c => c.kind = .text).flatMap Content.lines := by
  cases kids with
  | nil => rfl
  | node c kids rest =>
    rw [texts, leadingText, Forest.roots, List.tail_cons]
    by_cases text : c.kind = .text
    · rw [List.filter_cons_of_pos (by simpa using text), if_pos text, List.flatMap_cons]
    · rw [List.filter_cons_of_neg (by simpa using text), if_neg text, List.nil_append]

/-- A text that comes later has characters that are not in the one in front. -/
theorem wrap_leadingText_iff (asRead : AsRead kids) (width : Nat) :
    wrap (" ".intercalate (leadingText kids)) width = wrap (" ".intercalate (texts kids)) width ↔
      ∀ c ∈ kids.roots.tail, c.kind ≠ .text := by
  rw [texts_eq]
  constructor
  · intro same c later text
    have chars := solidChars_wrap (leadingText kids) width
    rw [same, solidChars_wrap, List.flatMap_append, List.append_right_eq_self, List.flatMap_eq_nil_iff] at chars
    refine solidChars_of_text asRead (List.mem_of_mem_tail later) text ?_
    refine List.flatMap_eq_nil_iff.mpr fun line inside => ?_
    exact chars line (List.mem_flatMap.mpr ⟨c, List.mem_filter.mpr ⟨later, by simpa using text⟩, inside⟩)
  · intro none
    rw [List.filter_eq_nil_iff.mpr fun c member => by simpa using none c member, List.flatMap_nil, List.append_nil]

/-- In front of a clean element stands the text that was there, in lines. -/
theorem lines_head_clean (asRead : AsRead kids) (width : Nat) {kind : Kind} (bears : kind.bearsText = true) :
    ((withLeadingText kind (clean width kids)).head?.map Content.lines).getD [] =
      wrap (" ".intercalate (leadingText kids)) width := by
  cases asRead with
  | nil =>
    rw [withLeadingText_of_missing bears rfl]
    rfl
  | @text line rest some _ =>
    rw [clean_text width rfl, withLeadingText_of_present (.inr rfl)]
    rfl
  | @element c kids rest other =>
    have missing : startsWithText (clean width (.node c kids rest)) = false := by
      rw [startsWithText_clean, startsWithText_node, beq_eq_false_iff_ne]
      exact other
    rw [withLeadingText_of_missing bears missing, leadingText, if_neg other]
    rfl

end

section

variable {d : Document} {width : Nat}

/-- A text that is put in front is no element. -/
theorem exists_elements_withLeadingText {kind : Kind} {f : Forest Content} {g : Forest Located} (holds : d.Holds g)
    (content : g.map Located.content = withLeadingText kind f) :
    ∃ h : Forest Located, d.Holds h ∧ h.map Located.content = f ∧ g.elementNodes = h.elementNodes := by
  unfold withLeadingText at content
  split at content
  · obtain ⟨n, kids, rest, rfl, front, none, same⟩ := Forest.map_eq_node content
    obtain rfl := Forest.map_eq_nil none
    refine ⟨rest, holds.2.2, same, ?_⟩
    rw [Forest.elementNodes_node, if_pos (by rw [front])]
    rfl
  · exact ⟨g, holds, content, rfl⟩

theorem shows_elements {f : Forest Content} (asRead : AsRead f) {g : Forest Located} (holds : d.Holds g)
    (content : g.map Located.content = clean width f) : List.Forall₂ (Shows d width) f.elements g.elementNodes := by
  induction asRead generalizing g with
  | nil =>
    obtain rfl := Forest.map_eq_nil content
    exact .nil
  | @text line rest _ _ ih =>
    rw [clean_text width rfl] at content
    obtain ⟨n, kids, right, rfl, own, none, same⟩ := Forest.map_eq_node content
    obtain rfl := Forest.map_eq_nil none
    have text : (Content.text [line]).kind = .text := rfl
    rw [Forest.elements, if_pos text, Forest.elementNodes_node, if_pos (by rw [own]; rfl)]
    exact ih holds.2.2 same
  | @element c kids rest other bare inside _ ihk ihr =>
    rw [clean_element width other] at content
    obtain ⟨n, below, right, rfl, own, under, beside⟩ := Forest.map_eq_node content
    have kind : n.content.kind = c.kind := by rw [own]
    -- The element has no lines of its own, so those of its first child are shown.
    have shown (bears : c.kind.bearsText = true) :
        d.textLines n.handle = wrap (" ".intercalate (leadingText kids)) width := by
      have lines : n.content.lines = [] := by rw [own, bare]
      rw [holds.textLines, Content.shownLines, if_pos (by rw [lines]; rfl), ← Forest.head?_map, under,
        lines_head_clean inside width bears]
    obtain ⟨others, holds', same, gone⟩ := exists_elements_withLeadingText holds.2.1 under
    rw [Forest.elements, if_neg other, Forest.elementNodes_node, if_neg (by rwa [kind]), gone]
    refine List.rel_append ?_ (List.rel_append (ihk holds' same) (ihr holds.2.2 beside))
    refine .cons ⟨kind, by rw [own], by rw [own], shown, fun bears => ?_⟩ .nil
    rw [shown bears]
    exact wrap_leadingText_iff inside width

end

theorem elements_eq {d : Document} {g : Forest Located} (represents : d.Represents g) :
    d.elements = g.elementNodes := by
  rw [Document.elements, represents.walk_eq, Forest.elementNodes]

/-- For each element of a text that can be read, the document made of it shows what stands in front inside, and
nothing else of the texts there: where one stands after another element, it is left out. -/
theorem read_shows_leading_text {source : String} {forest : Forest Content} (readable : parse source = .ok forest)
    (width : Nat) :
    ∃ trees, read source width = .ok trees ∧
      List.Forall₂ (Shows (.ofForest trees) width) forest.elements (Document.ofForest trees).elements := by
  have asRead := (build_eq_ok_iff.mp readable).asRead
  obtain ⟨g, content, represents⟩ := Document.represents_ofForest (clean width forest)
  refine ⟨clean width forest, by rw [read, readable]; rfl, ?_⟩
  rw [elements_eq represents]
  exact shows_elements asRead represents.holds content

/-- A link with a text on either side of another element. -/
def brokenLink : Forest Content :=
  .single { kind := .link, attributes := [("href", "/x.3ml")] }
    (.node (.text ["one"]) .nil (.node { kind := .container } .nil (.single (.text ["two"]) .nil)))

theorem parse_brokenLink : parse "<a href=\"/x.3ml\">one<div></div>two</a>" = .ok brokenLink := by cbv

theorem read_shows_leading_text_brokenLink :
    parse "<a href=\"/x.3ml\">one<div></div>two</a>" = .ok brokenLink ∧
      ∃ trees, read "<a href=\"/x.3ml\">one<div></div>two</a>" 26 = .ok trees ∧
        List.Forall₂ (Shows (.ofForest trees) 26) brokenLink.elements (Document.ofForest trees).elements :=
  ⟨parse_brokenLink, read_shows_leading_text parse_brokenLink 26⟩

/-- Of the link, "one two" is written and "one" is shown. -/
theorem text_after_element_not_shown :
    parse "<a href=\"/x.3ml\">one<div></div>two</a>" = .ok brokenLink ∧
      read "<a href=\"/x.3ml\">one<div></div>two</a>" = .ok (clean lineWidth brokenLink) ∧
      ¬ List.Forall₂ (ShowsAll (.ofForest (clean lineWidth brokenLink)) lineWidth) brokenLink.elements
        (Document.ofForest (clean lineWidth brokenLink)).elements := by
  refine ⟨parse_brokenLink, by rw [read, parse_brokenLink]; rfl, fun shown => ?_⟩
  cases shown with
  | cons link _ =>
    have lines : ["one"] = ["one two"] := link rfl
    exact absurd lines (by decide)

end Markup
end PocketReader
