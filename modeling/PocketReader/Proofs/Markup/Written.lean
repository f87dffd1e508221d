import PocketReader.Markup.Clean
import PocketReader.Proofs.Markup.Nesting

/-! Trees written as markup. What is written is read back as the trees it was written for: values may hold anything
but double quotes, and an element with nothing inside may be written with one tag or with two. -/
namespace PocketReader

open PocketReader.Text

def Kind.tag? : Kind → Option String
  | .text => none
  | .heading => some "h1"
  | .link => some "a"
  | .button => some "button"
  | .container => some "div"
  | .body => some "body"
  | .head => some "head"
  | .script => some "script"
  | .title => some "title"

theorem Kind.ofTag?_of_tag? {kind : Kind} {name : String} (known : kind.tag? = some name) :
    Kind.ofTag? name = some kind := by
  cases kind <;> cases known <;> rfl

theorem Kind.exists_tag? {kind : Kind} (tagged : kind ≠ .text) : ∃ name, kind.tag? = some name := by
  cases kind with
  | text => exact absurd rfl tagged
  | _ => exact ⟨_, rfl⟩

namespace Markup

/-- A name and a value that can be written. -/
structure Plain (name value : String) : Prop where
  named : name ≠ ""
  solid : ∀ c ∈ name.toList, isBlank c = false
  bare : ∀ c ∈ ['"', '=', '<', '>'], c ∉ name.toList
  enclosed : '"' ∉ value.toList

/-- Trees that can be written. Each root says whether it is written with one tag when nothing is inside. -/
inductive Writable : Forest (Content × Bool) → Prop
  | nil : Writable .nil
  /-- Two texts side by side would be read as one. -/
  | text {line : String} {short : Bool} {rest : Forest (Content × Bool)} : line ≠ "" →
      collapse line.toList = line.toList → '<' ∉ line.toList → startsWithText (rest.map Prod.fst) = false →
      Writable rest → Writable (.node (.text [line], short) .nil rest)
  | element {kind : Kind} {attributes : List (String × String)} {short : Bool} {kids rest : Forest (Content × Bool)} :
      kind ≠ .text → (∀ pair ∈ attributes, Plain pair.1 pair.2) → Writable kids → Writable rest →
      Writable (.node (element kind attributes, short) kids rest)

def writeAttributes (attributes : List (String × String)) : List Char :=
  attributes.flatMap fun (name, value) => ' ' :: (name.toList ++ '=' :: '"' :: (value.toList ++ ['"']))

def tokensOf : Forest (Content × Bool) → List Token
  | .nil => []
  | .node (content, short) kids rest =>
    match content.kind.tag? with
    | none => .text (content.lines.flatMap String.toList) :: tokensOf rest
    | some name =>
      let opens := name.toList ++ writeAttributes content.attributes
      if short = true ∧ kids = .nil then .tag (opens ++ ['/']) :: tokensOf rest
      else .tag opens :: (tokensOf kids ++ .tag ('/' :: name.toList) :: tokensOf rest)

def Token.chars : Token → List Char
  | .text run => run
  | .tag body => '<' :: (body ++ ['>'])
  | .unended => ['<']

def write (f : Forest (Content × Bool)) : String := String.ofList ((tokensOf f).flatMap Token.chars)

theorem solid_of_tag? {kind : Kind} {name : String} (known : kind.tag? = some name) :
    name.toList ≠ [] ∧ (∀ c ∈ name.toList, isBlank c = false) ∧ ∀ c ∈ ['"', '>', '/'], c ∉ name.toList := by
  cases kind <;> cases known <;> simp [isBlank, blanks]

/-- A text that can stand inside a tag. -/
structure Whole (s : List Char) : Prop where
  enclosed : Enclosed false s
  closed : quotedAfter false s = false

theorem Whole.append {s t : List Char} (first : Whole s) (second : Whole t) : Whole (s ++ t) := by
  constructor
  · rw [enclosed_append, first.closed]
    exact ⟨first.enclosed, second.enclosed⟩
  · rw [quotedAfter_append, first.closed, second.closed]

theorem whole_of_bare {s : List Char} (close : '>' ∉ s) (quote : '"' ∉ s) : Whole s :=
  ⟨enclosed_of_notMem false close, quotedAfter_of_notMem false quote⟩

theorem whole_quoted {value : List Char} (free : '"' ∉ value) : Whole ('"' :: (value ++ ['"'])) := by
  constructor
  · rw [enclosed_cons, enclosed_append]
    refine ⟨by decide, enclosed_of_no_quote free, enclosed_of_notMem _ (by decide)⟩
  · rw [quotedAfter_cons, quotedAfter_append, quotedAfter_of_notMem _ free]
    rfl

theorem Plain.whole {name value : String} (plain : Plain name value) :
    Whole (' ' :: (name.toList ++ '=' :: '"' :: (value.toList ++ ['"']))) := by
  have gap : Whole [' '] := whole_of_bare (by decide) (by decide)
  have sign : Whole ['='] := whole_of_bare (by decide) (by decide)
  have word : Whole name.toList := whole_of_bare (plain.bare '>' (by decide)) (plain.bare '"' (by decide))
  exact gap.append (word.append (sign.append (whole_quoted plain.enclosed)))

section

variable {attributes : List (String × String)}

theorem whole_writeAttributes (plain : ∀ pair ∈ attributes, Plain pair.1 pair.2) :
    Whole (writeAttributes attributes) := by
  induction attributes with
  | nil => exact whole_of_bare List.not_mem_nil List.not_mem_nil
  | cons pair attributes ih =>
    obtain ⟨first, others⟩ := List.forall_mem_cons.mp plain
    exact first.whole.append (ih others)

theorem lists_writeAttributes (plain : ∀ pair ∈ attributes, Plain pair.1 pair.2) :
    Lists (writeAttributes attributes) attributes := by
  induction attributes with
  | nil => exact .nil blank_nil
  | cons pair attributes ih =>
    obtain ⟨first, others⟩ := List.forall_mem_cons.mp plain
    obtain ⟨name, value⟩ := pair
    have gap : Blank [' '] := by
      intro c member
      rw [List.mem_singleton.mp member]
      decide
    have listed := Lists.cons gap (trimmed_of_solid first.solid) (first.bare '=' (by decide)) blank_nil blank_nil
      first.enclosed (ih others)
    rw [String.ofList_toList, String.ofList_toList] at listed
    simpa [writeAttributes] using listed

theorem getLast?_writeAttributes (attributes : List (String × String)) :
    ∀ c ∈ (writeAttributes attributes).getLast?, c = '"' := by
  rcases List.eq_nil_or_concat' attributes with rfl | ⟨front, pair, rfl⟩
  · simp [writeAttributes]
  · obtain ⟨name, value⟩ := pair
    have ends : writeAttributes (front ++ [(name, value)]) =
        writeAttributes front ++ ' ' :: (name.toList ++ '=' :: '"' :: value.toList) ++ ['"'] := by
      simp [writeAttributes]
    intro c last
    rw [ends, List.getLast?_concat] at last
    exact (Option.some.inj last).symm

variable {kind : Kind} {name : String} {short : Bool} {kids rest : Forest (Content × Bool)}

theorem describes_opens (known : kind.tag? = some name) (plain : ∀ pair ∈ attributes, Plain pair.1 pair.2) :
    Describes (name.toList ++ writeAttributes attributes) (element kind attributes) := by
  obtain ⟨-, solid, -⟩ := solid_of_tag? known
  have named : Kind.ofTag? (String.ofList name.toList) = some kind := by
    rw [String.ofList_toList, Kind.ofTag?_of_tag? known]
  have gap : ∀ c ∈ (writeAttributes attributes).head?, isBlank c = true := by
    intro c first
    cases attributes with
    | nil => cases first
    | cons pair others =>
      cases first
      decide
  exact .intro blank_nil solid named gap (lists_writeAttributes plain)

theorem whole_opens (known : kind.tag? = some name) (plain : ∀ pair ∈ attributes, Plain pair.1 pair.2) :
    Whole (name.toList ++ writeAttributes attributes) := by
  obtain ⟨-, -, bare⟩ := solid_of_tag? known
  exact (whole_of_bare (bare '>' (by decide)) (bare '"' (by decide))).append (whole_writeAttributes plain)

theorem head?_opens (known : kind.tag? = some name) (s : List Char) : (name.toList ++ s).head? ≠ some '/' := by
  obtain ⟨some, -, bare⟩ := solid_of_tag? known
  rw [List.head?_append_of_ne_nil _ some]
  intro slash
  exact bare '/' (by decide) (List.mem_of_mem_head? slash)

theorem tagForm_opens (known : kind.tag? = some name) (attributes : List (String × String)) :
    tagForm (name.toList ++ writeAttributes attributes) = .opening := by
  have last : (name.toList ++ writeAttributes attributes).getLast? ≠ some '/' := by
    obtain ⟨-, -, bare⟩ := solid_of_tag? known
    rw [List.getLast?_append]
    intro slash
    rcases Option.or_eq_some_iff.mp slash with inside | ⟨-, inside⟩
    · exact absurd (getLast?_writeAttributes attributes _ inside) (by decide)
    · exact bare '/' (by decide) (List.mem_of_getLast? inside)
  rw [tagForm, if_neg (head?_opens known _), if_neg last]

theorem tagForm_opens_slash (known : kind.tag? = some name) (attributes : List (String × String)) :
    tagForm (name.toList ++ writeAttributes attributes ++ ['/']) = .childless := by
  have front := head?_opens known (writeAttributes attributes ++ ['/'])
  rw [← List.append_assoc] at front
  rw [tagForm, if_neg front, if_pos List.getLast?_concat]

theorem closes_name (known : kind.tag? = some name) : Closes ('/' :: name.toList) kind := by
  obtain ⟨-, solid, -⟩ := solid_of_tag? known
  refine closes_of_trim (trim_of_trimmed (trimmed_of_solid solid)) ?_
  rw [String.ofList_toList, Kind.ofTag?_of_tag? known]

theorem tokensOf_text (line : String) (short : Bool) (rest : Forest (Content × Bool)) :
    tokensOf (.node (.text [line], short) .nil rest) = .text line.toList :: tokensOf rest := by
  simp [tokensOf, Content.text, Kind.tag?]

theorem tokensOf_element (known : kind.tag? = some name) (attributes : List (String × String)) (short : Bool)
    (kids rest : Forest (Content × Bool)) :
    tokensOf (.node (element kind attributes, short) kids rest) =
      if short = true ∧ kids = .nil then .tag (name.toList ++ writeAttributes attributes ++ ['/']) :: tokensOf rest
      else .tag (name.toList ++ writeAttributes attributes) ::
        (tokensOf kids ++ .tag ('/' :: name.toList) :: tokensOf rest) := by
  simp only [tokensOf, element, known]

end

section

variable {f : Forest (Content × Bool)}

theorem Writable.linearises (writable : Writable f) : Linearises (tokensOf f) (f.map Prod.fst) := by
  induction writable with
  | nil => exact .nil
  | @text line short rest some collapsed _ _ _ ih =>
    have filled : ¬ Blank line.toList := by
      rw [← collapse_eq_nil_iff, collapsed]
      simpa using some
    have read := Linearises.text filled ih
    rw [collapsed, String.ofList_toList] at read
    rwa [tokensOf_text]
  | @element kind attributes short kids rest tagged plain _ _ ihk ihr =>
    obtain ⟨name, known⟩ := Kind.exists_tag? tagged
    rw [tokensOf_element known]
    have described := describes_opens known plain
    split
    · rename_i one
      obtain ⟨-, rfl⟩ := one
      refine .childless (tagForm_opens_slash known attributes) ?_ ihr
      rwa [List.dropLast_concat]
    · exact .element (tagForm_opens known attributes) described ihk (closes_name known) ihr

/-- What follows a text that is written starts a tag. -/
theorem Writable.head?_write (writable : Writable f) (apart : startsWithText (f.map Prod.fst) = false) {s : List Char}
    (tag : ∀ c ∈ s.head?, c = '<') : ∀ c ∈ ((tokensOf f).flatMap Token.chars ++ s).head?, c = '<' := by
  cases writable with
  | nil => exact tag
  | text => cases apart
  | element tagged _ _ _ =>
    obtain ⟨name, known⟩ := Kind.exists_tag? tagged
    intro c first
    rw [tokensOf_element known] at first
    split at first <;> cases first <;> rfl

theorem Writable.splits (writable : Writable f) {s : List Char} {tokens : List Token} (splits : Splits s tokens)
    (tag : ∀ c ∈ s.head?, c = '<') : Splits ((tokensOf f).flatMap Token.chars ++ s) (tokensOf f ++ tokens) := by
  induction writable generalizing s tokens with
  | nil => exact splits
  | text some _ free apart writable ih =>
    rw [tokensOf_text, List.flatMap_cons, List.append_assoc, List.cons_append]
    refine .text ?_ free (writable.head?_write apart tag) (ih splits tag)
    simpa [Token.chars] using some
  | element tagged plain _ _ ihk ihr =>
    obtain ⟨name, known⟩ := Kind.exists_tag? tagged
    obtain ⟨-, -, bare⟩ := solid_of_tag? known
    have slash : Whole ['/'] := whole_of_bare (by decide) (by decide)
    have opens := whole_opens known plain
    -- A tag can be split off once what follows it is, so the text is taken apart from its end.
    have later := ihr splits tag
    rw [tokensOf_element known]
    split
    · have one := opens.append slash
      have written := Splits.tag one.enclosed one.closed later
      simpa [Token.chars] using written
    · have closes := slash.append (whole_of_bare (bare '>' (by decide)) (bare '"' (by decide)))
      have inside := ihk (.tag closes.enclosed closes.closed later) fun c first => (Option.some.inj first).symm
      have written := Splits.tag opens.enclosed opens.closed inside
      simpa [Token.chars] using written

theorem parse_write (writable : Writable f) : parse (write f) = .ok (f.map Prod.fst) := by
  have splits := writable.splits .nil fun c first => nomatch first
  rw [List.append_nil, List.append_nil] at splits
  rw [parse, write, String.toList_ofList, splits.scan_eq]
  exact build_eq_ok_iff.mpr writable.linearises

end

/-- Values that look like markup, a name given twice, and both ways to write an element with nothing inside. -/
def quotedTrees : Forest (Content × Bool) :=
  .node (element .container [("id", "a > b"), ("id", "/")], false)
    (.node (element .link [], true) .nil
      (.node (.text ["x > \"y\""], false) .nil
        (.node (element .heading [("t", "</h1>")], false) .nil .nil))) .nil

theorem parse_write_quotedTrees :
    Writable quotedTrees ∧
      write quotedTrees = "<div id=\"a > b\" id=\"/\"><a/>x > \"y\"<h1 t=\"</h1>\"></h1></div>" ∧
      parse (write quotedTrees) = .ok (quotedTrees.map Prod.fst) := by
  have first : Plain "id" "a > b" := by constructor <;> simp [isBlank, blanks]
  have second : Plain "id" "/" := by constructor <;> simp [isBlank, blanks]
  have third : Plain "t" "</h1>" := by constructor <;> simp [isBlank, blanks]
  have writable : Writable quotedTrees := by
    refine .element (by decide) ?_ (.element (by decide) ?_ .nil (.text ?_ ?_ ?_ rfl ?_)) .nil
    · simpa using ⟨first, second⟩
    · simp
    · decide
    · decide
    · decide
    · exact .element (by decide) (by simpa using third) .nil .nil
  exact ⟨writable, by decide, parse_write writable⟩

end Markup
end PocketReader
