import PocketReader.Markup.Parser
import PocketReader.Proofs.Markup.Tag
import PocketReader.Proofs.Markup.Token
import PocketReader.Proofs.Text.Words

/-! Tags that nest. A text is read as trees exactly when its tokens are these trees written down depth first. Any
other text is refused at the first token after which no reading is left, or at its end, where an element is still
open. -/
namespace PocketReader.Markup

open PocketReader.Text

inductive TagForm where
  | opening
  | childless
  | closing
  deriving DecidableEq

/-- A slash in front closes; one at the end says that nothing is inside. -/
def tagForm (body : List Char) : TagForm :=
  if body.head? = some '/' then .closing else if body.getLast? = some '/' then .childless else .opening

structure Closes (body : List Char) (kind : Kind) : Prop where
  form : tagForm body = .closing
  name : Kind.ofTag? (String.ofList (trim body.tail)) = some kind

/-- Tokens that are trees, written down depth first. -/
inductive Linearises : List Token → Forest Content → Prop
  | nil : Linearises [] .nil
  | blank {run : List Char} {tokens : List Token} {forest : Forest Content} : Blank run → Linearises tokens forest →
      Linearises (.text run :: tokens) forest
  | text {run : List Char} {tokens : List Token} {forest : Forest Content} : ¬ Blank run → Linearises tokens forest →
      Linearises (.text run :: tokens) (.node (.text [String.ofList (collapse run)]) .nil forest)
  | childless {body : List Char} {content : Content} {tokens : List Token} {forest : Forest Content} :
      tagForm body = .childless → Describes body.dropLast content → Linearises tokens forest →
      Linearises (.tag body :: tokens) (.node content .nil forest)
  | element {opens closes : List Char} {content : Content} {inner tokens : List Token}
    {kids forest : Forest Content} :
      tagForm opens = .opening → Describes opens content → Linearises inner kids → Closes closes content.kind →
      Linearises tokens forest →
      Linearises (.tag opens :: (inner ++ .tag closes :: tokens)) (.node content kids forest)

/-- More tokens could follow so that there is a reading. -/
def Viable (tokens : List Token) : Prop := ∃ more forest, Linearises (tokens ++ more) forest

/-- What is wrong with a token that does not fit: a closing tag is out of order, and any other cannot be read. -/
def Token.offence : Token → MarkupError
  | .tag body => if tagForm body = .closing then .unbalanced else .malformed
  | .text _ | .unended => .malformed

inductive Offends (tokens : List Token) : MarkupError → Prop
  /-- The first token that does not fit. -/
  | token {before after : List Token} {token : Token} : tokens = before ++ token :: after → Viable before →
      ¬ Viable (before ++ [token]) → Offends tokens token.offence
  | ending : Viable tokens → (∀ forest, ¬ Linearises tokens forest) → Offends tokens .unbalanced

theorem Linearises.append {first second : List Token} {f g : Forest Content} (left : Linearises first f)
    (right : Linearises second g) : Linearises (first ++ second) (f ++ g) := by
  induction left with
  | nil => exact right
  | blank blank _ ih => exact .blank blank ih
  | text some _ ih => exact .text some ih
  | childless form described _ ih => exact .childless form described ih
  | element form described inner closes _ _ ih =>
    rw [List.cons_append, List.append_assoc, List.cons_append]
    exact .element form described inner closes ih

section

variable (stack : List Open) (level : Forest Content) (events : List Event)

theorem build_nothing : build stack level (.nothing :: events) = build stack level events := by
  cases stack <;> rfl

theorem build_leaf (content : Content) :
    build stack level (.leaf content :: events) = build stack (level ++ .single content .nil) events := by
  cases stack <;> rfl

theorem build_opening (content : Content) :
    build stack level (.opening content :: events) = build (⟨content, level⟩ :: stack) .nil events := by
  cases stack <;> rfl

theorem build_unreadable : build stack level (.unreadable :: events) = .error .malformed := by
  cases stack <;> rfl

theorem build_closing (parent : Open) :
    build (parent :: stack) level (.closing (some parent.content.kind) :: events) =
      build stack (parent.before ++ .single parent.content level) events := by
  rw [build, if_pos rfl]

end

theorem ofTag_eq (body : List Char) :
    Event.ofTag body =
      match tagForm body with
      | .closing => .closing (Kind.ofTag? (String.ofList (trim body.tail)))
      | .childless => (readTag? body.dropLast).elim .unreadable .leaf
      | .opening => (readTag? body).elim .unreadable .opening := by
  unfold tagForm Event.ofTag
  split
  · rfl
  · rename_i other
    have front : body.head? ≠ some '/' := by
      intro slash
      obtain ⟨name, rfl⟩ := List.head?_eq_some_iff.mp slash
      exact other name rfl
    rw [if_neg front]
    split <;> rfl

theorem closes_of_trim {name : List Char} {kind : Kind} (trimmed : trim name = name)
    (known : Kind.ofTag? (String.ofList name) = some kind) : Closes ('/' :: name) kind := by
  refine ⟨rfl, ?_⟩
  rw [List.tail_cons, trimmed, known]

theorem Closes.ofToken {body : List Char} {kind : Kind} (closes : Closes body kind) :
    Event.ofToken (.tag body) = .closing (some kind) := by
  rw [Event.ofToken, ofTag_eq, closes.form, closes.name]

theorem ofToken_of_blank {run : List Char} (blank : Blank run) : Event.ofToken (.text run) = .nothing := by
  simp [Event.ofToken, (collapse_eq_nil_iff run).mpr blank]

theorem ofToken_of_not_blank {run : List Char} (some : ¬ Blank run) :
    Event.ofToken (.text run) = .leaf (.text [String.ofList (collapse run)]) := by
  have filled : collapse run ≠ [] := fun none => some ((collapse_eq_nil_iff run).mp none)
  simp [Event.ofToken, filled]

theorem Describes.ofToken_childless {body : List Char} {content : Content}
    (described : Describes body.dropLast content)
    (form : tagForm body = .childless) : Event.ofToken (.tag body) = .leaf content := by
  rw [Event.ofToken, ofTag_eq, form, readTag?_eq_some_iff.mpr described]
  rfl

theorem Describes.ofToken_opening {body : List Char} {content : Content} (described : Describes body content)
    (form : tagForm body = .opening) : Event.ofToken (.tag body) = .opening content := by
  rw [Event.ofToken, ofTag_eq, form, readTag?_eq_some_iff.mpr described]
  rfl

/-- Trees that are written down grow on the level where they are met. -/
theorem Linearises.build {tokens : List Token} {forest : Forest Content} (linearises : Linearises tokens forest)
    (stack : List Open) (level : Forest Content) (events : List Event) :
    Markup.build stack level (tokens.map .ofToken ++ events) = Markup.build stack (level ++ forest) events := by
  induction linearises generalizing stack level events with
  | nil => rw [Forest.append_nil]; rfl
  | blank blank _ ih => rw [List.map_cons, ofToken_of_blank blank, List.cons_append, build_nothing, ih]
  | text some _ ih =>
    rw [List.map_cons, ofToken_of_not_blank some, List.cons_append, build_leaf, ih, Forest.append_assoc]
    rfl
  | childless form described _ ih =>
    rw [List.map_cons, described.ofToken_childless form, List.cons_append, build_leaf, ih, Forest.append_assoc]
    rfl
  | @element _ _ content _ _ kids _ form described _ closes _ ihk ihr =>
    -- What is inside grows on an empty level of its own, and the closing tag takes it back to this one.
    rw [List.map_cons, described.ofToken_opening form, List.cons_append, build_opening, List.map_append,
      List.append_assoc, ihk, Forest.nil_append, List.map_cons, closes.ofToken, List.cons_append,
      build_closing stack kids _ ⟨content, level⟩, ihr, Forest.append_assoc]
    rfl

/-- What a token that fits does to the open elements and to the trees of the innermost one. -/
inductive Advances : List Open → Forest Content → Token → List Open → Forest Content → Prop
  | whole {stack : List Open} {level forest : Forest Content} {token : Token} : Linearises [token] forest →
      Advances stack level token stack (level ++ forest)
  | opens {stack : List Open} {level : Forest Content} {body : List Char} {content : Content} :
      tagForm body = .opening → Describes body content →
      Advances stack level (.tag body) (⟨content, level⟩ :: stack) .nil
  | closes {stack : List Open} {level : Forest Content} {body : List Char} {parent : Open} :
      Closes body parent.content.kind →
      Advances (parent :: stack) level (.tag body) stack (parent.before ++ .single parent.content level)

inductive Runs : List Open → Forest Content → List Token → List Open → Forest Content → Prop
  | nil {stack : List Open} {level : Forest Content} : Runs stack level [] stack level
  | cons {stack stack' stack'' : List Open} {level level' level'' : Forest Content} {token : Token}
      {tokens : List Token} : Advances stack level token stack' level' → Runs stack' level' tokens stack'' level'' →
      Runs stack level (token :: tokens) stack'' level''

/-- Tokens that close all that is open, innermost first, and go on from there. -/
inductive Completes : List Open → Forest Content → List Token → Forest Content → Prop
  | done {level forest : Forest Content} {tokens : List Token} : Linearises tokens forest →
      Completes [] level tokens (level ++ forest)
  | close {parent : Open} {stack : List Open} {level kids forest : Forest Content} {inner rest : List Token}
      {body : List Char} : Linearises inner kids → Closes body parent.content.kind →
      Completes stack (parent.before ++ .single parent.content (level ++ kids)) rest forest →
      Completes (parent :: stack) level (inner ++ .tag body :: rest) forest

section

variable {stack stack' : List Open} {level level' forest : Forest Content} {token : Token} {tokens : List Token}

theorem Advances.build_eq (advances : Advances stack level token stack' level') (events : List Event) :
    build stack level (.ofToken token :: events) = build stack' level' events := by
  cases advances with
  | whole linearises => exact linearises.build stack level events
  | opens form described => rw [described.ofToken_opening form, build_opening]
  | closes closes => rw [closes.ofToken, build_closing]

/-- A token fits where it is met or is the end of the reading. -/
theorem advances_or_build_eq (stack : List Open) (level : Forest Content) (token : Token) :
    (∃ stack' level', Advances stack level token stack' level') ∨
      ∀ events, build stack level (.ofToken token :: events) = .error token.offence := by
  match token with
  | .unended => exact .inr fun events => build_unreadable stack level events
  | .text run =>
    refine .inl ⟨stack, ?_⟩
    by_cases blank : Blank run
    · exact ⟨_, .whole (.blank blank .nil)⟩
    · exact ⟨_, .whole (.text blank .nil)⟩
  | .tag body =>
    rw [Token.offence, Event.ofToken, ofTag_eq]
    cases form : tagForm body with
    | opening =>
      cases read : readTag? body with
      | none => exact .inr fun events => build_unreadable stack level events
      | some content => exact .inl ⟨_, _, .opens form (readTag?_eq_some_iff.mp read)⟩
    | childless =>
      cases read : readTag? body.dropLast with
      | none => exact .inr fun events => build_unreadable stack level events
      | some content => exact .inl ⟨_, _, .whole (.childless form (readTag?_eq_some_iff.mp read) .nil)⟩
    | closing =>
      cases stack with
      | nil => exact .inr fun events => rfl
      | cons parent stack =>
        by_cases name : Kind.ofTag? (String.ofList (trim body.tail)) = some parent.content.kind
        · exact .inl ⟨_, _, .closes ⟨form, name⟩⟩
        · refine .inr fun events => ?_
          rw [build, if_neg name]
          rfl

theorem Completes.prepend {front : List Token} {trees : Forest Content} (linearises : Linearises front trees)
    (completes : Completes stack (level ++ trees) tokens forest) :
    Completes stack level (front ++ tokens) forest := by
  generalize grown : level ++ trees = level' at completes
  cases completes with
  | done rest =>
    rw [← grown, Forest.append_assoc]
    exact .done (linearises.append rest)
  | close inner closes rest =>
    rw [← grown, Forest.append_assoc] at rest
    rw [← List.append_assoc]
    exact .close (linearises.append inner) closes rest

theorem Advances.completes (advances : Advances stack level token stack' level')
    (completes : Completes stack' level' tokens forest) : Completes stack level (token :: tokens) forest := by
  cases advances with
  | whole linearises => exact completes.prepend linearises
  | opens form described =>
    cases completes with
    | close inner closes rest =>
      -- The first element to be closed is the one that is opened here, so all of it is known now.
      have element := Completes.prepend (.element form described inner closes .nil) rest
      rwa [List.cons_append, List.append_assoc] at element
  | closes closes =>
    change Completes _ level ([] ++ _ :: tokens) forest
    refine .close .nil closes ?_
    rwa [Forest.append_nil]

theorem completes_of_build (read : build stack level (tokens.map .ofToken) = .ok forest) :
    Completes stack level tokens forest := by
  induction tokens generalizing stack level with
  | nil =>
    cases stack with
    | nil =>
      cases read
      have nothing : Completes [] forest [] (forest ++ .nil) := .done .nil
      rwa [Forest.append_nil] at nothing
    | cons parent stack => cases read
  | cons token tokens ih =>
    rw [List.map_cons] at read
    rcases advances_or_build_eq stack level token with ⟨stack', level', advances⟩ | offends
    · rw [advances.build_eq] at read
      exact advances.completes (ih read)
    · rw [offends] at read
      cases read

theorem build_eq_ok_iff : build [] .nil (tokens.map .ofToken) = .ok forest ↔ Linearises tokens forest := by
  constructor
  · intro read
    cases completes_of_build read with
    | done linearises => exact linearises
  · intro linearises
    have read := linearises.build [] .nil []
    rwa [List.append_nil] at read

theorem Runs.build_eq (runs : Runs stack level tokens stack' level') (events : List Event) :
    build stack level (tokens.map .ofToken ++ events) = build stack' level' events := by
  induction runs with
  | nil => rfl
  | cons advances _ ih => rw [List.map_cons, List.cons_append, advances.build_eq, ih]

theorem Runs.append {first second : List Token} {stack'' : List Open} {level'' : Forest Content}
    (runs : Runs stack level first stack' level') (later : Runs stack' level' second stack'' level'') :
    Runs stack level (first ++ second) stack'' level'' := by
  induction runs with
  | nil => exact later
  | cons advances _ ih => exact .cons advances (ih later)

/-- What is open was opened by a tag. -/
def Opened (stack : List Open) : Prop := ∀ parent ∈ stack, ∃ body, Describes body parent.content

theorem Advances.opened (advances : Advances stack level token stack' level') (opened : Opened stack) :
    Opened stack' := by
  cases advances with
  | whole _ => exact opened
  | opens _ described => exact List.forall_mem_cons.mpr ⟨⟨_, described⟩, opened⟩
  | closes _ => exact (List.forall_mem_cons.mp opened).2

theorem Runs.opened (runs : Runs stack level tokens stack' level') (opened : Opened stack) : Opened stack' := by
  induction runs with
  | nil => exact opened
  | cons advances _ ih => exact ih (advances.opened opened)

theorem Opened.exists_build_eq (opened : Opened stack) (level : Forest Content) :
    ∃ (more : List Token) (forest : Forest Content), build stack level (more.map .ofToken) = .ok forest := by
  induction stack generalizing level with
  | nil => exact ⟨[], level, rfl⟩
  | cons parent stack ih =>
    obtain ⟨⟨body, described⟩, others⟩ := List.forall_mem_cons.mp opened
    obtain ⟨name, trimmed, known⟩ := described.exists_name
    have closes : Closes ('/' :: name) parent.content.kind := closes_of_trim trimmed known
    obtain ⟨more, forest, read⟩ := ih others (parent.before ++ .single parent.content level)
    refine ⟨.tag ('/' :: name) :: more, forest, ?_⟩
    rw [List.map_cons, (Advances.closes closes).build_eq, read]

/-- Tokens all fit, or the first that does not is where they are refused. -/
theorem runs_or_refused (stack : List Open) (level : Forest Content) (tokens : List Token) :
    (∃ stack' level', Runs stack level tokens stack' level') ∨
      ∃ before token after stack' level', tokens = before ++ token :: after ∧ Runs stack level before stack' level' ∧
        ∀ events, build stack' level' (.ofToken token :: events) = .error token.offence := by
  induction tokens generalizing stack level with
  | nil => exact .inl ⟨stack, level, .nil⟩
  | cons token tokens ih =>
    rcases advances_or_build_eq stack level token with ⟨stack', level', advances⟩ | offends
    · rcases ih stack' level' with
        ⟨stack'', level'', runs⟩ | ⟨before, bad, after, stack'', level'', rfl, runs, offends⟩
      · exact .inl ⟨stack'', level'', .cons advances runs⟩
      · exact .inr ⟨token :: before, bad, after, stack'', level'', rfl, .cons advances runs, offends⟩
    · exact .inr ⟨[], token, tokens, stack, level, rfl, .nil, offends⟩

theorem not_viable_of_refused {before : List Token} (runs : Runs [] .nil before stack level)
    (offends : ∀ events, build stack level (.ofToken token :: events) = .error token.offence) (after : List Token) :
    ¬ Viable (before ++ token :: after) := by
  rintro ⟨more, forest, linearises⟩
  have read := build_eq_ok_iff.mpr linearises
  rw [List.append_assoc, List.map_append, runs.build_eq, List.cons_append, List.map_cons, offends] at read
  cases read

theorem viable_iff : Viable tokens ↔ ∃ stack level, Runs [] .nil tokens stack level := by
  constructor
  · intro viable
    rcases runs_or_refused [] .nil tokens with runs | ⟨before, token, after, stack, level, rfl, runs, offends⟩
    · exact runs
    · exact absurd viable (not_viable_of_refused runs offends after)
  · rintro ⟨stack, level, runs⟩
    -- To close all that is open is one way to go on.
    have opened : Opened [] := fun parent member => absurd member List.not_mem_nil
    obtain ⟨more, forest, read⟩ := (runs.opened opened).exists_build_eq level
    refine ⟨more, forest, build_eq_ok_iff.mp ?_⟩
    rw [List.map_append, runs.build_eq, read]

theorem build_eq_error_iff {cause : MarkupError} :
    build [] .nil (tokens.map .ofToken) = .error cause ↔ Offends tokens cause := by
  constructor
  · intro refused
    rcases runs_or_refused [] .nil tokens with
      ⟨stack, level, runs⟩ | ⟨before, token, after, stack, level, rfl, runs, offends⟩
    · have whole := runs.build_eq []
      rw [List.append_nil, refused] at whole
      cases stack with
      | nil => cases whole
      | cons parent stack =>
        cases whole
        refine .ending (viable_iff.mpr ⟨_, _, runs⟩) fun forest linearises => ?_
        rw [build_eq_ok_iff.mpr linearises] at refused
        cases refused
    · rw [List.map_append, runs.build_eq, List.map_cons, offends] at refused
      cases refused
      exact .token rfl (viable_iff.mpr ⟨_, _, runs⟩) (not_viable_of_refused runs offends [])
  · intro offends
    cases offends with
    | @token before after token split viable stuck =>
      obtain ⟨stack, level, runs⟩ := viable_iff.mp viable
      rcases advances_or_build_eq stack level token with ⟨stack', level', advances⟩ | offends
      · exact absurd (viable_iff.mpr ⟨stack', level', runs.append (.cons advances .nil)⟩) stuck
      · rw [split, List.map_append, runs.build_eq, List.map_cons, offends]
    | ending viable unread =>
      obtain ⟨stack, level, runs⟩ := viable_iff.mp viable
      have whole := runs.build_eq []
      rw [List.append_nil] at whole
      cases stack with
      | nil => exact absurd (build_eq_ok_iff.mp whole) (unread level)
      | cons parent stack => exact whole

end

/-- A text falls into its tokens in one way. It is read as the trees that these tokens are, and refused for the first
token that does not fit or for what is left open. -/
theorem parse_decides_nesting (source : String) :
    ∃ tokens, (∀ other, Splits source.toList other ↔ other = tokens) ∧
      (∀ forest, parse source = .ok forest ↔ Linearises tokens forest) ∧
      ∀ cause, parse source = .error cause ↔ Offends tokens cause := by
  refine ⟨scan source.toList, fun other => splits_iff, ?_, ?_⟩
  · intro forest
    exact build_eq_ok_iff
  · intro cause
    exact build_eq_error_iff

-- The outer element is closed while the inner one is open, and before that a quoted `>` ends no tag.
example : parse "<div id=\">\">a <h1>b</div></h1>" = .error .unbalanced := by cbv

end PocketReader.Markup
