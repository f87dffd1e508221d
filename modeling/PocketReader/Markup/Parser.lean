import PocketReader.Markup.Tag
import PocketReader.Markup.Token

/-! Markup read as trees. Tags have to nest, and the first token that does not fit decides what is wrong. -/
namespace PocketReader.Markup

inductive MarkupError where
  | invalidEncoding
  /-- A tag is left open, or closed out of order. -/
  | unbalanced
  /-- A tag cannot be read. -/
  | malformed
  deriving DecidableEq

def MarkupError.message : MarkupError → String
  | .invalidEncoding => "markup is not valid UTF-8"
  | .unbalanced => "unbalanced tags"
  | .malformed => "malformed tag"

inductive Event where
  | leaf (content : Content)
  | opening (content : Content)
  /-- The kind the tag names, if it names one. -/
  | closing (kind? : Option Kind)
  | nothing
  | unreadable
  deriving DecidableEq

/-- A slash in front closes an element, and one at the end says that nothing is inside. -/
def Event.ofTag (body : List Char) : Event :=
  match body with
  | '/' :: name => .closing (Kind.ofTag? (String.ofList (Text.trim name)))
  | _ =>
    if body.getLast? = some '/' then (readTag? body.dropLast).elim .unreadable .leaf
    else (readTag? body).elim .unreadable .opening

/-- Text counts with its blanks collapsed, and not at all when it is blank. -/
def Event.ofToken : Token → Event
  | .text run =>
    let collapsed := Text.collapse run
    if collapsed.isEmpty then .nothing else .leaf (.text [String.ofList collapsed])
  | .tag body => .ofTag body
  | .unended => .unreadable

/-- An element that is still open, and the trees before it. -/
structure Open where
  content : Content
  before : Forest Content
  deriving DecidableEq

/-- Grows the trees of the innermost open element, `level`, event by event. -/
def build : List Open → Forest Content → List Event → Except MarkupError (Forest Content)
  | [], level, [] => .ok level
  | _ :: _, _, [] => .error .unbalanced
  | stack, level, .leaf content :: rest => build stack (level ++ .single content .nil) rest
  | stack, level, .opening content :: rest => build (⟨content, level⟩ :: stack) .nil rest
  | [], _, .closing _ :: _ => .error .unbalanced
  | parent :: stack, level, .closing kind? :: rest =>
    if kind? = some parent.content.kind then build stack (parent.before ++ .single parent.content level) rest
    else .error .unbalanced
  | stack, level, .nothing :: rest => build stack level rest
  | _, _, .unreadable :: _ => .error .malformed

def parse (source : String) : Except MarkupError (Forest Content) :=
  build [] .nil ((scan source.toList).map .ofToken)

end PocketReader.Markup
