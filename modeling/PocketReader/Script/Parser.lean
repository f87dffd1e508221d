import PocketReader.Script.Program
import PocketReader.Script.Token

/-! Scripts read from their tokens. Every function takes at most as many nested steps as its first argument says. A
script is refused at the first token that cannot stand where it does. -/
namespace PocketReader.Script

open PocketReader.Text

abbrev Parser (α : Type) := List Token → Except Fault (α × List Token)

/-- Words with a meaning of their own, which cannot be names. -/
def keywords : List String :=
  [ "null", "false", "true", "if", "else", "return", "var", "this", "delete", "void", "typeof", "new", "in",
    "instanceof", "do", "while", "for", "break", "continue", "switch", "case", "default", "throw", "try", "catch",
    "finally", "function", "debugger", "with", "class", "const", "enum", "export", "extends", "import", "super",
    "implements", "interface", "let", "package", "private", "protected", "public", "static", "yield" ]

/-- Names that scripts can use, but neither declare nor assign to. -/
def forbidden : List String := ["eval", "arguments"]

def Token.isSign (c : Char) (token : Token) : Bool :=
  match token.lexeme with
  | .sign d => c == d
  | _ => false

def Token.isWord (s : String) (token : Token) : Bool :=
  match token.lexeme with
  | .word t => s == t
  | _ => false

def Token.isStop (token : Token) : Bool :=
  match token.lexeme with
  | .stop => true
  | _ => false

def sign? (c : Char) : List Token → Option (List Token)
  | token :: rest => if token.isSign c then some rest else none
  | [] => none

def word? (s : String) : List Token → Option (List Token)
  | token :: rest => if token.isWord s then some rest else none
  | [] => none

/-- Refuses the token at the front for one reason, or for its own if it cannot be read. -/
def refuseFor {α : Type} (fault : Fault) : List Token → Except Fault α
  | token :: _ =>
    match token.lexeme with
    | .unreadable own => .error own
    | _ => .error fault
  | [] => .error fault

/-- Refuses the token at the front as the start of an expression. -/
def refuse {α : Type} : List Token → Except Fault α
  | token :: rest => refuseFor (.unexpected token.text) (token :: rest)
  | [] => .error (.unexpected "")

def expectSign (c : Char) (tokens : List Token) : Except Fault (List Token) :=
  match sign? c tokens with
  | some rest => .ok rest
  | none => refuseFor (.expecting c) tokens

/-- A name; `fault` is told when none is there. -/
def name (fault : Fault) : Parser String
  | token :: rest =>
    match token.lexeme with
    | .word s => if keywords.contains s then .error fault else .ok (s, rest)
    | _ => refuseFor fault (token :: rest)
  | [] => .error fault

/-- The property after a point; any word will do. -/
def property : Parser String
  | token :: rest =>
    match token.lexeme with
    | .word s => .ok (s, rest)
    | _ => refuseFor .property (token :: rest)
  | [] => .error .property

/-- How a value is given to what an expression stands for. -/
def assignment : Expression → Except Fault (Expression → Expression)
  | .name s => if forbidden.contains s then .error .forbiddenTarget else .ok (.assign s)
  | .member object property => .ok (.assignMember object property)
  | _ => .error .target

/-- How something is added to what an expression stands for. -/
def extension : Expression → Except Fault (Expression → Expression)
  | .name s => if forbidden.contains s then .error .forbiddenTarget else .ok (.extend s)
  | .member object property => .ok (.extendMember object property)
  | _ => .error .target

def Token.isPlusEquals (token : Token) : Bool :=
  match token.lexeme with
  | .plusEquals => true
  | _ => false

/-- What the sign after a target does with the target, if it is an assignment. -/
def assigner? (target : Expression) : List Token → Option (Except Fault (Expression → Expression) × List Token)
  | token :: rest =>
    if token.isSign '=' then some (assignment target, rest)
    else if token.isPlusEquals then some (extension target, rest)
    else none
  | [] => none

mutual

def expression (n : Nat) (tokens : List Token) : Except Fault (Expression × List Token) :=
  match n with
  | 0 => refuse tokens
  | n + 1 => do
    let (e, rest) ← single n tokens
    match sign? ',' rest with
    | none => .ok (e, rest)
    | some rest => do
      let (second, rest) ← expression n rest
      .ok (.sequence e second, rest)

def single (n : Nat) (tokens : List Token) : Except Fault (Expression × List Token) :=
  match n with
  | 0 => refuse tokens
  | n + 1 => do
    let (left, rest) ← operand n tokens
    let (target, rest) ← sum n left rest
    match assigner? target rest with
    | none => .ok (target, rest)
    | some (.error fault, rest) => refuseFor fault rest
    | some (.ok assign, rest) => do
      let (value, rest) ← single n rest
      .ok (assign value, rest)

/-- What is added to the left operand, from left to right. -/
def sum (n : Nat) (left : Expression) (tokens : List Token) : Except Fault (Expression × List Token) :=
  match n with
  | 0 => refuse tokens
  | n + 1 =>
    match sign? '+' tokens with
    | none => .ok (left, tokens)
    | some rest => do
      let (right, rest) ← operand n rest
      sum n (.sum left right) rest

def operand (n : Nat) (tokens : List Token) : Except Fault (Expression × List Token) :=
  match n with
  | 0 => refuse tokens
  | n + 1 =>
    match sign? '-' tokens, sign? '+' tokens with
    | some rest, _ => do
      let (e, rest) ← operand n rest
      .ok (.negative e, rest)
    | none, some rest => do
      let (e, rest) ← operand n rest
      .ok (.positive e, rest)
    | none, none => do
      let (e, rest) ← atom n tokens
      access n true e rest

/-- Properties that follow an expression, and calls if they are allowed. -/
def access (n : Nat) (calls : Bool) (e : Expression) (tokens : List Token) :
    Except Fault (Expression × List Token) :=
  match n with
  | 0 => refuse tokens
  | n + 1 =>
    match sign? '.' tokens, sign? '(' tokens with
    | some rest, _ => do
      let (property, rest) ← property rest
      access n calls (.member e property) rest
    | none, some rest =>
      if calls then do
        let (arguments, rest) ← list n ')' ',' rest
        access n calls (.call e arguments) rest
      else .ok (e, tokens)
    | none, none => .ok (e, tokens)

def atom (n : Nat) (tokens : List Token) : Except Fault (Expression × List Token) :=
  match n with
  | 0 => refuse tokens
  | n + 1 =>
    match tokens with
    | [] => refuse tokens
    | token :: rest =>
      match token.lexeme with
      | .number x => .ok (.constant (.number x), rest)
      | .text u => .ok (.constant (.text u), rest)
      | .sign '(' => do
        let (e, rest) ← expression n rest
        let rest ← expectSign ')' rest
        .ok (e, rest)
      | .sign '[' => do
        let (items, rest) ← list n ']' ']' rest
        .ok (.array items, rest)
      | .sign '{' => do
        let rest ← expectSign '}' rest
        .ok (.record, rest)
      | .word "null" => .ok (.constant .null, rest)
      | .word "true" => .ok (.constant (.boolean true), rest)
      | .word "false" => .ok (.constant (.boolean false), rest)
      | .word "this" => .ok (.receiver, rest)
      | .word "new" => do
        let (e, rest) ← atom n rest
        let (callee, rest) ← access n false e rest
        match sign? '(' rest with
        | none => .ok (.construct callee [], rest)
        | some rest => do
          let (arguments, rest) ← list n ')' ',' rest
          .ok (.construct callee arguments, rest)
      | .word s => if keywords.contains s then refuse tokens else .ok (.name s, rest)
      | _ => refuse tokens

/-- Expressions with commas between them, up to a closing sign; after each of them, that sign or a comma may stand,
and `missing` is the one asked for. -/
def list (n : Nat) (close missing : Char) (tokens : List Token) : Except Fault (List Expression × List Token) :=
  match n with
  | 0 => refuse tokens
  | n + 1 =>
    match sign? close tokens with
    | some rest => .ok ([], rest)
    | none => do
      let (e, rest) ← single n tokens
      match sign? ',' rest, sign? close rest with
      | some rest, _ => do
        let (others, rest) ← list n close missing rest
        .ok (e :: others, rest)
      | none, some rest => .ok ([e], rest)
      | none, none => refuseFor (.expecting missing) rest

end

/-- A statement ends at a semicolon, before a closing brace, at a line break, or with the script. -/
def ended : List Token → Except Fault (List Token)
  | [] => .ok []
  | token :: rest =>
    if token.isSign ';' then .ok rest
    else if token.isSign '}' || token.isStop || token.first then .ok (token :: rest)
    else refuseFor (.expecting ';') (token :: rest)

def declarations : Nat → Parser (List Statement)
  | 0, tokens => refuse tokens
  | n + 1, tokens => do
    let (called, rest) ← name .variableName tokens
    if forbidden.contains called then refuseFor .forbiddenVariable rest
    else
      let (value?, rest) ← match sign? '=' rest with
        | none => .ok (none, rest)
        | some rest => do
          let (value, rest) ← single n rest
          .ok (some value, rest)
      match sign? ',' rest with
      | none => .ok ([.declare called value?], rest)
      | some rest => do
        let (others, rest) ← declarations n rest
        .ok (.declare called value? :: others, rest)

/-- What is thrown stands on the line of the word for it. -/
def thrown (n : Nat) : Parser Statement
  | [] => refuse []
  | token :: rest => do
    if token.first then refuseFor .thrownOnNextLine (token :: rest)
    else
      let (value, rest) ← expression n (token :: rest)
      .ok (.throw value, rest)

mutual

/-- A statement with the sign that ends it. Braces only hold statements together. Variables are declared outside of
functions. -/
def statement (n : Nat) (inFunction : Bool) (tokens : List Token) : Except Fault (List Statement × List Token) :=
  match n with
  | 0 => refuse tokens
  | n + 1 =>
    match sign? ';' tokens, sign? '{' tokens with
    | some rest, _ => .ok ([], rest)
    | none, some rest => do
      let (held, rest) ← statements n inFunction rest
      .ok (held, rest.drop 1)
    | none, none =>
      match word? "var" tokens, word? "throw" tokens with
      | some rest, _ =>
        if inFunction then refuse tokens
        else do
          let (declared, rest) ← declarations n rest
          let rest ← ended rest
          .ok (declared, rest)
      | none, some rest => do
        let (s, rest) ← thrown n rest
        let rest ← ended rest
        .ok ([s], rest)
      | none, none => do
        let (e, rest) ← expression n tokens
        let rest ← ended rest
        .ok ([.evaluate e], rest)

def statements (n : Nat) (inFunction : Bool) (tokens : List Token) : Except Fault (List Statement × List Token) :=
  match n with
  | 0 => refuse tokens
  | n + 1 =>
    match sign? '}' tokens with
    | some _ => .ok ([], tokens)
    | none => do
      let (s, rest) ← statement n inFunction tokens
      let (others, rest) ← statements n inFunction rest
      .ok (s ++ others, rest)

end

/-- A function after the word for it, which stands at the front of `source`. -/
def function (n : Nat) (source : List Piece) (tokens : List Token) : Except Fault (Function × List Token) := do
  let (called, rest) ← name .functionName tokens
  let rest ← expectSign '(' rest
  let rest ← expectSign ')' rest
  let rest ← expectSign '{' rest
  if forbidden.contains called then refuseFor .forbiddenFunction rest
  else
    match ← statements n true rest with
    | (body, brace :: rest) =>
      .ok ({ name := called, body, text := (upTo source brace.rest).flatMap Piece.units }, rest)
    | (_, []) => refuse []

def program : Nat → List Token → Except Fault Program
  | _, [] => .ok {}
  | 0, tokens => refuse tokens
  | n + 1, token :: rest =>
    if token.isStop then .ok {}
    else if token.isWord "function" then do
      let (f, rest) ← function n token.source rest
      let p ← program n rest
      .ok { p with functions := f :: p.functions }
    else do
      let (s, rest) ← statement n false (token :: rest)
      let p ← program n rest
      .ok { p with statements := s ++ p.statements }

/-- A script; no nesting of steps is deeper than a small multiple of the number of tokens. -/
def Program.read (source : List Piece) : Except Fault Program :=
  let tokens := tokens source
  program (8 * tokens.length + 8) tokens

end PocketReader.Script
