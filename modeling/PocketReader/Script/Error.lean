import PocketReader.Storage

/-! What keeps a script from running to its end. -/
namespace PocketReader.Script

inductive Fault where
  /-- A byte stands for nothing, other than in a comment. -/
  | encoding
  /-- A character starts no token. -/
  | character
  | number
  /-- A zero stands in front of other digits. -/
  | leadingZero
  /-- A backslash and what follows stand for nothing. -/
  | escape
  /-- A backslash stands before a digit. -/
  | escapedDigit
  /-- A text in quotes does not end on its line. -/
  | openText
  | openComment
  /-- Another sign has to stand here. -/
  | expecting (sign : Char)
  /-- A token starts no expression. -/
  | unexpected (token : String)
  | property
  | variableName
  | functionName
  /-- A variable that scripts may not have. -/
  | forbiddenVariable
  | forbiddenFunction
  /-- A name that scripts may not assign to. -/
  | forbiddenTarget
  /-- Something other than a name or a property is assigned to. -/
  | target
  /-- What is thrown stands on another line. -/
  | thrownOnNextLine

def Fault.message : Fault → String
  | .encoding => "invalid UTF-8 sequence"
  | .character => "unexpected character"
  | .number => "invalid number literal"
  | .leadingZero => "octal literals are deprecated in strict mode"
  | .escape => "malformed escape sequence in string literal"
  | .escapedDigit => "octal escape sequences are not allowed in strict mode"
  | .openText => "unexpected end of string"
  | .openComment => "unexpected end of comment"
  | .expecting sign => "expecting '" ++ sign.toString ++ "'"
  | .unexpected token => "unexpected token in expression: '" ++ token ++ "'"
  | .property => "expecting field name"
  | .variableName => "variable name expected"
  | .functionName => "function name expected"
  | .forbiddenVariable => "invalid variable name in strict mode"
  | .forbiddenFunction => "invalid function name in strict code"
  | .forbiddenTarget => "invalid lvalue in strict mode"
  | .target => "invalid assignment left-hand side"
  | .thrownOnNextLine => "line terminator not allowed after throw"

inductive Error where
  /-- A NUL in the source, at this byte; nothing of it runs. -/
  | nul (position : Nat)
  /-- Something was thrown and not caught. -/
  | exception (text : String)
  /-- The file of the script could not be read. -/
  | storage (path : String) (cause : StorageError)
  deriving DecidableEq

def Error.message : Error → String
  | .nul position =>
    "interpreter error: String contained internal null bytes: nul byte found in provided data at position: " ++
      toString position
  | .exception text => "uncaught exception: " ++ text
  | .storage path cause => "cannot read script " ++ path ++ ": " ++ cause.message

end PocketReader.Script
