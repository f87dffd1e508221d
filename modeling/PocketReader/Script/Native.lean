import PocketReader.Log
import PocketReader.Page.Document

/-! The functions that exist before any script runs: those of the page, and those that come with the script language.
Only what they are is said here, not what they do. -/
namespace PocketReader.Script

inductive Arithmetic where
  | abs
  | ceil
  | floor
  | round
  | sign
  | sqrt
  | trunc
  deriving DecidableEq

inductive Native where
  | getElementById
  | console (level : Level)
  /-- Gives nothing, whatever it is called on. -/
  | nothing
  /-- Gives nothing, but has to be called on something. -/
  | nothingOnObject
  /-- Gives nothing, but has to be called on something that can be text. -/
  | nothingOnText
  /-- Makes an object of some prototype. -/
  | make (prototype : Nat)
  /-- Makes an object of some prototype, but only after `new`. -/
  | makeOnly (prototype : Nat)
  /-- Gives back what it is given. -/
  | same
  | object
  | objectText
  | objectLocalText
  | objectValue
  | hasOwnProperty
  | isPrototypeOf
  /-- Says which function is called when a property is written. -/
  | defineSetter
  | function
  | functionText
  | call
  | apply
  /-- Makes an error of some prototype. -/
  | error (prototype : Nat)
  | errorText
  /-- Makes an error of several others. -/
  | errorOfMany (prototype : Nat)
  | array
  | isArray
  | arrayText
  | join
  | push
  | pop
  | shift
  | unshift
  | reverse
  | text
  | textValue
  | boolean
  | booleanText
  | booleanValue
  | number
  | numberText
  | numberValue
  | symbol
  | symbolText
  | symbolValue
  | bigInteger
  | isNaN
  | isFinite
  | parseInteger
  | parseNumber
  /-- Gives its argument as text. -/
  | asText
  /-- The text of a search pattern, of which only the empty one is known. -/
  | patternText
  /-- Wants a function. -/
  | withFunction
  | arithmetic (operation : Arithmetic)
  /-- The largest of its arguments, or the smallest. -/
  | extreme (largest : Bool)
  deriving DecidableEq

/-- What happens when a property is read that holds no value. -/
inductive Getter where
  | prototype
  | forbidden
  deriving DecidableEq

/-- What happens when a property is written that holds no value. -/
inductive Setter where
  | prototype
  | forbidden
  /-- Puts markup below a node of the page. -/
  | markup (node : Handle)
  /-- Calls the function at an address. -/
  | function (address : Nat)
  deriving DecidableEq

end PocketReader.Script
