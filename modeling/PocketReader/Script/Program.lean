import PocketReader.Text.Units

/-! Page scripts. A script is a list of functions without parameters, which exist before anything runs, and a list of
statements. There are no branches and no loops; the only way to repeat something is to call a function. -/
namespace PocketReader.Script

open PocketReader.Text

inductive Constant where
  | null
  | boolean (b : Bool)
  | number (x : Float)
  | text (u : Units)

inductive Expression where
  | constant (c : Constant)
  | name (name : String)
  /-- The object a function was called on; outside of functions, the object that holds the variables. -/
  | receiver
  | array (items : List Expression)
  /-- A fresh object without properties. -/
  | record
  | member (object : Expression) (property : String)
  | call (callee : Expression) (arguments : List Expression)
  | construct (callee : Expression) (arguments : List Expression)
  | sum (left right : Expression)
  /-- As a number. -/
  | positive (e : Expression)
  /-- As a number, with the other sign. -/
  | negative (e : Expression)
  | assign (name : String) (value : Expression)
  /-- Adds to a variable. -/
  | extend (name : String) (value : Expression)
  | assignMember (object : Expression) (property : String) (value : Expression)
  /-- Adds to a property. -/
  | extendMember (object : Expression) (property : String) (value : Expression)
  /-- One after the other; the value is that of the second. -/
  | sequence (first second : Expression)

inductive Statement where
  | declare (name : String) (value? : Option Expression)
  | throw (value : Expression)
  | evaluate (value : Expression)

structure Function where
  name : String
  body : List Statement
  /-- The function as it stands in the source. -/
  text : Units

structure Program where
  functions : List Function := []
  statements : List Statement := []

def Statement.declared? : Statement → Option String
  | .declare name _ => some name
  | _ => none

end PocketReader.Script
