/-! The kinds of node a page is made of, and the tag that stands for each. -/
namespace PocketReader

inductive Kind where
  | text
  | heading
  | link
  | button
  | container
  | body
  | head
  | script
  | title
  deriving DecidableEq

namespace Kind

/-- Plain text has no tag; every other kind has one. -/
def ofTag? : String → Option Kind
  | "h1" => some .heading
  | "a" => some .link
  | "button" => some .button
  | "div" => some .container
  | "body" => some .body
  | "head" => some .head
  | "script" => some .script
  | "title" => some .title
  | _ => none

/-- Layout goes into the children of these. -/
def isContainer : Kind → Bool
  | .container | .body => true
  | _ => false

/-- These take the focus without being told to. -/
def isInteractive : Kind → Bool
  | .link | .button => true
  | _ => false

/-- These show the text of their first child. -/
def bearsText : Kind → Bool
  | .link | .button | .heading | .title => true
  | _ => false

end Kind
end PocketReader
