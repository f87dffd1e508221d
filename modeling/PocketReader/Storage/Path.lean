/-! Paths as text: pieces with slashes between them. What a path says is a list of steps, and two texts with the same
steps lead to the same place. -/
namespace PocketReader.Storage.Path

inductive Step where
  /-- To the top of a file system. -/
  | top
  | here
  | up
  | name (name : String)
  deriving DecidableEq

/-- What stands between slashes. -/
def pieces (path : String) : List String := (path.toList.splitOn '/').map String.ofList

/-- The pieces that say something; empty ones and single dots do not. -/
def segments (path : String) : List String := (pieces path).filter fun s => s != "" && s != "."

def startsAtTop (path : String) : Bool := path.toList.head? == some '/'

def stepOf (segment : String) : Step := if segment = ".." then .up else .name segment

/-- A single dot is a step only where a path begins with it. -/
def steps (path : String) : List Step :=
  if startsAtTop path then .top :: (segments path).map stepOf
  else if (pieces path).head? = some "." then .here :: (segments path).map stepOf
  else (segments path).map stepOf

def withoutLeadingSlashes (path : String) : String := String.ofList (path.toList.dropWhile (· == '/'))

/-- The path of a name below another path. -/
def push (path name : String) : String :=
  if path = "" ∨ path.toList.getLast? = some '/' then path ++ name else path ++ "/" ++ name

/-- Paths are shorter than this, in bytes. -/
def limit : Nat := 4096

/-- Whether a file system can be asked for a path. No path goes on after a NUL. -/
def isSound (path : String) : Bool := !path.toList.contains '\x00' && decide (path.utf8ByteSize < limit)

end PocketReader.Storage.Path
