import PocketReader.Storage
import PocketReader.Storage.Path

/-! Files below a directory. A path that is asked for is put below the path of the directory step by step, and one
that goes up is refused, so that nothing outside the directory is ever reached. -/
namespace PocketReader.Storage

inductive Tree where
  | file (contents : ByteArray)
  | directory (entries : List (String × Tree))

namespace Tree

def empty : Tree := .directory []

/-- What stands at a place below this one. -/
def at? : List String → Tree → Option Tree
  | [], t => some t
  | name :: rest, .directory entries => (entries.lookup name).bind (at? rest)
  | _ :: _, .file _ => none

def isFile : Tree → Bool
  | .file _ => true
  | .directory _ => false

/-- Puts a tree at a place, with the directories that lead to it; what was there before is hidden. -/
def put (t : Tree) : List String → Tree → Tree
  | [], _ => t
  | name :: rest, .directory entries => .directory ((name, t.put rest ((entries.lookup name).getD empty)) :: entries)
  | name :: rest, .file _ => .directory [(name, t.put rest empty)]

end Tree

/-- A place in a file system, by what stands there and the directories above it, the nearest first. -/
structure Position where
  here : Tree
  above : List Tree := []

/-- A file system knows no longer names than these, in bytes. -/
def longestName : Nat := 255

/-- Follows one piece of a path. Only a directory can be gone on from, even by a piece that says nothing. -/
def Position.go (p : Position) (piece : String) : Except StorageError Position :=
  match p.here with
  | .file _ => .error .device
  | .directory entries =>
    if piece = "" ∨ piece = "." then .ok p
    else if piece = ".." then
      match p.above with
      | [] => .ok p
      | parent :: above => .ok ⟨parent, above⟩
    else if longestName < piece.utf8ByteSize then .error .device
    else
      match entries.lookup piece with
      | none => .error .notFound
      | some t => .ok ⟨t, p.here :: p.above⟩

structure FileSystem where
  top : Tree := .empty
  /-- Where paths begin that do not start at the top. -/
  working : List String := []

namespace FileSystem

/-- Where a path leads. -/
def follow (fs : FileSystem) (path : String) : Except StorageError Position :=
  ((if Path.startsAtTop path then [] else fs.working) ++ Path.pieces path).foldlM Position.go ⟨fs.top, []⟩

def find (fs : FileSystem) (path : String) : Except StorageError Tree :=
  if path = "" then .error .notFound
  else if Path.isSound path then (fs.follow path).map Position.here
  else .error .device

def read (fs : FileSystem) (path : String) : Except StorageError ByteArray :=
  match fs.find path with
  | .error e => .error e
  | .ok (.file contents) => .ok contents
  | .ok (.directory _) => .error .device

def isFile (fs : FileSystem) (path : String) : Bool :=
  match fs.find path with
  | .error _ => false
  | .ok t => t.isFile

end FileSystem

structure Directory where
  /-- The path of the directory. -/
  root : String := "/"
  files : FileSystem := {}

namespace Directory

/-- The place that one step leads to, if that is not out of the directory. -/
def descend (place : String) : Path.Step → Except StorageError String
  | .name name => .ok (Path.push place name)
  | .here => .ok place
  | .top | .up => .error .invalidPath

/-- The path below `root` that a path stands for, with or without slashes in front. -/
def resolve (root path : String) : Except StorageError String :=
  (Path.steps (Path.withoutLeadingSlashes path)).foldlM descend root

def read (d : Directory) (path : String) : Except StorageError ByteArray :=
  match resolve d.root path with
  | .error e => .error e
  | .ok place => d.files.read place

def contains (d : Directory) (path : String) : Bool :=
  match resolve d.root path with
  | .error _ => false
  | .ok place => d.files.isFile place

/-- Puts a file where a path leads from the top of the file system. -/
def insertFile (d : Directory) (path : String) (contents : ByteArray) : Directory :=
  { d with files.top := Tree.put (.file contents) (Path.segments path) d.files.top }

/-- A directory that is there already keeps what it holds. -/
def insertDirectory (d : Directory) (path : String) : Directory :=
  let place := Path.segments path
  { d with files.top := Tree.put ((Tree.at? place d.files.top).getD .empty) place d.files.top }

instance : Storage Directory := ⟨read, contains⟩

end Directory
end PocketReader.Storage
