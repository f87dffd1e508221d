import PocketReader.Storage
import PocketReader.Storage.Path

/-! Files kept in memory. A path means the same with and without slashes in front. -/
namespace PocketReader.Storage

structure Memory where
  /-- By key, the latest first. -/
  files : List (String × ByteArray) := []
  /-- Paths, exactly as they are asked for, whose reading fails. -/
  faults : List (String × StorageError) := []

namespace Memory

def key (path : String) : String := Path.withoutLeadingSlashes path

def insert (m : Memory) (path : String) (contents : ByteArray) : Memory :=
  { m with files := (key path, contents) :: m.files }

def find? (m : Memory) (path : String) : Option ByteArray := m.files.lookup (key path)

def read (m : Memory) (path : String) : Except StorageError ByteArray :=
  match m.faults.lookup path, m.find? path with
  | some fault, _ => .error fault
  | none, some contents => .ok contents
  | none, none => .error .notFound

def contains (m : Memory) (path : String) : Bool := (m.read path).isOk

instance : Storage Memory := ⟨read, contains⟩

theorem find?_insert (m : Memory) (path other : String) (contents : ByteArray) :
    (m.insert path contents).find? other = if key other = key path then some contents else m.find? other := by
  unfold find? insert
  by_cases h : key other = key path
  · simp only [h, List.lookup_cons, beq_self_eq_true, if_true]
  · simp only [List.lookup_cons, beq_false_of_ne h, if_neg h]

end Memory
end PocketReader.Storage
