/-! Files by path. They are read whole. -/
namespace PocketReader

inductive StorageError where
  | notFound
  | invalidPath
  /-- The device failed. -/
  | device
  deriving DecidableEq

def StorageError.message : StorageError → String
  | .notFound => "file not found"
  | .invalidPath => "invalid path"
  | .device => "storage I/O error"

class Storage (σ : Type) where
  read : σ → String → Except StorageError ByteArray
  contains : σ → String → Bool

end PocketReader
