import PocketReader.Log
import PocketReader.Settings.Decode
import PocketReader.Storage

/-! Settings from a file. Without the file the device has its defaults; a file that cannot be used is an error. -/
namespace PocketReader

inductive SettingsError where
  | storage (cause : StorageError)
  | encoding
  /-- The text asks for something impossible. -/
  | rejected
  deriving DecidableEq

namespace SettingsError

def message : SettingsError → String
  | .storage cause => "cannot read configuration: " ++ cause.message
  | .encoding => "configuration is not valid UTF-8"
  | .rejected => "invalid configuration"

end SettingsError

def Settings.path : String := "/mouseless.toml"

def Settings.load {σ : Type} [Storage σ] (files : σ) (path : String) :
    Except SettingsError Settings × List LogEntry :=
  match Storage.read files path with
  | .error .notFound => (.ok {}, [])
  | .error cause => (.error (.storage cause), [])
  | .ok bytes =>
    match String.fromUTF8? bytes with
    | none => (.error .encoding, [])
    | some text =>
      match Settings.ofText? text with
      | none => (.error .rejected, [.warning (.settingsRejected path)])
      | some settings => (.ok settings, [])

end PocketReader
