import PocketReader.Display
import PocketReader.Markup.Parser
import PocketReader.Script.Error

/-! What the reader has to tell besides what it shows: lines from page scripts, warnings, and a trace of the pages and
scripts that were taken up. -/
namespace PocketReader

inductive Level where
  | info
  | warn
  | error
  deriving DecidableEq

inductive LoadError where
  | storage (path : String) (cause : StorageError)
  | markup (path : String) (cause : Markup.MarkupError)
  deriving DecidableEq

def LoadError.message : LoadError → String
  | .storage path cause => "cannot read page " ++ path ++ ": " ++ cause.message
  | .markup path cause => "cannot parse page " ++ path ++ ": " ++ cause.message

inductive Warning where
  | scriptFailed (label : String) (cause : Script.Error)
  | scriptFileFailed (path : String) (cause : Script.Error)
  /-- A page has to do without its scripts. -/
  | scriptsMissing (cause : String)
  /-- Markup that a script wanted to put into the page. -/
  | markupRejected (cause : Markup.MarkupError)
  /-- Markup that a script wanted to put into the page while an element was being made. -/
  | documentBusy
  | loadFailed (cause : LoadError)
  | startPageFailed (cause : LoadError)
  | settingsRejected (path : String)
  | frameDropped (cause : DisplayError)
  deriving DecidableEq

namespace Warning

def message : Warning → String
  | .scriptFailed _ _ => "script failed"
  | .scriptFileFailed _ _ => "script failed"
  | .scriptsMissing _ => "no script context for page"
  | .markupRejected _ => "innerHTML markup rejected"
  | .documentBusy => "document busy, innerHTML ignored"
  | .loadFailed _ => "page load failed"
  | .startPageFailed _ => "start page failed to load"
  | .settingsRejected _ => "configuration rejected"
  | .frameDropped _ => "frame dropped"

def fields : Warning → List (String × String)
  | .scriptFailed label cause => [("label", label), ("err", cause.message)]
  | .scriptFileFailed path cause => [("src", path), ("err", cause.message)]
  | .scriptsMissing cause => [("err", "interpreter error: " ++ cause)]
  | .markupRejected cause => [("err", cause.message)]
  | .documentBusy => []
  | .loadFailed cause => [("err", cause.message)]
  | .startPageFailed cause => [("err", cause.message)]
  | .settingsRejected path => [("path", path)]
  | .frameDropped .busy => [("err", "Busy")]

end Warning

inductive LogEntry where
  /-- A line a page script wrote. -/
  | console (level : Level) (line : String)
  | warning (w : Warning)
  /-- A page has taken the place of the one before. -/
  | loaded (path : String)
  /-- A script is about to run for the page loaded last. -/
  | evaluating (source : ByteArray)

end PocketReader
