import PocketReader.Button.Queue
import PocketReader.Layout.Paint
import PocketReader.Script.World
import PocketReader.Session

/-! The reader: one page at a time, with its scripts, on a display, with two buttons. Everything happens in ticks. A
tick hears the buttons, meets at most one request, and draws a frame. -/
namespace PocketReader

open PocketReader.Script (Chance Engine World)

/-- What a reader is given for good. -/
structure Setup where
  settings : PageSettings := {}
  /-- What pages are read with, and the markup that scripts assign. -/
  parser : Markup.Parser := Markup.tagParser
  /-- What is left to chance in each run of a script, by the number of entries logged before it. The log grows with
  every run, so no two runs have the same to draw from. -/
  chances : Nat → Chance := fun _ _ => false

structure Reader (δ σ : Type) (γ : Type := Script.Heap) extends Setup where
  display : δ
  files : σ
  /-- What keeps scripts from being started, when something does. -/
  obstacle? : Option String := none
  queue : EventQueue := {}
  document : Document := {}
  loaded : Bool := false
  session : Session
  /-- The scripts of the page, as their engine keeps them. -/
  script? : Option (Script.Context γ) := none
  /-- What the status bar says. -/
  title : String
  log : List LogEntry := []

namespace Reader

variable {δ σ γ : Type}

/-- A reader before its first page, with an engine that keeps a memory of some type. -/
def start (γ : Type) (setup : Setup) (display : δ) (files : σ) : Reader δ σ γ :=
  { toSetup := setup, display, files, session := .ofSettings setup.settings, title := setup.settings.title.text }

def note (r : Reader δ σ γ) (entry : LogEntry) : Reader δ σ γ := { r with log := r.log ++ [entry] }

/-- What the scripts of the page can reach. -/
def world (r : Reader δ σ γ) (context : Script.Context γ) : World γ :=
  { context, document := r.document, parser := r.parser, log := r.log }

/-- Lets the scripts of the page act on what they can reach. -/
def withScripts (r : Reader δ σ γ) (act : World γ → World γ) : Reader δ σ γ :=
  match r.script? with
  | none => r
  | some context =>
    let w := act (r.world context)
    { r with script? := some w.context, document := w.document, log := w.log }

/-- What is left to chance in the run that is noted next. -/
def chance (r : Reader δ σ γ) : Chance := r.chances (r.log.length + 1)

def runSnippet [Engine γ] [Engine.Terminating γ] (r : Reader δ σ γ) (label source : String) : Reader δ σ γ :=
  r.withScripts fun w => ((w.note (.evaluating source.toUTF8)).runSnippet r.chance label source).2

/-- The first of some attributes that the root of the page has. -/
def rootAttribute? (r : Reader δ σ γ) (names : List String) : Option String :=
  (r.document.pageRoot?.bind r.document.get?).bind fun root => names.findSome? root.content.attribute?

/-- Runs what the root of the page has under one of some names. -/
def runRootAttribute [Engine γ] [Engine.Terminating γ] (r : Reader δ σ γ) (label : String) (names : List String) :
    Reader δ σ γ :=
  match r.rootAttribute? names with
  | none => r
  | some source => r.runSnippet label source

/-- The nodes directly below the top level; scripts and titles count only there. -/
def headNodes (d : Document) : List (Handle × Content) :=
  (d.top.flatMap d.children).filterMap fun h => (d.get? h).map fun node => (h, node.content)

def scriptPaths (d : Document) : List String :=
  (headNodes d).filterMap fun (_, c) => if c.kind = .script then c.attribute? "src" else none

/-- The first line of the first title that has one. -/
def titleOf? (d : Document) : Option String :=
  (headNodes d).findSome? fun (h, c) => if c.kind = .title then (d.textLines h).head? else none

def refreshIfMutated (r : Reader δ σ γ) : Reader δ σ γ :=
  match r.script? with
  | some { mutated := true, memory } =>
    { r with script? := some { memory }, session := r.session.refresh r.document }
  | _ => r

/-- Leaves a page; what its scripts still do to it is lost with it. -/
def leave [Engine γ] [Engine.Terminating γ] (r : Reader δ σ γ) : Reader δ σ γ :=
  if r.loaded then r.runRootAttribute "onunload" ["onunload", "onbeforeunload"] else r

/-- Puts a page in place, with nothing selected and no scripts. -/
def replacePage (r : Reader δ σ γ) (visit : Visit) (forest : Forest Content) : Reader δ σ γ :=
  let document := Document.ofForest forest
  { r with
    document
    loaded := true
    session := { r.session.resetForLoad document with navigation := r.session.navigation.complete visit }
    script? := none
    title := (titleOf? document).getD r.settings.title.text
    log := r.log ++ [.loaded visit.path] }

/-- Gives a page scripts that know nothing of the page before. A page that cannot have any does without. -/
def startScripts [Engine γ] (r : Reader δ σ γ) : Reader δ σ γ :=
  match r.obstacle? with
  | none => { r with script? := some (.fresh (r.chances r.log.length)) }
  | some cause => { r with script? := none }.note (.warning (.scriptsMissing cause))

section

variable [Storage σ] [Engine γ] [Engine.Terminating γ]

/-- Runs a script file; a missing one says nothing. -/
def runFile (r : Reader δ σ γ) (path : String) : Reader δ σ γ :=
  match Storage.read r.files path with
  | .error .notFound => r
  | .error cause => r.note (.warning (.scriptFileFailed path (.storage path cause)))
  | .ok source =>
    r.withScripts fun w =>
      match (w.note (.evaluating source)).evaluate r.chance source with
      | (.ok _, w) => w
      | (.error cause, w) => w.note (.warning (.scriptFileFailed path cause))

/-- Takes up a page: its script files run in order, then what its root wants done on loading. -/
def enter (r : Reader δ σ γ) (visit : Visit) (forest : Forest Content) : Reader δ σ γ :=
  let r := (r.replacePage visit forest).startScripts
  let r := if r.script?.isSome then (scriptPaths r.document).foldl runFile r else r
  (r.runRootAttribute "onload" ["onload"]).refreshIfMutated

/-- Loads a page; a page that cannot be read leaves everything as it is. -/
def load (r : Reader δ σ γ) (visit : Visit) : Except LoadError Unit × Reader δ σ γ :=
  match Storage.read r.files visit.path with
  | .error cause => (.error (.storage visit.path cause), r)
  | .ok bytes =>
    match r.parser.readBytes bytes with
    | .error cause => (.error (.markup visit.path cause), r)
    | .ok forest => (.ok (), r.leave.enter visit forest)

def goTo (r : Reader δ σ γ) (path : String) : Except LoadError Unit × Reader δ σ γ := r.load { path }

def act (r : Reader δ σ γ) : Reader δ σ γ :=
  let (action?, navigation) := r.session.navigation.take
  let r := { r with session := { r.session with navigation } }
  match action? with
  | none => r
  | some (.callback source) => (r.runSnippet "onclick" source).refreshIfMutated
  | some (.load visit) =>
    match r.load visit with
    | (.ok _, r) => r
    | (.error cause, r) => r.note (.warning (.loadFailed cause))

end

def request (r : Reader δ σ γ) (path : String) : Reader δ σ γ :=
  { r with session := { r.session with navigation := r.session.navigation.requestLoad path } }

/-- Leaves an event for the next tick; `false` when there was no room. -/
def publish (r : Reader δ σ γ) (event : ButtonEvent) : Bool × Reader δ σ γ :=
  let (accepted, queue) := r.queue.offer event
  (accepted, { r with queue })

/-- Hears all that the buttons did, and says how many events that were. -/
def drain (r : Reader δ σ γ) : Nat × Reader δ σ γ :=
  (r.queue.events.length,
    { r with
      queue := {}
      session := r.queue.events.foldl (fun session event => (session.handle r.document event).2) r.session })

section

variable [Display δ]

def drawPage (r : Reader δ σ γ) : Except DisplayError Unit × Reader δ σ γ :=
  if r.loaded then
    let painted := Layout.paint r.settings r.document r.session.scroll r.session.entries r.display
    (painted.outcome,
      { r with
        display := painted.display
        session := { r.session with scroll := painted.scroll, entries := painted.entries } })
  else (.ok (), r)

def send (r : Reader δ σ γ) (ops : List DrawOp) : Except DisplayError Unit × Reader δ σ γ :=
  let (outcome, display) := Layout.send ops r.display
  (outcome, { r with display })

def flush (r : Reader δ σ γ) : Except DisplayError Unit × Reader δ σ γ :=
  let (outcome, display) := Display.flush r.display
  (outcome, { r with display })

/-- Draws a frame: background, page, status bar. The first refusal ends it. -/
def draw (r : Reader δ σ γ) : Except DisplayError Unit × Reader δ σ γ :=
  match r.send [.screen .background] with
  | (.error e, r) => (.error e, r)
  | (.ok _, r) =>
    match r.drawPage with
    | (.error e, r) => (.error e, r)
    | (.ok _, r) =>
      match r.send (Layout.statusBar r.settings r.title) with
      | (.error e, r) => (.error e, r)
      | (.ok _, r) => r.flush

def tick [Storage σ] [Engine γ] [Engine.Terminating γ] (r : Reader δ σ γ) : Except DisplayError Unit × Reader δ σ γ :=
  r.drain.2.act.draw

end
end Reader
end PocketReader
