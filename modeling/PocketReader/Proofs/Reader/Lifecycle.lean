import PocketReader.Proofs.Reader.Callbacks
import PocketReader.Proofs.Script.Trace
import PocketReader.Proofs.Session

/-! What is evaluated, and when. Each page has a chapter: where it was read from, the trees it was when it was put in
place, and the sources its scripts were given, in order. A page that arrives closes the chapter of the page before
with what the root of that page wants done on leaving, and opens its own with its script files and what its root wants
done on loading; a callback that is met goes on with the latest chapter. The log tells these chapters and nothing
else, and each of them is what the scripts of its page lived through. -/
namespace PocketReader

open PocketReader.Script (Chance Engine World)

/-- What the root of a page has under the first of some names. -/
def Forest.rootSource (page : Forest Content) (names : List String) : List ByteArray :=
  ((page.rootAttribute? names).map String.toUTF8).toList

/-- A page as it was put in place, and the sources its scripts were given since. -/
structure Chapter where
  path : String
  page : Forest Content
  sources : List ByteArray := []

namespace Chapter

def add (c : Chapter) (more : List ByteArray) : Chapter := { c with sources := c.sources ++ more }

theorem add_nil (c : Chapter) : c.add [] = c := by rw [add, List.append_nil]

theorem add_add (c : Chapter) (more last : List ByteArray) : (c.add more).add last = c.add (more ++ last) := by
  simp only [add, List.append_assoc]

/-- The root of the page has its say when the page is left. -/
def close (c : Chapter) : Chapter := c.add (c.page.rootSource ["onunload", "onbeforeunload"])

def told (c : Chapter) : List LogEntry := .loaded c.path :: c.sources.map .evaluating

end Chapter

/-- What is told of some chapters, the latest of which comes first. -/
def told (chapters : List Chapter) : List LogEntry := chapters.reverse.flatMap Chapter.told

theorem told_cons (c : Chapter) (earlier : List Chapter) : told (c :: earlier) = told earlier ++ c.told := by
  simp only [told, List.reverse_cons, List.flatMap_append, List.flatMap_singleton]

/-- The scripts of each page start afresh, hear what its chapter says, and end before the next page is put in
place. -/
inductive Past (γ : Type) [Engine γ] [Engine.Terminating γ] (parser : Markup.Parser) :
    List Chapter → List LogEntry → Prop
  | nothing {log : List LogEntry} : trace log = [] → Past γ parser [] log
  | page {c : Chapter} {earlier : List Chapter} {before : List LogEntry} {chance : Chance} {last : World γ} :
      Past γ parser earlier before →
      Script.Hears (Reader.beginning parser chance before c.path c.page) c.sources last →
      Past γ parser (c :: earlier) last.log

theorem Past.trace {γ : Type} [Engine γ] [Engine.Terminating γ] (confined : Engine.Confined γ)
    {parser : Markup.Parser} {chapters : List Chapter} {log : List LogEntry}
    (past : Past γ parser chapters log) : trace log = told chapters := by
  induction past with
  | nothing silent => exact silent
  | @page c _ before _ _ _ hears ih =>
    have opened : PocketReader.trace (before ++ [.loaded c.path]) = PocketReader.trace before ++ [.loaded c.path] :=
      trace_append before _
    rw [hears.trace confined, Reader.beginning, opened, ih, told_cons, Chapter.told, List.append_assoc]
    rfl

/-- What happens to the scripts of a reader: a page arrives, or a callback is met. -/
inductive Turn where
  | arrives (path : String) (page : Forest Content)
  | calls (source : String)

section

variable {σ : Type} [Storage σ]

/-- The trees of a file that can be read as a page. -/
def page? (parser : Markup.Parser) (files : σ) (path : String) : Option (Forest Content) :=
  (Storage.read files path).toOption.bind fun bytes => (parser.readBytes bytes).toOption

/-- What is run when a page arrives: those of its script files that can be read, and what its root has to say. -/
def greeting (files : σ) (page : Forest Content) : List ByteArray :=
  page.scriptPaths.filterMap (fun path => (Storage.read files path).toOption) ++ page.rootSource ["onload"]

/-- The chapters after a turn, the latest first. -/
def Turn.take (files : σ) (chapters : List Chapter) : Turn → List Chapter
  | .arrives path page => { path, page, sources := greeting files page } :: chapters.modifyHead Chapter.close
  | .calls source => chapters.modifyHead (·.add [source.toUTF8])

end

namespace Reader

variable {δ σ γ : Type}

/-- The reader shows a page, and its scripts have lived through the chapter of this page and nothing else. -/
structure OnChapter [Engine γ] [Engine.Terminating γ] (r : Reader δ σ γ) (c : Chapter) (before : List LogEntry) :
    Prop where
  loaded : r.loaded = true
  unobstructed : r.obstacle? = none
  hears : ∃ context chance, r.script? = some context ∧
    Script.Hears (beginning r.parser chance before c.path c.page) c.sources (r.world context)

namespace OnChapter

variable [Engine γ] [Engine.Terminating γ] {r : Reader δ σ γ} {c : Chapter} {before : List LogEntry}
    (here : r.OnChapter c before)

include here

theorem warning (cause : Warning) : (r.note (.warning cause)).OnChapter c before := by
  obtain ⟨loaded, unobstructed, context, chance, found, hears⟩ := here
  exact ⟨loaded, unobstructed, context, chance, found, hears.warning cause⟩

/-- A job of the scripts that runs a source goes on with the chapter. -/
theorem job (confined : Engine.Confined γ) {act : World γ → World γ} (job : Script.Job act) (source : ByteArray)
    (ran : ∀ w, ∃ chance, act w = ((w.note (.evaluating source)).evaluate chance source).2 ∨
      ∃ cause, act w = ((w.note (.evaluating source)).evaluate chance source).2.note (.warning cause)) :
    (r.withScripts act).OnChapter (c.add [source]) before := by
  obtain ⟨loaded, unobstructed, context, chance, found, hears⟩ := here
  obtain ⟨next, started, left⟩ := world_withScripts confined found job
  have kept : (r.withScripts act).loaded = r.loaded ∧ (r.withScripts act).obstacle? = r.obstacle? ∧
      (r.withScripts act).parser = r.parser := by
    rw [withScripts, found]
    exact ⟨rfl, rfl, rfl⟩
  obtain ⟨shown, free, parser⟩ := kept
  obtain ⟨drawn, ended⟩ := ran (r.world context)
  refine ⟨shown.trans loaded, free.trans unobstructed, next, chance, started, ?_⟩
  rw [left, parser]
  exact hears.run drawn source ended

theorem snippet (confined : Engine.Confined γ) (label source : String) :
    (r.runSnippet label source).OnChapter (c.add [source.toUTF8]) before :=
  here.job confined (.snippet r.chance label source) source.toUTF8
    fun _ => ⟨r.chance, Script.runSnippet_cases r.chance _ label source⟩

theorem refreshIfMutated : r.refreshIfMutated.OnChapter c before := by
  unfold Reader.refreshIfMutated
  split
  · rename_i memory there
    obtain ⟨loaded, unobstructed, context, chance, found, hears⟩ := here
    rw [there, Option.some.injEq] at found
    subst found
    exact ⟨loaded, unobstructed, _, chance, rfl, hears.noticed⟩
  · exact here

theorem rootAttribute (confined : Engine.Confined γ) (label : String) (names : List String) :
    (r.runRootAttribute label names).OnChapter (c.add (c.page.rootSource names)) before := by
  obtain ⟨-, -, context, chance, -, hears⟩ := id here
  obtain ⟨reachable, roots⟩ := hears.document confined (.ofForest c.page)
  have roots : r.document.forest.roots = c.page.roots := by
    rw [← Document.forest_ofForest c.page]
    exact roots
  have reachable : r.document.Reachable := reachable
  have same : r.rootAttribute? names = c.page.rootAttribute? names := by
    rw [rootAttribute?, reachable.rootAttribute?, Forest.rootAttribute?, roots, Forest.rootAttribute?]
  unfold runRootAttribute Forest.rootSource
  rw [same]
  cases c.page.rootAttribute? names with
  | none =>
    rw [Option.map_none, Option.toList_none, c.add_nil]
    exact here
  | some source => exact here.snippet confined label source

section

variable [Storage σ]

theorem file (confined : Engine.Confined γ) (path : String) :
    (r.runFile path).OnChapter (c.add (Storage.read r.files path).toOption.toList) before := by
  unfold Reader.runFile
  cases read : Storage.read r.files path with
  | error cause =>
    rw [Except.toOption, Option.toList_none, c.add_nil]
    cases cause with
    | notFound => exact here
    | invalidPath | device => exact here.warning _
  | ok source =>
    exact here.job confined (.file r.chance path source) source
      fun _ => ⟨r.chance, Script.runFile_cases r.chance _ path source⟩

theorem files (confined : Engine.Confined γ) (paths : List String) :
    (paths.foldl Reader.runFile r).OnChapter
      (c.add (paths.filterMap fun path => (Storage.read r.files path).toOption)) before := by
  induction paths generalizing r c with
  | nil =>
    rw [List.filterMap_nil, c.add_nil]
    exact here
  | cons path paths ih =>
    have first := here.file confined path
    have kept : (r.runFile path).files = r.files := by
      obtain ⟨_, _, _, frame⟩ := (r.stages_runFile path).frame
      rw [frame]
    have rest := ih first
    rw [kept, Chapter.add_add] at rest
    rw [List.foldl_cons, List.filterMap_cons]
    cases read : Storage.read r.files path with
    | error cause =>
      rw [read] at rest
      exact rest
    | ok source =>
      rw [read] at rest
      exact rest

end

end OnChapter

theorem startScripts_eq [Engine γ] [Engine.Terminating γ] {r : Reader δ σ γ} (unobstructed : r.obstacle? = none) :
    r.startScripts = { r with script? := some (.fresh (r.chances r.log.length)) } := by
  unfold startScripts
  split
  · rfl
  · rename_i cause there
    rw [unobstructed] at there
    cases there

section

variable [Engine γ] [Engine.Terminating γ] [Storage σ]

/-- A page that is taken up hears its script files and what its root wants done on loading. -/
theorem onChapter_enter (confined : Engine.Confined γ) {r : Reader δ σ γ} (unobstructed : r.obstacle? = none)
    (visit : Visit) (page : Forest Content) :
    (r.enter visit page).OnChapter { path := visit.path, page, sources := greeting r.files page } r.log := by
  have fresh : (r.replacePage visit page).startScripts = _ :=
    startScripts_eq (r := r.replacePage visit page) unobstructed
  have begins : (r.replacePage visit page).startScripts.OnChapter { path := visit.path, page } r.log := by
    rw [fresh]
    exact ⟨rfl, unobstructed, _, _, rfl, .nothing⟩
  obtain ⟨some, files, document⟩ : (r.replacePage visit page).startScripts.script?.isSome = true ∧
      (r.replacePage visit page).startScripts.files = r.files ∧
      (r.replacePage visit page).startScripts.document = .ofForest page := by
    rw [fresh]
    exact ⟨rfl, rfl, rfl⟩
  have paths : scriptPaths (.ofForest page) = page.scriptPaths := by
    rw [(Document.Reachable.ofForest page).scriptPaths, Document.forest_ofForest]
  have ran := ((begins.files confined page.scriptPaths).rootAttribute confined "onload" ["onload"]).refreshIfMutated
  rw [Chapter.add_add, files] at ran
  unfold enter
  dsimp only
  rw [if_pos some, document, paths]
  exact ran

/-- A load fails and does nothing, or the trees of its file are taken up. -/
theorem load_eq (r : Reader δ σ γ) (visit : Visit) :
    match page? r.parser r.files visit.path with
    | none => ∃ cause, r.load visit = (.error cause, r)
    | some page => r.load visit = (.ok (), r.leave.enter visit page) := by
  unfold page? load
  cases Storage.read r.files visit.path with
  | error cause => exact ⟨_, rfl⟩
  | ok bytes =>
    dsimp only [Except.toOption, Option.bind_some]
    cases r.parser.readBytes bytes with
    | error cause => exact ⟨_, rfl⟩
    | ok page => rfl

end

/-- What the request that is met next brings about. -/
def due? [Storage σ] (r : Reader δ σ γ) : Option Turn :=
  match r.session.navigation.take.1 with
  | none => none
  | some (.callback source) => some (.calls source)
  | some (.load visit) => (page? r.parser r.files visit.path).map (.arrives visit.path)

/-- No page was shown yet, so there are no scripts and nothing that could call any. -/
structure Blank (r : Reader δ σ γ) : Prop where
  unloaded : r.loaded = false
  unobstructed : r.obstacle? = none
  unscripted : r.script? = none
  silent : trace r.log = []
  unlisted : r.session.entries = []
  uncalled : r.session.navigation.callback? = none

theorem Blank.handleAll {s : Session} (unlisted : s.entries = []) (uncalled : s.navigation.callback? = none)
    (d : Document) (events : List ButtonEvent) :
    (events.foldl (fun s event => (s.handle d event).2) s).entries = [] ∧
      (events.foldl (fun s event => (s.handle d event).2) s).navigation.callback? = none := by
  induction events generalizing s with
  | nil => exact ⟨unlisted, uncalled⟩
  | cons event events ih =>
    refine ih ?_ ?_
    · dsimp only [Session.handle]
      split
      · exact unlisted
      · exact (s.entries_apply d _).trans unlisted
    · -- With nothing in the list nothing has the focus, so an event asks for no callback.
      have nowhere : s.selectedNode? = none := by
        simp only [Session.selectedNode?, Scroll.selectedNode?, unlisted, List.getElem?_nil, Option.map_none,
          Option.bind_fun_none]
      cases waits : (s.handle d event).2.navigation.callback? with
      | none => rfl
      | some source =>
        have asked := s.callback_handle d event waits
        rw [Session.asks?, nowhere, uncalled, Option.bind_none, Option.bind_none, ite_self] at asked
        cases asked

/-- Some chapters are all that the scripts of the reader have lived through. -/
inductive Chronicled [Engine γ] [Engine.Terminating γ] (r : Reader δ σ γ) : List Chapter → Prop
  | nothing : r.Blank → Chronicled r []
  | page {c : Chapter} {before : List LogEntry} {earlier : List Chapter} :
      r.OnChapter c before → Past γ r.parser earlier before → Chronicled r (c :: earlier)

namespace Chronicled

variable [Engine γ] [Engine.Terminating γ] {r t : Reader δ σ γ} {chapters : List Chapter}
    (chronicled : r.Chronicled chapters)

include chronicled

theorem past : Past γ r.parser chapters r.log := by
  cases chronicled with
  | nothing blank => exact .nothing blank.silent
  | page here past =>
    obtain ⟨-, -, context, chance, -, hears⟩ := here
    exact .page past hears

theorem unobstructed : r.obstacle? = none := by
  cases chronicled with
  | nothing blank => exact blank.unobstructed
  | page here _ => exact here.unobstructed

theorem warning (cause : Warning) : (r.note (.warning cause)).Chronicled chapters := by
  cases chronicled with
  | nothing blank =>
    obtain ⟨unloaded, unobstructed, unscripted, silent, unlisted, uncalled⟩ := blank
    refine .nothing ⟨unloaded, unobstructed, unscripted, ?_, unlisted, uncalled⟩
    rw [note, trace_append, silent]
    rfl
  | page here past => exact .page (here.warning cause) past

/-- Whatever else changes is nothing to the scripts, unless something is called before any page is shown. -/
theorem quiet (loaded : t.loaded = r.loaded) (free : t.obstacle? = none) (script : t.script? = r.script?)
    (document : t.document = r.document) (parser : t.parser = r.parser) (log : t.log = r.log)
    (still : r.Blank → t.session.entries = [] ∧ t.session.navigation.callback? = none) : t.Chronicled chapters := by
  cases chronicled with
  | nothing blank =>
    obtain ⟨unlisted, uncalled⟩ := still blank
    exact .nothing ⟨loaded.trans blank.unloaded, free, script.trans blank.unscripted, log ▸ blank.silent,
      unlisted, uncalled⟩
  | page here past =>
    obtain ⟨shown, -, context, chance, found, hears⟩ := here
    have same : t.world context = r.world context := by rw [world, document, parser, log, world]
    rw [← parser] at past hears
    refine .page ⟨loaded.trans shown, free, context, chance, script.trans found, ?_⟩ past
    rwa [same]

theorem drain : r.drain.2.Chronicled chapters :=
  chronicled.quiet rfl chronicled.unobstructed rfl rfl rfl rfl
    fun blank => Blank.handleAll blank.unlisted blank.uncalled r.document r.queue.events

theorem draw [Display δ] : r.draw.2.Chronicled chapters := by
  refine draw_keeps (P := fun t => t.Chronicled chapters) ?_ ?_ chronicled
  · intro t display before
    exact before.quiet rfl before.unobstructed rfl rfl rfl rfl fun blank => ⟨blank.unlisted, blank.uncalled⟩
  · intro t before
    unfold drawPage
    split
    · rename_i shown
      refine before.quiet rfl before.unobstructed rfl rfl rfl rfl fun blank => ?_
      rw [blank.unloaded] at shown
      cases shown
    · exact before

theorem taken : r.taken.Chronicled chapters :=
  chronicled.quiet rfl chronicled.unobstructed rfl rfl rfl rfl fun blank =>
    ⟨blank.unlisted, Navigation.callback_take _⟩

theorem call (confined : Engine.Confined γ) {source : String}
    (waits : r.session.navigation.callback? = some source) :
    (r.taken.runSnippet "onclick" source).refreshIfMutated.Chronicled
      (chapters.modifyHead (·.add [source.toUTF8])) := by
  cases chronicled with
  | nothing blank =>
    rw [blank.uncalled] at waits
    cases waits
  | @page c before earlier here past =>
    have taken : r.taken.OnChapter c before := ⟨here.loaded, here.unobstructed, here.hears⟩
    refine .page (taken.snippet confined "onclick" source).refreshIfMutated ?_
    rw [setup_refreshIfMutated, (stages_runSnippet _ _ _).setup]
    exact past

variable (confined : Engine.Confined γ)

include confined

theorem leave : r.leave.Chronicled (chapters.modifyHead Chapter.close) := by
  cases chronicled with
  | nothing blank =>
    rw [Reader.leave, blank.unloaded, if_neg Bool.false_ne_true]
    exact .nothing blank
  | page here past =>
    have ended := here.rootAttribute confined "onunload" ["onunload", "onbeforeunload"]
    have left : r.leave = r.runRootAttribute "onunload" ["onunload", "onbeforeunload"] := if_pos here.loaded
    rw [← left] at ended
    refine .page ended ?_
    rw [r.stages_leave.setup]
    exact past

variable [Storage σ]

theorem load (visit : Visit) :
    (r.load visit).2.Chronicled
      ((page? r.parser r.files visit.path).elim chapters fun page =>
        Turn.take r.files chapters (.arrives visit.path page)) := by
  have cases := r.load_eq visit
  split at cases
  · rename_i unread
    obtain ⟨cause, load⟩ := cases
    rw [load, unread]
    exact chronicled
  · rename_i page read
    have left := chronicled.leave confined
    have files : r.leave.files = r.files := by
      obtain ⟨_, _, _, frame⟩ := r.stages_leave.frame
      rw [frame]
    have entered := onChapter_enter confined left.unobstructed visit page
    rw [files] at entered
    rw [cases, read]
    refine .page entered ?_
    rw [setup_enter]
    exact left.past

theorem act : r.act.Chronicled (r.due?.elim chapters (Turn.take r.files chapters)) := by
  unfold due?
  rw [act_eq]
  cases met : r.session.navigation.take.1 with
  | none => exact chronicled.taken
  | some action =>
    cases action with
    | callback source => exact chronicled.call confined (Navigation.callback_of_take met)
    | load visit =>
      have loaded := chronicled.taken.load confined visit
      dsimp only
      rw [Option.elim_map]
      rcases result : r.taken.load visit with ⟨outcome, after⟩
      rw [result] at loaded
      cases outcome with
      | ok _ => exact loaded
      | error cause => exact loaded.warning _

end Chronicled

section

variable [Storage σ]

/-- What an operation brings about. -/
def turn? (r : Reader δ σ γ) : Operation δ σ → Option Turn
  | .goTo path => (page? r.parser r.files path).map (.arrives path)
  | .tick => r.drain.2.due?
  | .request _ | .publish _ | .drain | .outside .. => none

/-- The chapters after an operation, and after a run. -/
def turned (r : Reader δ σ γ) (chapters : List Chapter) (operation : Operation δ σ) : List Chapter :=
  (r.turn? operation).elim chapters (Turn.take r.files chapters)

variable [Display δ] [Engine γ] [Engine.Terminating γ]

def chronicle (r : Reader δ σ γ) (chapters : List Chapter) : List (Operation δ σ) → List Chapter
  | [] => chapters
  | operation :: operations => (r.perform operation).chronicle (r.turned chapters operation) operations

namespace Chronicled

variable {r : Reader δ σ γ} {chapters : List Chapter} (confined : Engine.Confined γ)
    (chronicled : r.Chronicled chapters)

include confined chronicled

theorem perform {operation : Operation δ σ}
    (free : ∀ display files cause, operation ≠ .outside display files (some cause)) :
    (r.perform operation).Chronicled (r.turned chapters operation) := by
  cases operation with
  | goTo path =>
    rw [turned, turn?, Option.elim_map]
    exact chronicled.load confined { path }
  | request path =>
    exact chronicled.quiet rfl chronicled.unobstructed rfl rfl rfl rfl fun blank => ⟨blank.unlisted, rfl⟩
  | publish event =>
    exact chronicled.quiet rfl chronicled.unobstructed rfl rfl rfl rfl fun blank => ⟨blank.unlisted, blank.uncalled⟩
  | drain => exact chronicled.drain
  | tick => exact (chronicled.drain.act confined).draw
  | outside display files obstacle? =>
    cases obstacle? with
    | none => exact chronicled.quiet rfl rfl rfl rfl rfl rfl fun blank => ⟨blank.unlisted, blank.uncalled⟩
    | some cause => exact absurd rfl (free display files cause)

theorem run {operations : List (Operation δ σ)}
    (free : ∀ operation ∈ operations, ∀ display files cause, operation ≠ .outside display files (some cause)) :
    (r.run operations).Chronicled (r.chronicle chapters operations) := by
  induction operations generalizing r chapters with
  | nil => exact chronicled
  | cons operation operations ih =>
    rw [List.forall_mem_cons] at free
    exact ih (chronicled.perform confined free.1) free.2

end Chronicled

end

end Reader
end PocketReader
