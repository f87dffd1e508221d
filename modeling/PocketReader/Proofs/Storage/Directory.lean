import PocketReader.Proofs.Storage.Path
import PocketReader.Storage.Directory

/-! Directories that nothing leads out of. What a path is resolved to is the path of the directory and the names that
the path says, so that a file is read from what stands in the directory and from nowhere else. -/
namespace PocketReader.Storage

open PocketReader.Storage.Path (Named)

/-! ## Following names -/

variable {name : String} {names : List String}

namespace Position

variable {p : Position}

theorem go_of_file {contents : ByteArray} (here : p.here = .file contents) : p.go name = .error .device := by
  rw [go, here]

theorem go_of_directory {entries : List (String × Tree)} (here : p.here = .directory entries) (named : Named name) :
    p.go name =
      if longestName < name.utf8ByteSize then .error .device
      else (entries.lookup name).elim (.error .notFound) fun t => .ok ⟨t, p.here :: p.above⟩ := by
  unfold go
  rw [here]
  simp only [named.nonempty, named.not_here, named.not_up, or_false, if_false]
  cases entries.lookup name <;> rfl

/-- An empty piece only asks that there is a directory, as any other piece does. -/
theorem go_go_empty : (p.go "" >>= fun q => q.go name) = p.go name := by
  cases here : p.here with
  | file contents =>
    rw [go_of_file here, go_of_file here]
    rfl
  | directory entries =>
    have stay : p.go "" = .ok p := by
      rw [go, here]
      rfl
    rw [stay]
    rfl

/-- Names lead from a directory to what stands in it at that place. -/
theorem here_foldlM_go (named : ∀ name ∈ names, Named name) (t : Tree) :
    (∃ q, names.foldlM go p = .ok q ∧ q.here = t) ↔
      (∀ name ∈ names, name.utf8ByteSize ≤ longestName) ∧ p.here.at? names = some t := by
  induction names generalizing p with
  | nil => simp [Tree.at?, pure, Except.pure]
  | cons name rest ih =>
    obtain ⟨first, later⟩ := List.forall_mem_cons.mp named
    rw [List.foldlM_cons]
    cases here : p.here with
    | file contents =>
      rw [go_of_file here]
      simp [Tree.at?, bind, Except.bind]
    | directory entries =>
      rw [go_of_directory here first]
      by_cases long : longestName < name.utf8ByteSize
      · simp [long, Nat.not_le_of_lt long, bind, Except.bind]
      · rw [if_neg long]
        cases entry : entries.lookup name with
        | none => simp [Tree.at?, entry, bind, Except.bind]
        | some below =>
          refine (ih later).trans ?_
          simp [Tree.at?, entry, Nat.le_of_not_lt long]

end Position

namespace FileSystem

variable (fs : FileSystem)

theorem follow_push (named : Named name) (path : String) :
    fs.follow (Path.push path name) = fs.follow path >>= fun p => p.go name := by
  unfold follow
  rw [Path.startsAtTop_push path named]
  obtain ⟨before, parts, pushed⟩ | ⟨-, pushed⟩ := Path.pieces_push path named.whole
  · rw [parts, pushed]
    simp only [List.foldlM_append, List.foldlM_cons, List.foldlM_nil, bind_pure, bind_assoc, Position.go_go_empty]
  · rw [pushed, ← List.append_assoc, List.foldlM_append]
    simp only [List.foldlM_cons, List.foldlM_nil, bind_pure]

theorem follow_foldl_push (named : ∀ name ∈ names, Named name) (path : String) :
    fs.follow (names.foldl Path.push path) = fs.follow path >>= fun p => names.foldlM Position.go p := by
  induction names generalizing path with
  | nil => exact (bind_pure _).symm
  | cons name rest ih =>
    obtain ⟨first, later⟩ := List.forall_mem_cons.mp named
    rw [List.foldl_cons, ih later, follow_push fs first, bind_assoc]
    rfl

theorem read_eq_ok {path : String} {contents : ByteArray} :
    fs.read path = .ok contents ↔ fs.find path = .ok (.file contents) := by
  unfold read
  split <;> simp_all

theorem isFile_iff_read {path : String} : fs.isFile path = true ↔ ∃ contents, fs.read path = .ok contents := by
  unfold isFile read
  cases fs.find path with
  | error e => simp
  | ok t => cases t <;> simp [Tree.isFile]

theorem find_eq_ok {path : String} {t : Tree} :
    fs.find path = .ok t ↔ path ≠ "" ∧ Path.isSound path = true ∧ ∃ p, fs.follow path = .ok p ∧ p.here = t := by
  unfold find
  by_cases empty : path = ""
  · simp [empty]
  · by_cases sound : Path.isSound path
    · cases fs.follow path <;> simp [empty, sound, Except.map]
    · simp [empty, sound]

end FileSystem

namespace Directory

/-- A file stands in a directory at a place, and the file system can be asked for the path of that place. -/
structure HasFile (d : Directory) (place : String) (names : List String) (contents : ByteArray) : Prop where
  nonempty : place ≠ ""
  sound : Path.isSound place = true
  known : ∀ name ∈ names, name.utf8ByteSize ≤ longestName
  there : ∃ p, d.files.follow d.root = .ok p ∧ p.here.at? names = some (.file contents)

theorem foldlM_descend (names : List String) (place : String) :
    (names.map Path.stepOf).foldlM descend place =
      if ".." ∈ names then .error .invalidPath else .ok (names.foldl Path.push place) := by
  induction names generalizing place with
  | nil => rfl
  | cons name rest ih =>
    rw [List.map_cons, List.foldlM_cons]
    by_cases up : name = ".."
    · subst up
      rw [if_pos List.mem_cons_self]
      rfl
    · have step : descend place (Path.stepOf name) = .ok (Path.push place name) := by
        rw [Path.stepOf, if_neg up, descend]
      have same : ".." ∈ name :: rest ↔ ".." ∈ rest := by simp [Ne.symm up]
      simp only [same, List.foldl_cons, ← ih]
      rw [step]
      rfl

theorem resolve_eq (root path : String) :
    resolve root path =
      if ".." ∈ Path.segments path then .error .invalidPath
      else .ok ((Path.segments path).foldl Path.push root) := by
  have below := Path.startsAtTop_withoutLeadingSlashes path
  rw [← foldlM_descend, resolve, Path.steps, below, Path.segments_withoutLeadingSlashes]
  simp only [Bool.false_eq_true, if_false]
  split
  · exact List.foldlM_cons
  · rfl

variable (d : Directory) {path : String}

theorem read_of_resolve_eq_ok {place : String} (resolved : resolve d.root path = .ok place) :
    Storage.read d path = d.files.read place := by
  show d.read path = _
  rw [read, resolved]

theorem read_eq_ok_iff_hasFile (inside : ".." ∉ Path.segments path) (contents : ByteArray) :
    Storage.read d path = .ok contents ↔
      d.HasFile ((Path.segments path).foldl Path.push d.root) (Path.segments path) contents := by
  have named := Path.named_of_mem_segments inside
  have resolved := (resolve_eq d.root path).trans (if_neg inside)
  rw [read_of_resolve_eq_ok d resolved, FileSystem.read_eq_ok, FileSystem.find_eq_ok,
    FileSystem.follow_foldl_push _ named]
  constructor
  · rintro ⟨nonempty, sound, found⟩
    cases start : d.files.follow d.root with
    | error e =>
      obtain ⟨q, failed, -⟩ := start ▸ found
      cases failed
    | ok p =>
      rw [start] at found
      obtain ⟨known, there⟩ := (Position.here_foldlM_go named _).mp found
      exact ⟨nonempty, sound, known, p, start, there⟩
  · rintro ⟨nonempty, sound, known, p, start, there⟩
    refine ⟨nonempty, sound, ?_⟩
    rw [start]
    exact (Position.here_foldlM_go named _).mpr ⟨known, there⟩

theorem contains_iff_read : Storage.contains d path = true ↔ ∃ contents, Storage.read d path = .ok contents := by
  show d.contains path = true ↔ ∃ contents, d.read path = .ok contents
  unfold contains read
  cases resolve d.root path with
  | error e => simp
  | ok place => exact d.files.isFile_iff_read

/-- Storage in a directory stays in the directory. A path is refused exactly where one of its pieces goes up. Any
other is the path of the directory and then the names that it says, in order, and what is read is the file that stands
there in the directory. Paths that say the same are read alike, and a path is there exactly where it can be read. -/
theorem read_stays_below (d : Directory) (path : String) :
    (resolve d.root path = .error .invalidPath ↔ ".." ∈ Path.pieces path) ∧
    (".." ∉ Path.pieces path → ∃ place, resolve d.root path = .ok place ∧
      Path.steps place = Path.steps d.root ++ (Path.segments path).map .name ∧
      ∀ contents, Storage.read d path = .ok contents ↔ d.HasFile place (Path.segments path) contents) ∧
    (∀ other, Path.segments other = Path.segments path →
      resolve d.root other = resolve d.root path ∧ Storage.read d other = Storage.read d path ∧
      Storage.contains d other = Storage.contains d path) ∧
    (Storage.contains d path = true ↔ ∃ contents, Storage.read d path = .ok contents) := by
  refine ⟨?_, fun inside => ?_, fun other same => ?_, contains_iff_read d⟩
  · rw [resolve_eq, ← Path.up_mem_segments]
    by_cases up : ".." ∈ Path.segments path <;> simp [up]
  · rw [← Path.up_mem_segments] at inside
    refine ⟨_, (resolve_eq d.root path).trans (if_neg inside), ?_, read_eq_ok_iff_hasFile d inside⟩
    exact Path.steps_foldl_push (Path.named_of_mem_segments inside) d.root
  · have alike : resolve d.root other = resolve d.root path := by rw [resolve_eq, resolve_eq, same]
    refine ⟨alike, ?_, ?_⟩
    · show d.read other = d.read path
      rw [read, read, alike]
    · show d.contains other = d.contains path
      rw [contains, contains, alike]

theorem read_stays_below_odd_spelling :
    let apps : Tree := .directory [("clock.3ml", .file "<body/>".toUTF8)]
    let pages : Tree := .directory [("apps", apps)]
    let top : Tree := .directory [("home", .directory [("srv", .directory [("pages", pages)])])]
    let d : Directory := ⟨"srv/./pages/", { top, working := ["home"] }⟩
    ".." ∉ Path.pieces "//apps/./clock.3ml/" ∧ ".." ∈ Path.pieces "/apps/../clock.3ml" ∧
    resolve d.root "/apps/../clock.3ml" = .error .invalidPath ∧
    resolve d.root "//apps/./clock.3ml/" = .ok "srv/./pages/apps/clock.3ml" ∧
    Storage.read d "//apps/./clock.3ml/" = .ok "<body/>".toUTF8 ∧
    Storage.contains d "apps//clock.3ml" = true := by
  intro apps pages top d
  have inside : ".." ∉ Path.pieces "//apps/./clock.3ml/" := by decide
  have upward : ".." ∈ Path.pieces "/apps/../clock.3ml" := by decide
  have names : Path.segments "//apps/./clock.3ml/" = ["apps", "clock.3ml"] := by decide
  have same : Path.segments "apps//clock.3ml" = Path.segments "//apps/./clock.3ml/" := by decide
  have placed : resolve d.root "//apps/./clock.3ml/" = .ok "srv/./pages/apps/clock.3ml" := by
    rw [resolve_eq, names]
    exact (if_neg (by decide)).trans (congrArg Except.ok (by decide))
  obtain ⟨-, below, alike, there⟩ := read_stays_below d "//apps/./clock.3ml/"
  obtain ⟨place, resolved, -, read⟩ := below inside
  obtain rfl : place = "srv/./pages/apps/clock.3ml" := Except.ok.inj (resolved.symm.trans placed)
  have start : ∃ p, d.files.follow "srv/./pages/" = .ok p ∧ p.here = pages := ⟨_, rfl, by rfl⟩
  have contents : Storage.read d "//apps/./clock.3ml/" = .ok "<body/>".toUTF8 := by
    obtain ⟨p, followed, here⟩ := start
    rw [names] at read
    exact (read _).mpr ⟨by decide, by decide, by decide, p, followed, here ▸ rfl⟩
  refine ⟨inside, upward, (read_stays_below d "/apps/../clock.3ml").1.mpr upward, placed, contents, ?_⟩
  rw [(alike _ same).2.2]
  exact there.mpr ⟨_, contents⟩

end Directory
end PocketReader.Storage
