import PocketReader.Toml.Value

/-! A table while it is being written. A table can be given a header once, and is then closed to dotted keys; a table
that only came about as part of a longer name can still be given one. -/
namespace PocketReader.Toml

inductive Origin where
  | header
  /-- As part of the name in the header of another table. -/
  | implied
  /-- As part of a dotted key. -/
  | dotted
  deriving DecidableEq

inductive Item where
  | closed (v : Value)
  | table (origin : Origin) (entries : List (String × Item))
  /-- Tables under one name, the latest first. -/
  | tables (elements : List (List (String × Item)))

abbrev Entries := List (String × Item)

/-- Changes what stands under a name, or puts something there. -/
def alter (name : String) (change : Option Item → Option Item) : Entries → Option Entries
  | [] => (change none).map fun item => [(name, item)]
  | (key, item) :: rest =>
    if key = name then (change (some item)).map fun item => (key, item) :: rest
    else (alter name change rest).map fun rest => (key, item) :: rest

/-- Changes the table that the names of a header lead to. -/
def within : List String → (Entries → Option Entries) → Entries → Option Entries
  | [], change, entries => change entries
  | name :: rest, change, entries =>
    alter name (fun item? =>
      match item? with
      | none => (within rest change []).map (.table .implied)
      | some (.table origin inner) => (within rest change inner).map (.table origin)
      | some (.tables (latest :: before)) => (within rest change latest).map fun latest => .tables (latest :: before)
      | some _ => none) entries

def openTable (path : List String) (name : String) : Entries → Option Entries :=
  within path (alter name fun item? =>
    match item? with
    | none => some (.table .header [])
    | some (.table .implied inner) => some (.table .header inner)
    | some _ => none)

def openElement (path : List String) (name : String) : Entries → Option Entries :=
  within path (alter name fun item? =>
    match item? with
    | none => some (.tables [[]])
    | some (.tables elements) => some (.tables ([] :: elements))
    | some _ => none)

/-- Puts a value under a dotted key; the names before the last lead through tables that dotted keys made. -/
def assign : List String → String → Value → Entries → Option Entries
  | [], name, v, entries => if (entries.lookup name).isSome then none else some (entries ++ [(name, .closed v)])
  | first :: rest, name, v, entries =>
    alter first (fun item? =>
      match item? with
      | none => (assign rest name v []).map (.table .dotted)
      | some (.table .dotted inner) => (assign rest name v inner).map (.table .dotted)
      | some (.table .implied inner) =>
        if rest.isEmpty then none else (assign rest name v inner).map (.table .implied)
      | some (.tables (latest :: before)) =>
        if rest.isEmpty then none else (assign rest name v latest).map fun latest => .tables (latest :: before)
      | some _ => none) entries

mutual

def Item.value : Item → Value
  | .closed v => v
  | .table _ entries => .table (entryValues entries)
  | .tables elements => .array (elementValues elements).reverse

def entryValues : Entries → List (String × Value)
  | [] => []
  | (name, item) :: rest => (name, item.value) :: entryValues rest

def elementValues : List Entries → List Value
  | [] => []
  | entries :: rest => .table (entryValues entries) :: elementValues rest

end

end PocketReader.Toml
