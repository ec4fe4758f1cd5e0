import RoutePolicy.Toml.Text
import RoutePolicy.Json.Basic

/-!
# The tables of a TOML text

While a text is read its tables are collected in a tree.  Each table knows how it came to be there,
because that decides what may still be added to it.

* `put` — writes a value under a key;
* `openTable`, `appendTable` — what a header does;
* `Node.toJson` — the data of a finished tree.
-/

set_option autoImplicit false

namespace RoutePolicy

namespace Toml

/-- How a table came to be there: by a header or as a value of its own, on the way to the table of
a header, or on the way to a key with dots. -/
inductive Standing where
  | declared
  | implied
  | dotted
  deriving DecidableEq, Repr

/-- A part of the tree: a finished value, a table, or a list of tables, of which the last one can
still grow and the others are listed from the latest to the earliest. -/
inductive Node where
  | value (value : Json)
  | table (standing : Standing) (entries : List (String × Node))
  | tables (earlier : List (List (String × Node))) (last : List (String × Node))

/-- The entries of a table. -/
abbrev Entries := List (String × Node)

/-- Replaces the entry of a name, or adds one. -/
def alter (name : String) (f : Option Node → Option Node) : Entries → Option Entries
  | [] => (f none).map fun n => [(name, n)]
  | (k, n) :: rest =>
    if k = name then (f (some n)).map fun n => (k, n) :: rest
    else (alter name f rest).map ((k, n) :: ·)

/-- Changes the table at the end of a path, given how that table came to be there.  Tables on the
way are made when they are missing, with the standing `made`.  A key with dots may not pass a table
that was declared, and a path leads to the last one of a list of tables. -/
def within (made : Standing) (change : Standing → Entries → Option Entries) :
    List String → Standing → Entries → Option Entries
  | [], standing, entries => change standing entries
  | name :: path, _, entries =>
    alter name
      (fun
        | none => (within made change path made []).map (.table made)
        | some (.table standing inner) =>
          if made = .dotted ∧ standing = .declared then none
          else (within made change path standing inner).map (.table standing)
        | some (.tables earlier last) =>
          (within made change path .declared last).map (.tables earlier)
        | some (.value _) => none)
      entries

/-- Writes a value under a new name. -/
def addValue (name : String) (v : Json) : Entries → Option Entries :=
  alter name fun
    | none => some (.value v)
    | some _ => none

/-- Writes a value under a key.  Dots lead only to tables that dots made. -/
def put (k : Key) (v : Json) : Standing → Entries → Option Entries :=
  within .dotted
    (fun standing entries =>
      if k.path.isEmpty || standing = .dotted then addValue k.name v entries else none)
    k.path

/-- Declares the table of a header.  It may not exist, unless other headers implied it. -/
def openTable (k : Key) : Entries → Option Entries :=
  within .implied
    (fun _ => alter k.name fun
      | none => some (.table .declared [])
      | some (.table .implied entries) => some (.table .declared entries)
      | some _ => none)
    k.path .declared

/-- Adds a table to the list of tables of a header. -/
def appendTable (k : Key) : Entries → Option Entries :=
  within .implied
    (fun _ => alter k.name fun
      | none => some (.tables [] [])
      | some (.tables earlier last) => some (.tables (last :: earlier) [])
      | some _ => none)
    k.path .declared

mutual

/-- The data of a node. -/
def Node.toJson : Node → Json
  | .value v => v
  | .table _ entries => .object (entriesToJson entries)
  | .tables earlier last =>
    .array ((tablesToJson earlier).reverse ++ [.object (entriesToJson last)])

/-- The data of the entries of a table. -/
def entriesToJson : List (String × Node) → List (String × Json)
  | [] => []
  | (name, n) :: rest => (name, n.toJson) :: entriesToJson rest

/-- The data of several tables. -/
def tablesToJson : List (List (String × Node)) → List Json
  | [] => []
  | entries :: rest => .object (entriesToJson entries) :: tablesToJson rest

end

end Toml

end RoutePolicy
