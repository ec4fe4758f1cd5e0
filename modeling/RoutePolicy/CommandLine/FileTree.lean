import RoutePolicy.Failure
import RoutePolicy.Text.Split

/-!
# Trees of files

Files in directories, and what is found at a path.  A path is walked name by name: an empty name and
`.` stay where they are, `..` goes up, and above the root is the root itself.  All of these need a
directory to stand in.  Names and whole paths have greatest lengths, counted in UTF-8.

* `FileTree.find` — what is at a path, seen from a home directory;
* `FileTree.read` — the text of the file at a path;
* `FileTree.insert` — the tree with one more file.
-/

set_option autoImplicit false

namespace RoutePolicy

/-- A file, which is text or is not, or a directory. -/
inductive FileTree where
  | file (text : Option String)
  | directory (entries : List (String × FileTree))

namespace FileTree

/-- The greatest length of a name. -/
def nameLimit : Nat := 255

/-- The length from which on a path is too long. -/
def pathLimit : Nat := 4096

/-- The names on a path. -/
def names (path : String) : List String := (splitAll '/' path.toList).map String.ofList

/-- Walks from a place in the tree, whose parents are given from the nearest on. -/
def walk : List FileTree → FileTree → List String → Except FileCause FileTree
  | _, here, [] => .ok here
  | _, .file _, _ :: _ => .error .notDirectory
  | parents, .directory entries, name :: rest =>
    let here := directory entries
    if name = "" ∨ name = "." then walk parents here rest
    else if name = ".." then
      match parents with
      | [] => walk [] here rest
      | parent :: above => walk above parent rest
    else if nameLimit < name.utf8ByteSize then .error .nameTooLong
    else match entries.find? (·.1 == name) with
      | some (_, found) => walk (here :: parents) found rest
      | none => .error .missing

/-- The place that names lead to from the root, with its parents from the nearest on. -/
def descend (root : FileTree) : List String → List FileTree × FileTree
  | [] => ([], root)
  | name :: rest =>
    match root with
    | .directory entries =>
      match entries.find? (·.1 == name) with
      | some (_, found) =>
        let (parents, here) := descend found rest
        (parents ++ [root], here)
      | none => ([], root)
    | .file _ => ([], root)

/-- What is at a path: from the root if it begins with a slash, otherwise from the home directory,
which is given by the names that lead to it. -/
def find (root : FileTree) (home : List String) (path : String) : Except FileCause FileTree :=
  if pathLimit ≤ path.utf8ByteSize then .error .nameTooLong
  else if path = "" then .error .missing
  else if path.toList.head? = some '/' then walk [] root (names path)
  else
    let (parents, here) := root.descend home
    walk parents here (names path)

/-- The text of the file at a path. -/
def read (root : FileTree) (home : List String) (path : String) : Except FileCause String :=
  match root.find home path with
  | .ok (.file (some text)) => .ok text
  | .ok (.file none) => .error .notText
  | .ok (.directory _) => .error .directory
  | .error cause => .error cause

/-- Entries with a new one in place of the one of the same name. -/
def putEntry (name : String) (tree : FileTree) (entries : List (String × FileTree)) :
    List (String × FileTree) :=
  (name, tree) :: entries.filter (·.1 != name)

/-- The tree with a file where the names lead to.  Missing directories are made, and what was there
before is replaced. -/
def insert (text : Option String) : List String → FileTree → FileTree
  | [], _ => .file text
  | name :: rest, .file _ => .directory [(name, insert text rest (.directory []))]
  | name :: rest, .directory entries =>
    let below := ((entries.find? (·.1 == name)).map (·.2)).getD (.directory [])
    .directory (putEntry name (insert text rest below) entries)

@[simp] theorem walk_nil (parents : List FileTree) (here : FileTree) :
    walk parents here [] = .ok here := by
  cases here <;> rfl

@[simp] theorem walk_file_cons (parents : List FileTree) (text : Option String) (name : String)
    (rest : List String) :
    walk parents (.file text) (name :: rest) = .error .notDirectory := rfl

example :
    (directory [("a", directory [("b", file (some "text"))])]).read ["a"] ".././a//b" =
      .ok "text" := by
  rfl

example : (directory [("a", file (some "text"))]).read [] "a/" = .error .notDirectory := by rfl

end FileTree

end RoutePolicy
