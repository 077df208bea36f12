set_option autoImplicit false

/-!
# File trees

A tree of directories and files, and the paths into it.  A place in a tree is named by the
directories that lead to it from the root.  A path is walked one component at a time from a place: a
name goes down, two points go up, an empty component or a single point stays, and each of them is
asked of a directory only.  The root is its own parent.
-/

namespace RecordQuery

/-- A file, or a directory with named entries. -/
inductive FileTree where
  | file (content : ByteArray)
  | directory (entries : List (String × FileTree))

namespace FileTree

instance : Inhabited FileTree := ⟨directory []⟩

/-- Why a file cannot be read. -/
inductive Fault where
  /-- nothing is there -/
  | notFound
  /-- a directory is no text -/
  | isDirectory
  /-- a path goes on behind a file -/
  | notDirectory
  /-- the content is not UTF-8 -/
  | notText
  /-- a path cannot hold the character zero -/
  | badPath
  deriving DecidableEq, Repr

/-- The entry of a name. -/
def child? (name : String) (entries : List (String × FileTree)) : Option FileTree :=
  (entries.find? (·.1 = name)).map (·.2)

/-- What stands at a place. -/
def at? : FileTree → List String → Option FileTree
  | tree, [] => some tree
  | file _, _ :: _ => none
  | directory entries, name :: place => (child? name entries).bind (at? · place)

/-- The entries with one of them set; a new one comes last. -/
def setChild (name : String) (tree : FileTree) :
    List (String × FileTree) → List (String × FileTree)
  | [] => [(name, tree)]
  | (other, old) :: rest =>
    if other = name then (name, tree) :: rest else (other, old) :: setChild name tree rest

/-- The tree with something put at a place.  Directories on the way are made, and a file on the way
gives room to one. -/
def put (content : FileTree) : List String → FileTree → FileTree
  | [], _ => content
  | name :: place, directory entries =>
    directory (setChild name (put content place ((child? name entries).getD default)) entries)
  | name :: place, file _ => directory [(name, put content place default)]

/-- One component of a path, from a place. -/
def step (tree : FileTree) (place : List String) (component : String) :
    Except Fault (List String) :=
  match tree.at? place with
  | some (directory entries) =>
    if component = "" ∨ component = "." then .ok place
    else if component = ".." then .ok place.dropLast
    else if (child? component entries).isSome then .ok (place ++ [component])
    else .error .notFound
  | some (file _) => .error .notDirectory
  | none => .error .notFound

/-- The components of a path. -/
def components (path : String) : List String := (path.toList.splitOn '/').map String.ofList

/-- The place that a path leads to: from the root if the path begins with a slash, and otherwise
from the working directory. -/
def resolve (tree : FileTree) (directory : List String) (path : String) :
    Except Fault (List String) :=
  if path.toList.contains '\x00' then .error .badPath
  else if path = "" then .error .notFound
  else (components path).foldlM tree.step (if path.toList.head? = some '/' then [] else directory)

/-- Whether a path leads to anything. -/
def leadsTo (tree : FileTree) (directory : List String) (path : String) : Bool :=
  (tree.resolve directory path).isOk

/-- The text of the file that a path leads to. -/
def read (tree : FileTree) (directory : List String) (path : String) : Except Fault String := do
  let place ← tree.resolve directory path
  match tree.at? place with
  | some (file content) =>
    match String.fromUTF8? content with
    | some text => .ok text
    | none => .error .notText
  | some (.directory _) => .error .isDirectory
  | none => .error .notFound

/-- The content of the file of a name in a directory. -/
def fileIn? (tree : FileTree) (name : String) (directory : List String) : Option ByteArray :=
  match tree.at? (directory ++ [name]) with
  | some (file content) => some content
  | _ => none

/-- A directory and all those above it, nearest first. -/
def upwards (directory : List String) : List (List String) :=
  (List.range (directory.length + 1)).reverse.map directory.take

/-- The content of the nearest file of a name, in a directory or above it.  Directories of that name
are passed over. -/
def nearest? (tree : FileTree) (name : String) (directory : List String) : Option ByteArray :=
  (upwards directory).findSome? (tree.fileIn? name)

/-! ## Places and steps -/

theorem at?_append (tree : FileTree) (place rest : List String) :
    tree.at? (place ++ rest) = (tree.at? place).bind (·.at? rest) := by
  induction place generalizing tree with
  | nil => simp [at?]
  | cons name place ih =>
    cases tree with
    | file content => simp [at?]
    | directory entries =>
      rw [List.cons_append, at?, at?]
      cases child? name entries with
      | none => rfl
      | some tree => exact ih tree

/-- What stands below a place is an entry of a directory. -/
theorem at?_concat_eq_some_iff {tree node : FileTree} {place : List String} {name : String} :
    tree.at? (place ++ [name]) = some node ↔
      ∃ entries, tree.at? place = some (directory entries) ∧ child? name entries = some node := by
  rw [at?_append]
  cases tree.at? place with
  | none => simp
  | some tree => cases tree <;> simp [at?]

theorem step_dot {tree : FileTree} {place : List String} {entries : List (String × FileTree)}
    (h : tree.at? place = some (directory entries)) : tree.step place "." = .ok place := by
  rw [step, h]
  simp

theorem step_name {tree : FileTree} {place : List String} {name : String}
    {entries : List (String × FileTree)} (h : tree.at? place = some (directory entries))
    (hname : name ≠ "" ∧ name ≠ "." ∧ name ≠ "..") :
    tree.step place name =
      if (child? name entries).isSome then .ok (place ++ [name]) else .error .notFound := by
  obtain ⟨hempty, hdot, hdots⟩ := hname
  rw [step, h]
  simp [hempty, hdot, hdots]

/-- No component of a path leads on from where no directory is. -/
theorem exists_directory_of_step {tree : FileTree} {place next : List String} {component : String}
    (h : tree.step place component = .ok next) :
    ∃ entries, tree.at? place = some (directory entries) := by
  rw [step] at h
  cases hnode : tree.at? place with
  | none =>
    rw [hnode] at h
    cases h
  | some node =>
    cases node with
    | file content =>
      rw [hnode] at h
      cases h
    | directory entries => exact ⟨entries, rfl⟩

theorem read_directory {tree : FileTree} {directory place : List String} {path : String}
    {entries : List (String × FileTree)} (hpath : tree.resolve directory path = .ok place)
    (hdirectory : tree.at? place = some (.directory entries)) :
    tree.read directory path = .error .isDirectory := by
  rw [read, hpath]
  simp only [bind, Except.bind]
  rw [hdirectory]

theorem fromUTF8?_toUTF8 (text : String) : String.fromUTF8? text.toUTF8 = some text := by
  have hvalid : text.toUTF8.IsValidUTF8 := text.isValidUTF8
  rw [String.fromUTF8?, dif_pos hvalid]
  rfl

theorem read_file {tree : FileTree} {directory place : List String} {path text : String}
    (hpath : tree.resolve directory path = .ok place)
    (hfile : tree.at? place = some (.file text.toUTF8)) : tree.read directory path = .ok text := by
  rw [read, hpath]
  simp only [bind, Except.bind]
  rw [hfile]
  simp only [fromUTF8?_toUTF8]

end FileTree

end RecordQuery
