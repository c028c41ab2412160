import Shortcode.Site.Path

/-!
# Files

A tree of folders and files, as far as a program can see it: the bytes of a file, and
the names in a folder. A path is walked part by part from the root or from the
working folder. A part `..` leads back to the folder above, and to the root from the
root; a part that is empty or `.` leads nowhere but needs a folder to stand in.

* `walk_append`: a path is walked in two steps like in one.
-/

namespace Shortcode

/-- A file or a folder. -/
inductive FileNode
  | file (bytes : ByteArray)
  | folder (entries : List (Text × FileNode))

/-- Why a file cannot be read. -/
inductive FileError
  | missing
  | notFolder
  | isFolder
  | notText
  deriving DecidableEq, Repr

/-- The message about a file that cannot be read. -/
def FileError.message : FileError → String
  | missing => "No such file or directory (os error 2)"
  | notFolder => "Not a directory (os error 20)"
  | isFolder => "Is a directory (os error 21)"
  | notText => "stream did not contain valid UTF-8"

/-- The entries of the root folder, and the absolute path of the working folder. -/
structure Files where
  root : List (Text × FileNode)
  workingFolder : Text

/-- A place in a tree: the names that lead to it, the last one first, each with what
    it names. The place without names is the root. -/
abbrev Place :=
  List (Text × FileNode)

namespace FileNode

/-- Entries with `node` at the end of a path of names. -/
def put (node : FileNode) : List Text → List (Text × FileNode) → List (Text × FileNode)
  | [], entries => entries
  | [name], entries => (name, node) :: entries.filter (·.1 ≠ name)
  | name :: path, entries =>
    let inner := match entries.lookup name with
      | some (.folder inner) => inner
      | _ => []
    (name, .folder (node.put path inner)) :: entries.filter (·.1 ≠ name)

end FileNode

namespace Files

variable (files : Files)

/-- The entries of the folder at a place; `none` at a file. -/
def entries? : Place → Option (List (Text × FileNode))
  | [] => some files.root
  | (_, .folder entries) :: _ => some entries
  | (_, .file _) :: _ => none

/-- Follows parts of a path from a place. -/
def walk (place : Place) : List Text → Except FileError Place
  | [] => .ok place
  | part :: rest =>
    match files.entries? place with
    | none => .error .notFolder
    | some entries =>
      if part = [] ∨ part = ['.'] then walk place rest
      else if part = ['.', '.'] then walk place.tail rest
      else match entries.lookup part with
        | some node => walk ((part, node) :: place) rest
        | none => .error .missing

/-- The place that a path leads to. -/
def find (path : Text) : Except FileError Place :=
  if path.isEmpty then .error .missing
  else files.walk [] (Text.splitOn '/' (Path.join files.workingFolder path))

/-- Whether a path leads to a file or a folder. -/
def contains (path : Text) : Bool :=
  (files.find path).toBool

/-- The names that lead to a place, from the root on. -/
def names (place : Place) : List Text :=
  (place.map (·.1)).reverse

/-- The text in some bytes. -/
def decode (bytes : ByteArray) : Except FileError Text :=
  match String.fromUTF8? bytes with
  | some s => .ok s.toList
  | none => .error .notText

/-- The text in a file. -/
def read (path : Text) : Except FileError Text := do
  match ← files.find path with
  | (_, .file bytes) :: _ => decode bytes
  | _ => .error .isFolder

/-- A path is walked in two steps like in one. -/
theorem walk_append (place : Place) (first second : List Text) :
    files.walk place (first ++ second) = (files.walk place first).bind (files.walk · second) := by
  induction first generalizing place with
  | nil => rfl
  | cons part rest ih =>
    simp only [List.cons_append, walk]
    split
    · rfl
    · split
      · exact ih _
      · split
        · exact ih _
        · split
          · exact ih _
          · rfl

end Files

end Shortcode
