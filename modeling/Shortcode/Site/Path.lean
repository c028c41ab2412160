import Shortcode.Text.Basic

/-!
# Paths

A path is a text; its parts are separated by `/`. Empty parts and parts `.` do not
matter, but for a `.` that a path begins with. A part `..` names no file.
-/

namespace Shortcode.Path

/-- The parts of a path. -/
def parts (path : Text) : List Text :=
  (Text.splitOn '/' path).filter fun part => !part.isEmpty && part != ['.']

/-- Whether a path starts at the root. -/
def isAbsolute (path : Text) : Bool :=
  path.head? == some '/'

/-- The path `second`, read from the place `first`. -/
def join (first second : Text) : Text :=
  if isAbsolute second || first.isEmpty then second
  else if first.getLast? == some '/' then first ++ second
  else first ++ '/' :: second

/-- The last part of a path, if it can name a file. -/
def fileName? (path : Text) : Option Text :=
  (parts path).getLast?.filter (· != ['.', '.'])

/-- A name cut at its last dot: what is before it and what is behind it. A dot in
    front of a name does not count. -/
def splitName? (name : Text) : Option (Text × Text) :=
  match (Text.splitAt? '.' name.reverse).map fun (e, s) => (s.reverse, e.reverse) with
  | some ([], _) => none
  | found => found

/-- The text behind the last dot of the last part of a path. -/
def extension? (path : Text) : Option Text :=
  ((fileName? path).bind splitName?).map (·.2)

/-- A path from its last part to its first character, without the empty parts and
    the parts `.` at its end. -/
def trimParts : Text → Text
  | '/' :: t => trimParts t
  | ['.'] => []
  | '.' :: '/' :: t => trimParts t
  | t => t

/-- What a path begins with that is no part of its own: the root, or the place `.`
    that it is read from. -/
def splitStart : Text → Text × Text
  | '/' :: t => (['/'], t)
  | ['.'] => (['.'], [])
  | '.' :: '/' :: t => (['.'], '/' :: t)
  | t => ([], t)

/-- What a path is made up of: what it begins with, if that is no part of its own, and its
    parts. -/
def components (path : Text) : List Text :=
  let (start, body) := splitStart path
  if start.isEmpty then parts body else start :: parts body

/-- The components of a path, read from a folder; `none` if the path does not lead through
    the folder as that is written. -/
def relative? (folder path : Text) : Option (List Text) :=
  (components folder).isPrefixOf? (components path)

/-- The path without its last part; `none` for the root and for the empty path. -/
def parent? (path : Text) : Option Text :=
  let (start, body) := splitStart path
  match trimParts body.reverse with
  | [] => if start = ['.'] then some [] else none
  | last => some (start ++ (trimParts (last.dropWhile (· ≠ '/'))).reverse)

end Shortcode.Path
