import Std.Data.HashMap
import Shortcode.Markup.Piece

/-!
# Scanning a document

A scanner cuts one document into its pieces. The first time it needs the close
marker of an opening tag, it pairs all tags of that name in one walk over the
document, and looks the other tags of the name up afterwards, so that a document
with many unpaired tags is scanned in linear time. A tag that the walk did not
meet, such as one in the body of another tag, is searched for directly.

* `tags_eq`: the tags of a document are those among its pieces.
-/

namespace Shortcode

/-- The opening tags of one name in a document, by their offsets, with their
    close markers. -/
abbrev CloseTable :=
  Std.HashMap Nat (Option Span)

/-- A document that is being scanned, and what is known about the pairing of its
    tags. -/
structure Scanner where
  text : Text
  tables : List (Text × CloseTable)

namespace Scanner

/-- A scanner of `text` that knows nothing yet. -/
def ofText (text : Text) : Scanner :=
  ⟨text, []⟩

/-- The pairing of the tags called `name`, made if need be. -/
def table (name : Text) : StateM Scanner CloseTable := do
  let scanner ← get
  match scanner.tables.lookup name with
  | some table => pure table
  | none =>
    let table := Std.HashMap.ofList (closePairs name scanner.text)
    set { scanner with tables := (name, table) :: scanner.tables }
    pure table

/-- Looks a close marker up in the pairing of its name. -/
def closing : Closing (StateM Scanner) := fun name start stop after => do
  let table ← table name
  match table[start]? with
  | some close => pure close
  | none => pure (findClose name stop after)

/-- The tag at the byte offset `start` of the document. -/
def locate? (known : Text → Bool) (start : Nat) : StateM Scanner (Option Tag) := do
  match (← get).text.from? start with
  | some t => (·.map Located.tag) <$> Shortcode.locate? closing known start t
  | none => pure none

/-- What is enclosed by the brackets that escape a tag at the byte offset `start`
    of the document. -/
def escaped? (known : Text → Bool) (start : Nat) : StateM Scanner (Option Text) := do
  match (← get).text.from? start with
  | some t => (·.map Escaped.inner) <$> Shortcode.escaped? closing known start t
  | none => pure none

end Scanner

/-- The pieces of a document. -/
def pieces (known : Text → Bool) (t : Text) : List Piece :=
  ((Piece.scan Scanner.closing known 0 t).run (Scanner.ofText t)).1

/-- The tags of known names in a document, in order. Tags inside the content of
    another one and escaped tags are not listed. -/
def tags (known : Text → Bool) (t : Text) : List Tag :=
  ((Tag.scan Scanner.closing known 0 t).run (Scanner.ofText t)).1

/-- The tags of a document are those among its pieces. -/
theorem tags_eq (known : Text → Bool) (t : Text) :
    tags known t = (pieces known t).filterMap Piece.tag? := by
  rw [tags, Tag.scan_eq]
  rfl

end Shortcode
