import Shortcode.Engine.Expand
import Shortcode.FrontMatter
import Shortcode.Text.Natural
import Shortcode.Text.Position

/-!
# Lists of tags

The tags of a document are listed with their positions, which count the front matter too.

* `length_ofSource`: each tag of the body has one entry.
-/

namespace Shortcode.CommandLine

/-- A tag of a document in a list: where it is, and how it is written. -/
structure ScanEntry where
  position : Position
  name : Text
  paired : Bool
  attrText : Text
  deriving DecidableEq, Repr

namespace ScanEntry

/-- The entry of a tag of the text behind the first `offset` bytes of a source. -/
def ofTag (source : Text) (offset : Nat) (tag : Tag) : ScanEntry where
  position := Position.start.advance (Text.takeSize (offset + tag.start) source)
  name := tag.name
  paired := tag.close?.isSome
  attrText := tag.opening.attrText

/-- An entry as a line. -/
def line (e : ScanEntry) : Text :=
  let kind := if e.paired then "paired" else "single"
  Text.trimEnd (decimal e.position.line ++ ':' :: decimal e.position.column ++ ' ' :: e.name ++
    " (".toList ++ kind.toList ++ ") ".toList ++ e.attrText)

/-- The entries of the tags in the body of a source. -/
def ofSource {η : Type} (engine : Engine η) (source body : Text) : List ScanEntry :=
  (engine.tags body).map (ofTag source (source.size - body.size))

/-- Each tag of the body has one entry. -/
theorem length_ofSource {η : Type} (engine : Engine η) (source body : Text) :
    (ofSource engine source body).length = (engine.tags body).length := by
  simp [ofSource]

end ScanEntry

end Shortcode.CommandLine
