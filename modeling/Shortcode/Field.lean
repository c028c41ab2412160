import Shortcode.Table

/-!
# Fields

A page and the site carry fields: a text or a list of texts under a name.
-/

namespace Shortcode

/-- The value of a field. -/
inductive FieldValue
  | text (text : Text)
  | list (items : List Text)
  deriving DecidableEq, Repr

/-- The fields of a page or of the site. -/
abbrev Fields :=
  Table FieldValue

namespace FieldValue

/-- A value as one text, with `delimiter` between the items of a list. -/
def join (delimiter : Text) : FieldValue → Text
  | text t => t
  | list items => Text.join delimiter items

/-- Whether a value is the empty text or a list without items. -/
def isEmpty : FieldValue → Bool
  | text t => t.isEmpty
  | list items => items.isEmpty

/-- Whether a value is `wanted`, or a list with the item `wanted`. -/
def accepts (wanted : Text) : FieldValue → Bool
  | text t => t == wanted
  | list items => items.contains wanted

end FieldValue

end Shortcode
