import Shortcode.Field
import Shortcode.Text.Blank

/-!
# Menus

A menu is a list of pages with their routes and fields. It is narrowed by fields,
sorted by the text of a field, and shuffled. Sorting is stable in both
directions, so pages that compare equal stay in order.

* `sort_perm`: sorting neither loses nor adds a page.
* `length_shuffle`: neither does shuffling.
-/

namespace Shortcode

/-- A page in a menu: its route and its fields. -/
structure MenuItem where
  path : Text
  fields : Fields

/-- The direction of sorting. -/
inductive SortDirection
  | ascending
  | descending
  deriving DecidableEq, Repr

/-- Reads a direction: `asc` or nothing, or `desc`, in any case of letters. -/
def SortDirection.read? (t : Text) : Option SortDirection :=
  let word := Text.lowerAscii (Text.trim t)
  if word.isEmpty || word == "asc".toList then some .ascending
  else if word == "desc".toList then some .descending
  else none

namespace MenuItem

/-- The text an item is sorted by; empty if the field is missing. -/
def sortText (field : Text) (item : MenuItem) : Text :=
  ((item.fields.get? field).map (FieldValue.join [' '])).getD []

/-- Whether the field has the value `wanted` or, as a list, holds it. -/
def accepts (field wanted : Text) (item : MenuItem) : Bool :=
  (item.fields.get? field).any (FieldValue.accepts wanted)

/-- Whether the field is there and not empty. -/
def has (field : Text) (item : MenuItem) : Bool :=
  (item.fields.get? field).any (!·.isEmpty)

end MenuItem

namespace Menu

/-- The items whose `field` has the value `wanted` or holds it. -/
def filterBy (field wanted : Text) (items : List MenuItem) : List MenuItem :=
  items.filter (MenuItem.accepts field wanted)

/-- The items sorted by the text of `field`. -/
def sort (field : Text) (direction : SortDirection) (items : List MenuItem) : List MenuItem :=
  match direction with
  | .ascending => items.mergeSort fun a b => Text.le (a.sortText field) (b.sortText field)
  | .descending => items.mergeSort fun a b => Text.le (b.sortText field) (a.sortText field)

/-- The items in an order drawn from `seed`: each next one is drawn among those
    that are left. -/
def shuffle (seed : Nat) : List MenuItem → List MenuItem
  | [] => []
  | item :: items =>
    let rest := shuffle (seed * 6364136223846793005 + 1442695040888963407) items
    let place := seed / 65536 % (items.length + 1)
    rest.take place ++ item :: rest.drop place

theorem sort_perm (field : Text) (direction : SortDirection) (items : List MenuItem) :
    (sort field direction items).Perm items := by
  cases direction <;> exact List.mergeSort_perm _ _

theorem length_shuffle (seed : Nat) (items : List MenuItem) :
    (shuffle seed items).length = items.length := by
  induction items generalizing seed with
  | nil => rfl
  | cons item items ih =>
    simp only [shuffle, List.length_append, List.length_cons, List.length_take, List.length_drop,
      ih]
    omega

end Menu

end Shortcode
