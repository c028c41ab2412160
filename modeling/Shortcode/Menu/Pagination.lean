import Shortcode.Data
import Shortcode.Menu.Basic

/-!
# Pagination

A list is cut into pages of equal size, of which the last may be shorter. A size
of 0 puts everything on one page. A page number out of range means the nearest
page.

* `one_le_pageCount`: there is always a page.
* `page_mem_range`: the selected page exists.
-/

namespace Shortcode

/-- One page of a list: its items, its number and size, and what is around it. -/
structure Page where
  items : List MenuItem
  number : Nat
  limit : Nat
  total : Nat
  count : Nat

namespace Page

/-- The number of pages for `total` items, `limit` on each. -/
def pageCount (total limit : Nat) : Nat :=
  if limit = 0 then 1 else max 1 ((total + limit - 1) / limit)

/-- The page with the given number, or the nearest one. -/
def select (items : List MenuItem) (limit number : Nat) : Page :=
  let count := pageCount items.length limit
  let number := min (max number 1) count
  { items := if limit = 0 then items else (items.drop ((number - 1) * limit)).take limit
    number, limit, count, total := items.length }

/-- Whether there is a page before this one. -/
def hasPrevious (page : Page) : Bool :=
  1 < page.number

/-- Whether there is a page behind this one. -/
def hasNext (page : Page) : Bool :=
  page.number < page.count

theorem one_le_pageCount (total limit : Nat) : 1 ≤ pageCount total limit := by
  unfold pageCount
  split <;> omega

theorem page_mem_range (items : List MenuItem) (limit number : Nat) :
    1 ≤ (select items limit number).number ∧
      (select items limit number).number ≤ (select items limit number).count := by
  have := one_le_pageCount items.length limit
  simp only [select]
  omega

end Page

/-- A menu item for a template: its fields, and its route under `path` unless a
    field is called so. -/
def MenuItem.data (item : MenuItem) : Data :=
  let fields := item.fields.map Data.ofField
  .ofTable (if (fields.get? "path".toList).isSome then fields
    else fields.insert "path".toList (.text item.path))

/-- A page for a template. -/
def Page.data (page : Page) : Data :=
  .ofTable (Table.ofList [
    ("items".toList, .list (page.items.map MenuItem.data)),
    ("page".toList, .number page.number),
    ("limit".toList, .number page.limit),
    ("total".toList, .number page.total),
    ("page_count".toList, .number page.count),
    ("has_prev".toList, .flag page.hasPrevious),
    ("has_next".toList, .flag page.hasNext)])

end Shortcode
