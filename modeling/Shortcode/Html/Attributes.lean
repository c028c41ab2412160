import Shortcode.Text.Basic

/-!
# HTML attributes

Attributes in the start tag of an HTML element, and the escaping of their values.
The five characters that mean something to an HTML reader are written as
entities, so a value cannot end the quotes it stands in.

* `not_mem_escape`: an escaped text holds none of `<`, `>`, `"` and `'`.
-/

namespace Shortcode.Html

/-- A character as it is written in HTML. -/
def escapeChar (c : Char) : Text :=
  if c = '&' then "&amp;".toList
  else if c = '<' then "&lt;".toList
  else if c = '>' then "&gt;".toList
  else if c = '"' then "&quot;".toList
  else if c = '\'' then "&#x27;".toList
  else [c]

/-- A text as it is written in HTML. -/
def escape (t : Text) : Text :=
  t.flatMap escapeChar

/-- The attributes of an element, in order. -/
abbrev Attributes :=
  List (Text × Text)

/-- The attribute `name`, unless its value is empty. -/
def Attributes.optional (name value : Text) : Attributes :=
  if value.isEmpty then [] else [(name, value)]

/-- An attribute as written. -/
def written (name value : Text) : Text :=
  name ++ '=' :: '"' :: (escape value ++ ['"'])

/-- Attributes as written, with a space between each two. -/
def Attributes.render (attrs : Attributes) : Text :=
  Text.join [' '] (attrs.map fun (name, value) => written name value)

/-- The start tag of an element, up to its `>`. The attribute `first` is always
    there. -/
def startTag (element : Text) (first : Text × Text) (attrs : Attributes) : Text :=
  '<' :: (element ++ ' ' :: written first.1 first.2) ++
    (if attrs.isEmpty then [] else ' ' :: attrs.render)

theorem not_mem_escape {c : Char} (hc : c ∈ ['<', '>', '"', '\'']) (t : Text) :
    c ∉ escape t := by
  simp only [escape, List.mem_flatMap, not_exists, not_and]
  intro d _
  unfold escapeChar
  simp only [List.mem_cons, List.not_mem_nil, or_false] at hc
  rcases hc with rfl | rfl | rfl | rfl <;> repeat' split
  all_goals simp_all [eq_comm]

end Shortcode.Html
