import Shortcode.Field
import Shortcode.Text.Natural

/-!
# Data handed to templates

The values a template can look at: texts, numbers, truth values, lists and records
of named values. They can be written compactly in JSON.
-/

namespace Shortcode

/-- A value in a template. -/
inductive Data
  | null
  | flag (value : Bool)
  | number (value : Int)
  | text (value : Text)
  | list (items : List Data)
  | record (entries : List (Text × Data))
  deriving Inhabited

namespace Data

/-- The record with the entries of a table. -/
def ofTable (table : Table Data) : Data :=
  .record table.entries

/-- The value of a field. -/
def ofField : FieldValue → Data
  | .text t => .text t
  | .list items => .list (items.map .text)

/-- The fields of a page as a record. -/
def ofFields (fields : Fields) : Data :=
  ofTable (fields.map ofField)

/-- A character inside a JSON string. -/
def jsonChar (c : Char) : Text :=
  if c = '"' then ['\\', '"']
  else if c = '\\' then ['\\', '\\']
  else if c = '\n' then ['\\', 'n']
  else if c = '\t' then ['\\', 't']
  else if c = '\r' then ['\\', 'r']
  else if c = '\x08' then ['\\', 'b']
  else if c = '\x0c' then ['\\', 'f']
  else if c.toNat < 32 then
    ['\\', 'u', '0', '0', Nat.digitChar (c.toNat / 16), Nat.digitChar (c.toNat % 16)]
  else [c]

/-- A JSON string. -/
def jsonText (t : Text) : Text :=
  '"' :: (t.flatMap jsonChar ++ ['"'])

mutual

/-- A value in JSON, without blanks. -/
def json : Data → Text
  | null => "null".toList
  | flag value => if value then "true".toList else "false".toList
  | number value => signed value
  | text value => jsonText value
  | list items => '[' :: (jsonItems items ++ [']'])
  | record entries => '\x7b' :: (jsonEntries entries ++ ['\x7d'])

/-- The items of a list in JSON, with commas between them. -/
def jsonItems : List Data → Text
  | [] => []
  | [item] => json item
  | item :: items => json item ++ ',' :: jsonItems items

/-- The entries of a record in JSON, with commas between them. -/
def jsonEntries : List (Text × Data) → Text
  | [] => []
  | [(name, value)] => jsonText name ++ ':' :: json value
  | (name, value) :: entries => jsonText name ++ ':' :: (json value ++ ',' :: jsonEntries entries)

end

end Data

end Shortcode
