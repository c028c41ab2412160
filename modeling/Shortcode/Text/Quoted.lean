import Shortcode.Text.Unprintable

/-!
# Quoted text

A text in a message stands in double quotes, with a backslash before what would
end it or could not be seen. A character that does not print is written by its
code point.
-/

namespace Shortcode

/-- A character inside a quoted text. -/
def escapeChar (c : Char) : Text :=
  if c = '\x00' then ['\\', '0']
  else if c = '\t' then ['\\', 't']
  else if c = '\r' then ['\\', 'r']
  else if c = '\n' then ['\\', 'n']
  else if c = '"' then ['\\', '"']
  else if c = '\\' then ['\\', '\\']
  else if isUnprintable c then
    ['\\', 'u', '\x7b'] ++ Nat.toDigits 16 c.toNat ++ ['\x7d']
  else [c]

/-- A text in double quotes. -/
def Text.quoted (t : Text) : Text :=
  '"' :: (t.flatMap escapeChar ++ ['"'])

end Shortcode
