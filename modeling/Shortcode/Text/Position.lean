import Shortcode.Text.Basic

/-!
# Positions

People look for a place in a text by its line and its column. Lines end at line breaks,
columns count characters, and both are counted from 1.

* `advance_append`: the position behind two texts is reached over the first one.
-/

namespace Shortcode

/-- A line of a text and a column of it. -/
structure Position where
  line : Nat
  column : Nat
  deriving DecidableEq, Repr

namespace Position

/-- The position at which texts start. -/
def start : Position := ⟨1, 1⟩

/-- The position behind a character. -/
def next (p : Position) (c : Char) : Position :=
  if c = '\n' then ⟨p.line + 1, 1⟩ else ⟨p.line, p.column + 1⟩

/-- The position behind a text. -/
def advance (p : Position) (t : Text) : Position :=
  t.foldl next p

theorem advance_cons (p : Position) (c : Char) (t : Text) :
    p.advance (c :: t) = (p.next c).advance t := rfl

theorem advance_append (p : Position) (s t : Text) :
    p.advance (s ++ t) = (p.advance s).advance t := by
  simp [advance]

end Position

end Shortcode
