import Shortcode.Text.Basic

/-!
# Characters in their places

What a character of a YAML document means depends on its column, so the reader works
on characters that know their line and column. A line ends with a line feed, a carriage
return, both, or U+0085, which all count as a line feed, or with one of the separators
U+2028 and U+2029, which stay what they are.

* `length_locate`: every character has a place.
-/

namespace Shortcode.Yaml

/-- A character and its place; lines and columns count from 0. -/
structure Glyph where
  char : Char
  line : Nat
  column : Nat
  deriving DecidableEq, Repr

/-- A text with places. -/
abbrev Glyphs :=
  List Glyph

/-- Whether `c` ends a line. -/
def isBreak (c : Char) : Bool :=
  c == '\n' || c == '\u2028' || c == '\u2029'

/-- Whether `c` separates words. -/
def isGap (c : Char) : Bool :=
  c == ' ' || c == '\t'

/-- A text with one spelling of line ends. -/
def unifyBreaks : Text → Text
  | [] => []
  | '\r' :: '\n' :: t => '\n' :: unifyBreaks t
  | '\r' :: t => '\n' :: unifyBreaks t
  | '\u0085' :: t => '\n' :: unifyBreaks t
  | c :: t => c :: unifyBreaks t

/-- Whether a document may hold `c`. Control characters may not occur, apart from the
    tab and the ends of lines. -/
def isPermitted (c : Char) : Bool :=
  let n := c.toNat
  n == 9 || n == 10 || n == 13 || (0x20 ≤ n && n ≤ 0x7E) || n == 0x85 ||
    (0xA0 ≤ n && n ≤ 0xFFFD) || 0x10000 ≤ n

/-- The characters of a text that begins at a place. -/
def locateFrom (line column : Nat) : Text → Glyphs
  | [] => []
  | c :: t =>
    ⟨c, line, column⟩ ::
      if isBreak c then locateFrom (line + 1) 0 t else locateFrom line (column + 1) t

/-- The characters of a text. -/
def locate (t : Text) : Glyphs :=
  locateFrom 0 0 t

theorem length_locate (t : Text) : (locate t).length = t.length := by
  suffices ∀ line column, (locateFrom line column t).length = t.length from this 0 0
  induction t with
  | nil => simp [locateFrom]
  | cons c t ih => intro line column; simp only [locateFrom, List.length_cons]; split <;> simp [ih]

namespace Glyphs

/-- The characters without their places. -/
def text (gs : Glyphs) : Text :=
  gs.map (·.char)

/-- The first character. -/
def char? (gs : Glyphs) : Option Char :=
  gs.head?.map (·.char)

/-- Whether a word ends here: at the end, in front of a blank, or of a line end. -/
def endsWord (gs : Glyphs) : Bool :=
  match gs with
  | [] => true
  | g :: _ => isGap g.char || isBreak g.char

/-- Whether a line begins here that separates documents: three characters `c`. -/
def isMark (c : Char) (gs : Glyphs) : Bool :=
  match gs with
  | x :: y :: z :: rest =>
    x.column == 0 && x.char == c && y.char == c && z.char == c && endsWord rest
  | _ => false

/-- Whether a line begins here that separates documents. -/
def startsMark (gs : Glyphs) : Bool :=
  isMark '-' gs || isMark '.' gs

end Glyphs

end Shortcode.Yaml
