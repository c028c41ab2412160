import Shortcode.Text.Basic

/-!
# Blank characters

The characters with the Unicode property White_Space, and texts without the
blanks around them. The line breaks and the wide spaces belong to the class; the
zero width space and the byte order mark do not.

* `isBlank_of_isWhitespace`: every ASCII blank of the core library is blank.
* `trimStart_eq_self`: a text that starts with no blank is kept by `trimStart`.
-/

namespace Shortcode

/-- Whether `c` has the Unicode property White_Space. -/
def isBlank (c : Char) : Bool :=
  let n := c.toNat
  (9 ≤ n && n ≤ 13) || n == 0x20 || n == 0x85 || n == 0xA0 || n == 0x1680 ||
    (0x2000 ≤ n && n ≤ 0x200A) || n == 0x2028 || n == 0x2029 || n == 0x202F || n == 0x205F ||
    n == 0x3000

theorem isBlank_of_isWhitespace {c : Char} (h : c.isWhitespace = true) : isBlank c = true := by
  simp only [Char.isWhitespace, Bool.or_eq_true, decide_eq_true_eq] at h
  rcases h with ((rfl | rfl) | rfl) | rfl <;> decide

namespace Text

/-- A text without the blanks it starts with. -/
def trimStart (t : Text) : Text :=
  t.dropWhile isBlank

/-- A text without the blanks it ends with. -/
def trimEnd (t : Text) : Text :=
  (t.reverse.dropWhile isBlank).reverse

/-- A text without the blanks around it. -/
def trim (t : Text) : Text :=
  trimEnd (trimStart t)

theorem trimStart_eq_self {c : Char} {t : Text} (h : isBlank c = false) :
    trimStart (c :: t) = c :: t := by
  simp [trimStart, h]

theorem length_trimStart_le (t : Text) : (trimStart t).length ≤ t.length := by
  exact (List.dropWhile_sublist isBlank).length_le

end Text

end Shortcode
