import Shortcode.Text.Basic

/-!
# Natural numbers in text

Counts and positions are read from decimal digits, with a `+` in front if
wanted, and have to fit into 64 bits.

* `natural?_lt`: what is read fits into 64 bits.
* `natural?_decimal`: a number that fits is read back from its digits.
* `decimal_inj`: so two numbers with the same digits are one.
-/

namespace Shortcode

/-- One more than the largest count. -/
def countLimit : Nat :=
  Nat.pow 2 64

/-- The number with the given digits, `none` if one is no digit. -/
def digits? (value : Nat) : Text → Option Nat
  | [] => some value
  | c :: t => if c.isDigit then digits? (value * 10 + (c.toNat - '0'.toNat)) t else none

/-- The number that a row of digits stands for; `none` for no digits and for
    numbers that are too large. -/
def unsigned? (t : Text) : Option Nat :=
  if t.isEmpty then none else (digits? 0 t).filter (· < countLimit)

/-- The number a text stands for. -/
def natural? : Text → Option Nat
  | '+' :: rest => unsigned? rest
  | t => unsigned? t

/-- The value of a hexadecimal digit. -/
def hexDigit? (c : Char) : Option Nat :=
  if c.isDigit then some (c.toNat - 48)
  else if 'a' ≤ c && c ≤ 'f' then some (c.toNat - 87)
  else if 'A' ≤ c && c ≤ 'F' then some (c.toNat - 55)
  else none

/-- The character with a code point, if it is one. -/
def char? (code : Nat) : Option Char :=
  if code.isValidChar then some (Char.ofNat code) else none

/-- A number as decimal digits. -/
def decimal (n : Nat) : Text :=
  Nat.toDigits 10 n

/-- A whole number in decimal, with a minus sign if it is negative. -/
def signed (n : Int) : Text :=
  if n < 0 then '-' :: decimal n.natAbs else decimal n.natAbs

theorem unsigned?_lt {t : Text} {n : Nat} (h : unsigned? t = some n) : n < countLimit := by
  unfold unsigned? at h
  split at h
  · simp at h
  · simpa using (Option.filter_eq_some_iff.mp h).2

theorem natural?_lt {t : Text} {n : Nat} (h : natural? t = some n) : n < countLimit := by
  unfold natural? at h
  split at h <;> exact unsigned?_lt h

/-- A row of digits is read as the number it stands for. -/
theorem digits?_of_isDigit {t : Text} (h : ∀ c ∈ t, c.isDigit = true) (value : Nat) :
    digits? value t = some (Nat.ofDigitChars 10 t value) := by
  induction t generalizing value with
  | nil => rfl
  | cons c t ih =>
    rw [digits?, if_pos (h c List.mem_cons_self), ih fun d hd => h d (List.mem_cons_of_mem c hd),
      Nat.mul_comm value 10]
    rfl

theorem isDigit_of_mem_decimal {n : Nat} {c : Char} (h : c ∈ decimal n) : c.isDigit = true :=
  Nat.isDigit_of_mem_toDigits (by decide) (by decide) h

theorem digits?_decimal (n : Nat) : digits? 0 (decimal n) = some n := by
  rw [digits?_of_isDigit fun _ => isDigit_of_mem_decimal, decimal,
    Nat.ofDigitChars_toDigits (by decide) (by decide)]

theorem decimal_inj {m n : Nat} (h : decimal m = decimal n) : m = n := by
  have hread := digits?_decimal m
  rw [h, digits?_decimal] at hread
  exact (Option.some.inj hread).symm

/-- A number that fits into 64 bits is read back from its digits. -/
theorem natural?_decimal {n : Nat} (h : n < countLimit) : natural? (decimal n) = some n := by
  have hread := digits?_decimal n
  obtain ⟨c, t, ht⟩ : ∃ c t, decimal n = c :: t := List.exists_cons_of_ne_nil Nat.toDigits_ne_nil
  have hc : c ≠ '+' := by
    rintro rfl
    exact absurd (isDigit_of_mem_decimal (ht ▸ List.mem_cons_self)) (by decide)
  rw [ht] at hread ⊢
  rw [natural?, unsigned?, List.isEmpty_cons, if_neg Bool.false_ne_true, hread,
    Option.filter_some, if_pos (decide_eq_true h)]
  exact fun rest he => hc (List.cons.inj he).1

end Shortcode
