import Shortcode.Text.Natural

/-!
# Strings of a TOML document

There are four forms of strings. In double quotes a backslash begins an escape; in
single quotes every character stands for itself. Tripled quotes may hold line
breaks; the line break right behind them does not count, and up to two quotes may
stand in front of the closing ones.

* `length_escape_lt`: an escape takes at least one character.
-/

namespace Shortcode.Toml

/-- Whether `c` may stand in a string or a comment as it is. Of the control
    characters only the tab may. -/
def isPlainChar (c : Char) : Bool :=
  c == '\t' || (32 ≤ c.toNat && c.toNat != 127)

/-- Reads exactly `count` hexadecimal digits. -/
def hex? (count : Nat) (value : Nat) (t : Text) : Option (Nat × Text) :=
  match count, t with
  | 0, t => some (value, t)
  | _ + 1, [] => none
  | count + 1, c :: t =>
    match hexDigit? c with
    | some d => hex? count (value * 16 + d) t
    | none => none

/-- Reads an escape behind its backslash. -/
def escape? : Text → Option (Char × Text)
  | 'b' :: t => some ('\x08', t)
  | 't' :: t => some ('\t', t)
  | 'n' :: t => some ('\n', t)
  | 'f' :: t => some ('\x0c', t)
  | 'r' :: t => some ('\r', t)
  | 'e' :: t => some ('\x1b', t)
  | '"' :: t => some ('"', t)
  | '\\' :: t => some ('\\', t)
  | 'x' :: t => (hex? 2 0 t).bind fun (n, r) => (char? n).map (·, r)
  | 'u' :: t => (hex? 4 0 t).bind fun (n, r) => (char? n).map (·, r)
  | 'U' :: t => (hex? 8 0 t).bind fun (n, r) => (char? n).map (·, r)
  | _ => none

theorem length_hex_le {count value n : Nat} {t rest : Text} (h : hex? count value t = some (n, rest)) :
    rest.length ≤ t.length := by
  induction count generalizing value t with
  | zero =>
    simp only [hex?, Option.some.injEq, Prod.mk.injEq] at h
    simp [h.2]
  | succ count ih =>
    cases t with
    | nil => simp [hex?] at h
    | cons c t =>
      simp only [hex?] at h
      split at h
      · have := ih h
        simp only [List.length_cons]
        omega
      · simp at h

theorem length_escape_lt {t rest : Text} {c : Char} (h : escape? t = some (c, rest)) :
    rest.length < t.length := by
  unfold escape? at h
  split at h
  case h_9 | h_10 | h_11 =>
    simp only [Option.bind_eq_some_iff, Option.map_eq_some_iff, Prod.exists, Prod.mk.injEq] at h
    obtain ⟨_, _, hx, _, -, -, rfl⟩ := h
    have := length_hex_le hx
    simp only [List.length_cons]
    omega
  case h_12 => simp at h
  all_goals
    simp only [Option.some.injEq, Prod.mk.injEq] at h
    obtain ⟨-, rfl⟩ := h
    simp

/-- Puts `c` in front of a text that was read. -/
def push (c : Char) (found : Option (Text × Text)) : Option (Text × Text) :=
  found.map fun (s, rest) => (c :: s, rest)

/-- Reads a string in single quotes behind the opening one. -/
def literal? : Text → Option (Text × Text)
  | [] => none
  | c :: t =>
    if c = '\'' then some ([], t) else if isPlainChar c then push c (literal? t) else none

/-- Reads a string in double quotes behind the opening one. -/
def basic? (t : Text) : Option (Text × Text) :=
  match t with
  | [] => none
  | c :: t =>
    if c = '"' then some ([], t)
    else if c = '\\' then
      match _h : escape? t with
      | some (d, rest) => push d (basic? rest)
      | none => none
    else if isPlainChar c then push c (basic? t)
    else none
termination_by t.length
decreasing_by
  · have := length_escape_lt _h
    simp only [List.length_cons]
    omega
  · simp

/-- A text without the line break it starts with. -/
def dropBreak : Text → Text
  | '\n' :: t => t
  | '\r' :: '\n' :: t => t
  | t => t

/-- Reads the end of a string in tripled quotes: three quotes, behind at most two
    that belong to the string. -/
def tripleEnd? (quote : Char) : Text → Option (Text × Text)
  | a :: b :: c :: t =>
    if a = quote ∧ b = quote ∧ c = quote then
      match t with
      | d :: e :: t' =>
        if d = quote then
          if e = quote then some ([quote, quote], t') else some ([quote], e :: t')
        else some ([], d :: e :: t')
      | [d] => if d = quote then some ([quote], []) else some ([], [d])
      | [] => some ([], [])
    else none
  | _ => none

/-- Reads a string in tripled single quotes. -/
def longLiteral? : Text → Option (Text × Text)
  | [] => none
  | c :: t =>
    match tripleEnd? '\'' (c :: t) with
    | some found => some found
    | none =>
      if isPlainChar c || c = '\n' || (c = '\r' && t.head? == some '\n') then push c (longLiteral? t)
      else none

/-- Whether a text begins with a line break, blanks in front of it apart. -/
def breaksLine : Text → Bool
  | ' ' :: t => breaksLine t
  | '\t' :: t => breaksLine t
  | '\n' :: _ => true
  | '\r' :: '\n' :: _ => true
  | _ => false

/-- Whether `c` is a blank or a character of a line break. -/
def isGap (c : Char) : Bool :=
  c == ' ' || c == '\t' || c == '\n' || c == '\r'

/-- Reads a string in tripled double quotes. A backslash at the end of a line hides
    the line break and the blanks and line breaks behind it. -/
def longBasic? (t : Text) : Option (Text × Text) :=
  match t with
  | [] => none
  | c :: t =>
    match tripleEnd? '"' (c :: t) with
    | some found => some found
    | none =>
      if c = '\\' then
        if breaksLine t then longBasic? (t.dropWhile isGap)
        else
          match _h : escape? t with
          | some (d, rest) => push d (longBasic? rest)
          | none => none
      else if isPlainChar c || c = '\n' || (c = '\r' && t.head? == some '\n') then
        push c (longBasic? t)
      else none
termination_by t.length
decreasing_by
  · have : (t.dropWhile isGap).length ≤ t.length := (List.dropWhile_sublist _).length_le
    simp only [List.length_cons]
    omega
  · have := length_escape_lt _h
    simp only [List.length_cons]
    omega
  · simp

/-- Reads the string a text begins with, in any form. -/
def string? : Text → Option (Text × Text)
  | '"' :: '"' :: '"' :: t => longBasic? (dropBreak t)
  | '\'' :: '\'' :: '\'' :: t => longLiteral? (dropBreak t)
  | '"' :: t => basic? t
  | '\'' :: t => literal? t
  | _ => none

end Shortcode.Toml
