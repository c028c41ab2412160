import Shortcode.Text.Blank
import Shortcode.Text.Natural

/-!
# Tokens of a template

A template is text with code in it: expressions between `{{` and `}}`, statements between
`{%` and `%}`, and comments between `{#` and `#}`. A dash inside of such a mark removes the
blanks outside of it. Every token knows its line, for messages.

* `splitMark?_append`: nothing is lost in front of a mark.
-/

namespace Shortcode.Template

/-- A token. -/
inductive Token
  /-- Text that is copied. -/
  | text (run : Text)
  /-- The start of an expression. -/
  | openShow
  /-- The end of an expression. -/
  | closeShow
  /-- The start of a statement. -/
  | openBlock
  /-- The end of a statement. -/
  | closeBlock
  | name (name : Text)
  | string (value : Text)
  | number (value : Nat)
  /-- An operator or a bracket. -/
  | sign (sign : Text)
  deriving DecidableEq, Repr

/-- A token and its line, counted from 1. -/
structure Located where
  token : Token
  line : Nat
  deriving DecidableEq, Repr

/-- A text cut at the first mark that opens code: what is in front of it, the kind of
    mark, and what is behind it. -/
def splitMark? : Text → Option (Text × Char × Text)
  | [] => none
  | c :: t =>
    match c, t with
    | '\x7b', d :: rest =>
      if d = '\x7b' ∨ d = '%' ∨ d = '#' then some ([], d, rest)
      else (splitMark? t).map fun (s, r) => (c :: s, r)
    | _, _ => (splitMark? t).map fun (s, r) => (c :: s, r)

theorem splitMark?_append {t front rest : Text} {kind : Char}
    (h : splitMark? t = some (front, kind, rest)) : t = front ++ '\x7b' :: kind :: rest := by
  fun_induction splitMark? t generalizing front kind rest with
  | case1 => simp at h
  | case2 d r hd =>
    simp only [Option.some.injEq, Prod.mk.injEq] at h
    obtain ⟨rfl, rfl, rfl⟩ := h
    rfl
  | case3 d r hd ih =>
    simp only [Option.map_eq_some_iff, Prod.exists, Prod.mk.injEq] at h
    obtain ⟨s, k, r', h, rfl, rfl, rfl⟩ := h
    simp [ih h]
  | case4 c t hne ih =>
    simp only [Option.map_eq_some_iff, Prod.exists, Prod.mk.injEq] at h
    obtain ⟨s, k, r', h, rfl, rfl, rfl⟩ := h
    simp [ih h]

/-- A text cut at the end of a comment. -/
def splitComment? : Text → Option (Text × Text)
  | [] => none
  | '#' :: '\x7d' :: t => some ([], t)
  | c :: t => (splitComment? t).map fun (s, r) => (c :: s, r)

/-- The number of line ends in a text. -/
def lineEnds (t : Text) : Nat :=
  t.count '\n'

/-- The control character behind a mark: whether it removes blanks, and the rest. -/
def control : Text → Bool × Text
  | '-' :: t => (true, t)
  | '+' :: t => (false, t)
  | t => (false, t)

/-- Whether `c` separates tokens. -/
def isSpace (c : Char) : Bool :=
  c == ' ' || c == '\t' || c == '\n' || c == '\r' || c == '\x0c'

/-- The end of code, if it stands here: whether it removes blanks, and the rest. The
    character `close` stands in front of the closing brace. -/
def codeEnd? (close : Char) : Text → Option (Bool × Text)
  | '-' :: c :: '\x7d' :: t => if c = close then some (true, t) else none
  | '+' :: c :: '\x7d' :: t => if c = close then some (false, t) else none
  | c :: '\x7d' :: t => if c = close then some (false, t) else none
  | _ => none

/-- The character that four hexadecimal digits stand for. -/
def unicode? (a b c d : Char) : Option Char := do
  let a ← hexDigit? a
  let b ← hexDigit? b
  let c ← hexDigit? c
  let d ← hexDigit? d
  char? (((a * 16 + b) * 16 + c) * 16 + d)

/-- Reads a string up to the quote that closes it. -/
def string? (quote : Char) : Text → Option (Text × Text)
  | [] => none
  | '\\' :: 'u' :: a :: b :: c :: d :: t => do
    let u ← unicode? a b c d
    let (s, r) ← string? quote t
    pure (u :: s, r)
  | '\\' :: c :: t => do
    let e ← match c with
      | 'n' => some '\n'
      | 't' => some '\t'
      | 'r' => some '\r'
      | 'b' => some '\x08'
      | 'f' => some '\x0c'
      | '\\' => some '\\'
      | '/' => some '/'
      | '\'' => some '\''
      | '"' => some '"'
      | _ => none
    let (s, r) ← string? quote t
    pure (e :: s, r)
  | c :: t =>
    if c = quote then some ([], t) else (string? quote t).map fun (s, r) => (c :: s, r)

/-- Whether `c` may begin a name. -/
def beginsName (c : Char) : Bool :=
  c.isAlpha || c == '_'

/-- Whether `c` may occur in a name. -/
def isNamePart (c : Char) : Bool :=
  c.isAlphanum || c == '_'

/-- The operators of two characters. -/
def wideSigns : List Text :=
  ["//", "**", "==", "!=", ">=", "<="].map String.toList

/-- The operators and brackets of one character. -/
def narrowSigns : List Char :=
  ['+', '-', '*', '/', '%', '.', ',', ':', '~', '|', '=', '>', '<', '(', ')', '[', ']', '\x7b',
    '\x7d']

/-- Reads a token of code. -/
def code? : Text → Option (Token × Text)
  | [] => none
  | c :: t =>
    if wideSigns.contains ((c :: t).take 2) then some (.sign ((c :: t).take 2), t.drop 1)
    else if narrowSigns.contains c then some (.sign [c], t)
    else if c = '\'' ∨ c = '"' then (string? c t).map fun (s, r) => (.string s, r)
    else if c.isDigit then
      (digits? 0 (c :: t.takeWhile Char.isDigit)).map fun n => (.number n, t.dropWhile Char.isDigit)
    else if beginsName c then
      some (.name (c :: t.takeWhile isNamePart), t.dropWhile isNamePart)
    else none

/-- Where a text is read: in text that is copied, or in code with its closing
    character. -/
inductive Mode
  | text (trim : Bool)
  | code (close : Char)
  deriving DecidableEq, Repr

/-- Reads the tokens of a text that begins on a line. Each step takes a character, or
    goes over to text behind code. -/
def tokensFrom? (steps line : Nat) (mode : Mode) (t : Text) : Option (List Located) :=
  match steps with
  | 0 => none
  | steps + 1 =>
    match mode with
    | .text trim =>
      let kept := if trim then Text.trimStart t else t
      let line := line + lineEnds (t.take (t.length - kept.length))
      match splitMark? kept with
      | none => some (if kept.isEmpty then [] else [⟨.text kept, line⟩])
      | some (front, kind, rest) =>
        let (trimmed, rest) := control rest
        let shown := if trimmed then Text.trimEnd front else front
        let piece : List Located := if shown.isEmpty then [] else [⟨.text shown, line⟩]
        let line := line + lineEnds front
        if kind = '#' then do
          let (comment, rest) ← splitComment? rest
          let tokens ← tokensFrom? steps (line + lineEnds comment)
            (.text (comment.getLast? == some '-')) rest
          pure (piece ++ tokens)
        else do
          let tokens ← tokensFrom? steps line (.code (if kind = '%' then '%' else '\x7d')) rest
          pure (piece ++ ⟨if kind = '%' then .openBlock else .openShow, line⟩ :: tokens)
    | .code close =>
      match t with
      | [] => none
      | c :: r =>
        if isSpace c then tokensFrom? steps (line + if c = '\n' then 1 else 0) mode r
        else match codeEnd? close (c :: r) with
          | some (trim, rest) => do
            let tokens ← tokensFrom? steps line (.text trim) rest
            pure (⟨if close = '%' then .closeBlock else .closeShow, line⟩ :: tokens)
          | none => do
            let (token, rest) ← code? (c :: r)
            let taken := (c :: r).take ((c :: r).length - rest.length)
            let tokens ← tokensFrom? steps (line + lineEnds taken) mode rest
            pure (⟨token, line⟩ :: tokens)

/-- A text without `c` at its end. -/
def dropLast (c : Char) (t : Text) : Text :=
  if t.getLast? = some c then t.dropLast else t

/-- The tokens of a template, without the line end it ends with; `none` if it is
    malformed. -/
def Token.read? (source : Text) : Option (List Located) :=
  let t := dropLast '\r' (dropLast '\n' source)
  tokensFrom? (2 * t.length + 2) 1 (.text false) t

end Shortcode.Template
