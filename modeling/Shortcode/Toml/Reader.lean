import Shortcode.Toml.Scalar

/-!
# Reading a TOML document

A document is a row of lines: headers in brackets, and keys with their values. Blanks
and comments may stand around them; inside the brackets of an array and the braces
of a table also line breaks. A byte order mark in front is passed over.

The readers of nested values count down a bound on the number of steps, which the
length of the document suffices for.
-/

namespace Shortcode.Toml

/-- Passes over blanks, line breaks and comments; `none` if a comment holds a
    character that may not stand there. -/
def gap? (comment : Bool) : Text → Option Text
  | [] => some []
  | c :: t =>
    if c = '\n' || (c = '\r' && t.head? == some '\n') then gap? false t
    else if comment then if isPlainChar c then gap? true t else none
    else if c = ' ' || c = '\t' then gap? false t
    else if c = '#' then gap? true t
    else some (c :: t)

/-- A text without the blanks it starts with. -/
def dropBlanks (t : Text) : Text :=
  t.dropWhile fun c => c == ' ' || c == '\t'

/-- Passes over the end of a line, with a comment in front of it. -/
def lineEnd? (comment : Bool) : Text → Option Text
  | [] => some []
  | c :: t =>
    if c = '\n' then some t
    else if c = '\r' && t.head? == some '\n' then some t.tail
    else if comment then if isPlainChar c then lineEnd? true t else none
    else if c = ' ' || c = '\t' then lineEnd? false t
    else if c = '#' then lineEnd? true t
    else none

/-- Whether `c` may occur in a key without quotes. -/
def isBareKeyChar (c : Char) : Bool :=
  c.isAlphanum || c == '_' || c == '-'

/-- Reads one part of a key. -/
def keyPart? : Text → Option (Text × Text)
  | '"' :: t => basic? t
  | '\'' :: t => literal? t
  | t =>
    let part := t.takeWhile isBareKeyChar
    if part.isEmpty then none else some (part, t.dropWhile isBareKeyChar)

/-- Reads a key: its parts but the last, its last part, and the text behind it. -/
def key? (steps : Nat) (t : Text) : Option (List Text × Text × Text) :=
  match steps with
  | 0 => none
  | steps + 1 => do
    let (part, t) ← keyPart? t
    match dropBlanks t with
    | '.' :: t =>
      let (path, last, t) ← key? steps (dropBlanks t)
      pure (part :: path, last, t)
    | t => pure ([], part, t)

mutual

/-- Reads a value. -/
def value? (steps : Nat) (t : Text) : Option (Value × Text) :=
  match steps with
  | 0 => none
  | steps + 1 =>
    match t with
    | '[' :: t => do
      let (items, t) ← items? steps (← gap? false t)
      pure (.array items, t)
    | '\x7b' :: t => do
      let (entries, t) ← entries? steps [] (← gap? false t)
      pure (.table .inline entries, t)
    | '"' :: _ => (string? t).map fun (s, t) => (.text s, t)
    | '\'' :: _ => (string? t).map fun (s, t) => (.text s, t)
    | t => plain? t

/-- Reads the items of an array up to its closing bracket. -/
def items? (steps : Nat) (t : Text) : Option (List Value × Text) :=
  match steps with
  | 0 => none
  | steps + 1 =>
    match t with
    | ']' :: t => some ([], t)
    | t => do
      let (item, t) ← value? steps t
      match ← gap? false t with
      | ',' :: t =>
        let (items, t) ← items? steps (← gap? false t)
        pure (item :: items, t)
      | ']' :: t => pure ([item], t)
      | _ => none

/-- Reads the entries of a table in braces up to the closing brace, behind the
    entries read so far. -/
def entries? (steps : Nat) (entries : Entries) (t : Text) : Option (Entries × Text) :=
  match steps with
  | 0 => none
  | steps + 1 =>
    match t with
    | '\x7d' :: t => some (entries, t)
    | t => do
      let (path, last, t) ← key? steps t
      match dropBlanks t with
      | '=' :: t =>
        let (value, t) ← value? steps (dropBlanks t)
        let entries ← Entries.assign last value path entries
        match ← gap? false t with
        | ',' :: t => entries? steps entries (← gap? false t)
        | '\x7d' :: t => pure (entries, t)
        | _ => none
      | _ => none

end

/-- Reads a header behind its opening bracket or brackets, up to `closing`. -/
def header? (steps : Nat) (closing : Text) (t : Text) : Option (List Text × Text × Text) := do
  let (path, last, t) ← key? steps (dropBlanks t)
  let t ← Text.after? closing (dropBlanks t)
  pure (path, last, ← lineEnd? false t)

/-- Reads the lines of a document, under the header with the path `header`, into the
    entries read so far. -/
def lines? (steps : Nat) (header : List Text) (root : Entries) (t : Text) : Option Entries :=
  match steps with
  | 0 => none
  | steps + 1 => do
    match ← gap? false t with
    | [] => pure root
    | '[' :: '[' :: t =>
      let (path, last, t) ← header? steps "]]".toList t
      lines? steps (path ++ [last]) (← Entries.change (Entries.append last) path root) t
    | '[' :: t =>
      let (path, last, t) ← header? steps "]".toList t
      lines? steps (path ++ [last]) (← Entries.change (Entries.begin last) path root) t
    | t =>
      let (path, last, t) ← key? steps t
      match dropBlanks t with
      | '=' :: t =>
        let (value, t) ← value? steps (dropBlanks t)
        let t ← lineEnd? false t
        lines? steps header (← Entries.change (Entries.assign last value path) header root) t
      | _ => none

/-- The entries of a document; `none` if it is no TOML document. -/
def read? (t : Text) : Option Entries :=
  let t := match t with
    | '\uFEFF' :: t => t
    | t => t
  lines? (t.length + 2) [] [] t

end Shortcode.Toml
