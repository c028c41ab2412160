import Shortcode.Attributes.Reader

/-!
# Placeholder templates

A placeholder template is a text with gaps. `{content}` stands for the content of
a tag, a number for a positional attribute and any other name for a named one; a
brace that is meant as such is doubled. Reading a template merges neighbouring
characters into one segment of text. What has no value is left out.
-/

namespace Shortcode

/-- A part of a placeholder template. -/
inductive Segment
  | text (text : Text)
  | content
  | positional (index : Nat)
  | named (name : Text)
  deriving DecidableEq, Repr

/-- The fault of a placeholder template, with its byte offset. -/
inductive PlaceholderError
  | unclosed (offset : Nat)
  | empty (offset : Nat)
  | invalidName (name : Text) (offset : Nat)
  | unmatchedClose (offset : Nat)
  deriving DecidableEq, Repr

/-- The message about a fault. -/
def PlaceholderError.message : PlaceholderError → String
  | unclosed offset => s!"unclosed placeholder at offset {offset}"
  | empty offset => s!"empty placeholder at offset {offset}"
  | invalidName name offset =>
    "invalid placeholder `" ++ String.ofList name ++ s!"` at offset {offset}"
  | unmatchedClose offset => s!"unmatched `\x7d` at offset {offset}"

/-- A template: its segments, in order. -/
structure Placeholder where
  segments : List Segment
  deriving DecidableEq, Repr

namespace Placeholder

/-- The opening brace of a placeholder. -/
def openBrace : Char := '\x7b'

/-- The closing brace of a placeholder. -/
def closeBrace : Char := '\x7d'

/-- The segment for what stands between the braces of a placeholder at
    `offset`. -/
def gap (inner : Text) (offset : Nat) : Except PlaceholderError Segment :=
  let name := Text.trim inner
  if name.isEmpty then .error (.empty offset)
  else if name = "content".toList then .ok .content
  else match natural? name with
    | some index => .ok (.positional index)
    | none => if name.all isKeyChar then .ok (.named name) else .error (.invalidName name offset)

/-- Segments with `c` in front, joined to the text they begin with. -/
def push (c : Char) : List Segment → List Segment
  | .text run :: segments => .text (c :: run) :: segments
  | segments => .text [c] :: segments

/-- The segments of a text that stands at `offset` in a template. -/
def readFrom (offset : Nat) (t : Text) : Except PlaceholderError (List Segment) :=
  match t with
  | [] => .ok []
  | c :: r =>
    if c = openBrace then
      match r with
      | '\x7b' :: r => (readFrom (offset + 2) r).map (push openBrace)
      | r =>
        match _h : Text.splitAt? closeBrace r with
        | none => .error (.unclosed offset)
        | some (inner, rest) => do
          let segment ← gap inner offset
          let others ← readFrom (offset + inner.size + 2) rest
          pure (segment :: others)
    else if c = closeBrace then
      match r with
      | '\x7d' :: r => (readFrom (offset + 2) r).map (push closeBrace)
      | _ => .error (.unmatchedClose offset)
    else (readFrom (offset + c.utf8Size) r).map (push c)
termination_by t.length
decreasing_by
  · simp only [List.length_cons]; omega
  · have := Text.length_of_splitAt _h
    simp only [List.length_cons]
    omega
  · simp only [List.length_cons]; omega
  · simp

/-- Reads a template. -/
def read (source : Text) : Except PlaceholderError Placeholder :=
  (readFrom 0 source).map Placeholder.mk

/-- The text of a segment. -/
def fill (attrs : Attributes) (content : Option Text) : Segment → Text
  | .text run => run
  | .content => content.getD []
  | .positional index => (attrs.positional? index).getD []
  | .named name => (attrs.get? name).getD []

/-- The template filled in for a tag. -/
def render (template : Placeholder) (attrs : Attributes) (content : Option Text) : Text :=
  template.segments.flatMap (fill attrs content)

end Placeholder

end Shortcode
