import Shortcode.Markup.Opening

/-!
# Marks and pairing

The *marks* of a name in a text are its opening tags and its close markers
`[/name]`, in the order in which they are met. Text in the body of an opening tag
of the name is passed over with the tag; tags of other names are not seen.

Close markers are paired with opening tags like brackets: each one closes the
last opening tag before it that is still open. There are two ways to look at it.
`Mark.close?` searches forward from one opening tag and counts how many others are
open; `Mark.pairs` walks all marks once with a stack of open tags.

* `Mark.length_lt_of_read`: a mark takes at least one character.
-/

namespace Shortcode

/-- The bytes of a text from offset `start` up to offset `stop`. -/
structure Span where
  start : Nat
  stop : Nat
  deriving DecidableEq, Repr

/-- The close marker of tags called `name`. -/
def closeMarker (name : Text) : Text :=
  '[' :: '/' :: (name ++ [']'])

/-- A mark of a name, with its place. -/
inductive Mark
  /-- An opening tag, with its first byte. -/
  | opens (start : Nat)
  /-- A self-closing tag, with its first byte. -/
  | single (start : Nat)
  /-- A close marker. -/
  | closes (span : Span)
  deriving DecidableEq, Repr

namespace Mark

/-- Reads the mark of `name` that a text at offset `start` begins with: the mark,
    and the text behind it. -/
def read? (name : Text) (start : Nat) (t : Text) : Option (Mark × Nat × Text) :=
  match Text.after? (closeMarker name) t with
  | some rest =>
    let stop := start + (closeMarker name).size
    some (closes ⟨start, stop⟩, stop, rest)
  | none =>
    match Opening.read? t with
    | some (o, rest) =>
      if o.name = name then
        some (if o.selfClosing then single start else opens start, start + o.source.size, rest)
      else none
    | none => none

theorem length_lt_of_read {name t rest : Text} {start stop : Nat} {mark : Mark}
    (h : read? name start t = some (mark, stop, rest)) : rest.length < t.length := by
  unfold read? at h
  split at h
  next r hr =>
    simp only [Option.some.injEq, Prod.mk.injEq] at h
    obtain ⟨-, -, rfl⟩ := h
    rw [Text.after?_eq_some_iff.mp hr]
    simp [closeMarker]
    omega
  · split at h
    next o r hr =>
      split at h
      · simp only [Option.some.injEq, Prod.mk.injEq] at h
        obtain ⟨-, -, rfl⟩ := h
        exact Opening.length_lt_of_read hr
      · simp at h
    · simp at h

/-- The marks of `name` in a text that stands at offset `start`. -/
def list (name : Text) (start : Nat) (t : Text) : List Mark :=
  match t with
  | [] => []
  | c :: r =>
    match _h : read? name start (c :: r) with
    | some (mark, stop, rest) => mark :: list name stop rest
    | none => list name (start + c.utf8Size) r
termination_by t.length
decreasing_by
  · exact length_lt_of_read _h
  · simp

/-- The close marker among the marks behind an opening tag that belongs to it,
    where `pending` further tags are open. -/
def close? (pending : Nat) : List Mark → Option Span
  | [] => none
  | opens _ :: marks => close? (pending + 1) marks
  | single _ :: marks => close? pending marks
  | closes span :: marks =>
    match pending with
    | 0 => some span
    | n + 1 => close? n marks

/-- Each opening tag among the marks with its close marker, where the tags at
    `pending` are open, the last one first. A self-closing tag and a tag that stays
    open have none; a close marker without a tag is passed over. -/
def pairs (pending : List Nat) : List Mark → List (Nat × Option Span)
  | [] => pending.map fun start => (start, none)
  | opens start :: marks => pairs (start :: pending) marks
  | single start :: marks => (start, none) :: pairs pending marks
  | closes span :: marks =>
    match pending with
    | [] => pairs [] marks
    | start :: pending => (start, some span) :: pairs pending marks

end Mark

/-- The close marker of an opening tag called `name`, searched in the text `t`
    behind it, which stands at offset `start`. -/
def findClose (name : Text) (start : Nat) (t : Text) : Option Span :=
  Mark.close? 0 (Mark.list name start t)

/-- Every opening tag called `name` in a text, with its close marker. -/
def closePairs (name : Text) (t : Text) : List (Nat × Option Span) :=
  Mark.pairs [] (Mark.list name 0 t)

end Shortcode
