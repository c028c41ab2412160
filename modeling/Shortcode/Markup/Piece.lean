import Shortcode.Markup.Mark

/-!
# Pieces of a document

A document is a row of pieces: tags of known names, escaped tags, and the text
between them. A tag is *paired* if its opening tag has a close marker; it then
spans its content and the marker. In `[[name]]` the outer brackets *escape* the
tag inside them; there the tag alone is preferred to a paired reading of it.

How the close marker of an opening tag is found is a parameter (`Closing`), so
that a scan may remember what it has found. `Closing.direct` remembers nothing.

Cutting a document into pieces and listing its tags are two scans. They ask the same
questions in the same order, so a scan that remembers answers them alike in both.

* `Piece.flatMap_source_push`: text in front of pieces stays in front of them.
* `Tag.scan_eq`: the tags that are listed are those among the pieces.
-/

namespace Shortcode

/-- A tag in a document: the byte offset of its `[`, its opening tag and, if it
    is paired, the content up to its close marker. -/
structure Tag where
  start : Nat
  opening : Opening
  content : Option Text
  deriving DecidableEq, Repr

namespace Tag

/-- The name of a tag. -/
def name (tag : Tag) : Text :=
  tag.opening.name

/-- The offset behind the opening tag. -/
def openEnd (tag : Tag) : Nat :=
  tag.start + tag.opening.source.size

/-- The place of the close marker. -/
def close? (tag : Tag) : Option Span :=
  tag.content.map fun content =>
    let start := tag.openEnd + content.size
    ⟨start, start + (closeMarker tag.name).size⟩

/-- The offset behind the tag. -/
def stop (tag : Tag) : Nat :=
  (tag.close?.map Span.stop).getD tag.openEnd

/-- The tag as written. -/
def source (tag : Tag) : Text :=
  tag.opening.source ++
    match tag.content with
    | some content => content ++ closeMarker tag.name
    | none => []

end Tag

/-- A way to find the close marker of an opening tag: given the name, the offset
    of the `[`, the offset behind the opening tag, and the text from there on. -/
abbrev Closing (m : Type → Type) :=
  Text → Nat → Nat → Text → m (Option Span)

/-- Searches the text behind each opening tag. -/
def Closing.direct : Closing Id :=
  fun name _ stop after => findClose name stop after

/-- A tag at the start of the text `t`, and the text behind it. -/
structure Located (t : Text) where
  tag : Tag
  rest : Text
  shorter : rest.length < t.length

/-- An escaped tag at the start of the text `t`: what the outer brackets enclose,
    and the text behind them. -/
structure Escaped (t : Text) where
  inner : Text
  rest : Text
  shorter : rest.length < t.length

section

variable {m : Type → Type} [Monad m] (closing : Closing m) (known : Text → Bool)

/-- Reads the tag of a known name that the text `t` at offset `start` begins
    with. An opening tag without a close marker is a tag without content. -/
def locate? (start : Nat) (t : Text) : m (Option (Located t)) :=
  match h : Opening.read? t with
  | none => pure none
  | some (o, after) =>
    if known o.name then do
      let openEnd := start + o.source.size
      let close ← if o.selfClosing then pure none else closing o.name start openEnd after
      match close with
      | none => pure (some ⟨⟨start, o, none⟩, after, Opening.length_lt_of_read h⟩)
      | some span =>
        let content := Text.takeSize (span.start - openEnd) after
        let rest := Text.dropSize (span.stop - openEnd) after
        pure (some ⟨⟨start, o, some content⟩, rest,
          Nat.lt_of_le_of_lt (Text.length_dropSize_le _ _) (Opening.length_lt_of_read h)⟩)
    else pure none

/-- Reads the escaped tag of a known name that the text `t` at offset `start`
    begins with. -/
def escaped? (start : Nat) (t : Text) : m (Option (Escaped t)) :=
  match t with
  | '[' :: inside =>
    match h : Opening.read? inside with
    | some (o, after) =>
      if known o.name then
        match after with
        | ']' :: rest =>
          pure (some ⟨o.source, rest, by
            have := Opening.length_lt_of_read h
            simp only [List.length_cons] at this ⊢
            omega⟩)
        | _ => do
          match ← locate? closing known (start + 1) inside with
          | some ⟨tag, ']' :: rest, shorter⟩ =>
            pure (some ⟨tag.source, rest, by simp only [List.length_cons] at shorter ⊢; omega⟩)
          | _ => pure none
      else pure none
    | none => pure none
  | _ => pure none

end

/-- A piece of a document. -/
inductive Piece
  /-- Text that is copied. -/
  | text (run : Text)
  /-- A tag that is copied because it stands in brackets of its own. -/
  | escaped (inner : Text)
  /-- A tag that is expanded. -/
  | tag (tag : Tag)
  deriving DecidableEq, Repr

namespace Piece

/-- The piece as written. -/
def source : Piece → Text
  | text run => run
  | escaped inner => '[' :: (inner ++ [']'])
  | tag t => t.source

/-- Pieces with `c` in front, joined to the text they begin with. -/
def push (c : Char) : List Piece → List Piece
  | text run :: pieces => text (c :: run) :: pieces
  | pieces => text [c] :: pieces

/-- The pieces of a text that stands at offset `start`. -/
def scan {m : Type → Type} [Monad m] (closing : Closing m) (known : Text → Bool) (start : Nat)
    (t : Text) : m (List Piece) :=
  match t with
  | [] => pure []
  | c :: r =>
    if c = '[' then do
      match ← escaped? closing known start (c :: r) with
      | some e =>
        let pieces ← scan closing known (start + e.inner.size + 2) e.rest
        pure (escaped e.inner :: pieces)
      | none =>
        match ← locate? closing known start (c :: r) with
        | some l =>
          let pieces ← scan closing known l.tag.stop l.rest
          pure (tag l.tag :: pieces)
        | none => push c <$> scan closing known (start + c.utf8Size) r
    else push c <$> scan closing known (start + c.utf8Size) r
termination_by t.length
decreasing_by
  · exact e.shorter
  · exact l.shorter
  · simp
  · simp

/-- The pieces of a document, each close marker searched for anew. -/
def direct (known : Text → Bool) (t : Text) : List Piece :=
  scan Closing.direct known 0 t

/-- The tag that a piece is. -/
def tag? : Piece → Option Tag
  | tag t => some t
  | _ => none

theorem flatMap_source_push (c : Char) (pieces : List Piece) :
    (push c pieces).flatMap source = c :: pieces.flatMap source := by
  cases pieces with
  | nil => simp [push, source]
  | cons p ps => cases p <;> simp [push, source]

theorem filterMap_tag?_push (c : Char) (pieces : List Piece) :
    (push c pieces).filterMap tag? = pieces.filterMap tag? := by
  cases pieces with
  | nil => rfl
  | cons piece pieces => cases piece <;> rfl

theorem filterMap_tag?_escaped (inner : Text) (pieces : List Piece) :
    (escaped inner :: pieces).filterMap tag? = pieces.filterMap tag? := rfl

theorem filterMap_tag?_tag (t : Tag) (pieces : List Piece) :
    (tag t :: pieces).filterMap tag? = t :: pieces.filterMap tag? := rfl

end Piece

namespace Tag

/-- The tags of known names in a text that stands at offset `start`. Escaped tags and tags
    in the content of another one are passed over. -/
def scan {m : Type → Type} [Monad m] (closing : Closing m) (known : Text → Bool) (start : Nat)
    (t : Text) : m (List Tag) :=
  match t with
  | [] => pure []
  | c :: r =>
    if c = '[' then do
      match ← escaped? closing known start (c :: r) with
      | some e => scan closing known (start + e.inner.size + 2) e.rest
      | none =>
        match ← locate? closing known start (c :: r) with
        | some l =>
          let tags ← scan closing known l.tag.stop l.rest
          pure (l.tag :: tags)
        | none => scan closing known (start + c.utf8Size) r
    else scan closing known (start + c.utf8Size) r
termination_by t.length
decreasing_by
  · exact e.shorter
  · exact l.shorter
  · simp
  · simp

/-- The tags that are listed are those among the pieces, whatever the two scans remember on
    their way. -/
theorem scan_eq {m : Type → Type} [Monad m] [LawfulMonad m] (closing : Closing m)
    (known : Text → Bool) (start : Nat) (t : Text) :
    scan closing known start t =
      List.filterMap Piece.tag? <$> Piece.scan closing known start t := by
  induction start, t using Piece.scan.induct with
  | case1 start => simp [scan, Piece.scan]
  | case2 start r ihEscaped ihTag ihChar =>
    rw [scan, Piece.scan, if_pos rfl, if_pos rfl, map_bind]
    refine bind_congr fun escaped => ?_
    cases escaped with
    | some e => simp [ihEscaped e, Piece.filterMap_tag?_escaped]
    | none =>
      rw [map_bind]
      refine bind_congr fun located => ?_
      cases located with
      | some l => simp [ihTag l, Piece.filterMap_tag?_tag]
      | none => simp [ihChar, Piece.filterMap_tag?_push]
  | case3 start c r hc ih =>
    rw [scan, Piece.scan, if_neg hc, if_neg hc, ih]
    simp [Piece.filterMap_tag?_push]

end Tag

end Shortcode
