import Shortcode.Proofs.BalancedContent

/-!
# Where a text stands

Every reader of a document is told the offset of the text it reads, and uses it for
nothing but the places in its answer. So a text has the same pieces wherever it stands:
all places in them are moved by as much as the text is.

* `findClose_add`: the close marker that is searched moves with the text.
* `locate?_add`, `escaped?_add`: so does a tag, and an escaped tag stays what it is.
* `scan_add`: and so do the pieces of the text.
-/

namespace Shortcode

/-! ## Places -/

/-- The same span, `d` bytes further on. -/
def Span.shift (d : Nat) (span : Span) : Span :=
  ⟨span.start + d, span.stop + d⟩

namespace Tag

/-- The same tag, `d` bytes further on. -/
def shift (d : Nat) (tag : Tag) : Tag :=
  { tag with start := tag.start + d }

variable (d : Nat) (tag : Tag)

theorem source_shift : (tag.shift d).source = tag.source := rfl

theorem openEnd_shift : (tag.shift d).openEnd = tag.openEnd + d := by
  rw [openEnd, openEnd, shift, Nat.add_right_comm]

theorem close?_shift : (tag.shift d).close? = tag.close?.map (Span.shift d) := by
  rw [close?, close?, openEnd_shift, Option.map_map]
  refine congrArg (Option.map · tag.content) (funext fun content => ?_)
  simp only [Function.comp_apply, Span.shift, Nat.add_right_comm _ d]
  rfl

theorem stop_shift : (tag.shift d).stop = tag.stop + d := by
  rw [stop_eq, stop_eq, source_shift, shift, Nat.add_right_comm]

end Tag

/-- The same piece, `d` bytes further on. -/
def Piece.shift (d : Nat) : Piece → Piece
  | text run => text run
  | escaped inner => escaped inner
  | tag t => tag (t.shift d)

namespace Piece

theorem map_shift_push (d : Nat) (c : Char) (pieces : List Piece) :
    (push c pieces).map (shift d) = push c (pieces.map (shift d)) := by
  cases pieces with
  | nil => rfl
  | cons piece pieces => cases piece <;> rfl

/-- The tags among the pieces move with them. -/
theorem filterMap_tag?_map_shift (d : Nat) (pieces : List Piece) :
    (pieces.map (shift d)).filterMap tag? = (pieces.filterMap tag?).map (Tag.shift d) := by
  induction pieces with
  | nil => rfl
  | cons piece pieces ih =>
    cases piece with
    | text run => exact ih
    | escaped inner => exact ih
    | tag t => exact congrArg (t.shift d :: ·) ih

end Piece

/-! ## Searching -/

/-- The forward search finds the same close marker at another place of the text. -/
theorem Mark.close?_map_shift (d pending : Nat) (marks : List Mark) :
    close? pending (marks.map (shift d)) = (close? pending marks).map (Span.shift d) := by
  induction marks generalizing pending with
  | nil => rfl
  | cons m marks ih =>
    cases m with
    | opens s => exact ih (pending + 1)
    | single s => exact ih pending
    | closes span =>
      cases pending with
      | zero => rfl
      | succ n => exact ih n

/-- Where a text stands does not matter for what is searched in it. -/
theorem findClose_add (name : Text) (k d : Nat) (t : Text) :
    findClose name (k + d) t = (findClose name k t).map (Span.shift d) := by
  rw [findClose, findClose, Mark.list_add, Mark.close?_map_shift]

theorem closeOf_add (k d : Nat) (o : Opening) (after : Text) :
    closeOf (k + d) o after = (closeOf k o after).map (Span.shift d) := by
  unfold closeOf
  split
  · rfl
  · rw [Nat.add_right_comm, findClose_add]

/-! ## Tags and pieces -/

variable {known : Text → Bool}

/-- The same tag in front of the same rest, `d` bytes further on. -/
def Located.shift {t : Text} (d : Nat) (l : Located t) : Located t :=
  ⟨l.tag.shift d, l.rest, l.shorter⟩

/-- A located tag moves with the text. -/
theorem locate?_add (k d : Nat) (t : Text) :
    locate? Closing.direct known (k + d) t =
      ((locate? Closing.direct known k t : Option (Located t)).map (Located.shift d) :
        Option (Located t)) := by
  cases h : (locate? Closing.direct known k t : Option (Located t)) with
  | none =>
    rw [locate?_direct_eq_none_iff] at h
    exact locate?_direct_eq_none_iff.2 h
  | some l =>
    obtain ⟨after, hr, rfl, hk, ht, hclose⟩ := locate?_direct_eq_some_iff.1 h
    refine locate?_direct_eq_some_iff.2 ⟨after, hr, rfl, hk, ht, ?_⟩
    rw [Located.shift, Tag.close?_shift, hclose, closeOf_add]
    rfl

/-- What is escaped at the start of a text is told by the text alone. -/
theorem escaped?_add (k d : Nat) (t : Text) :
    escaped? Closing.direct known (k + d) t =
      (escaped? Closing.direct known k t : Option (Escaped t)) := by
  unfold escaped?
  split
  next inside =>
    split
    next o after hr =>
      split
      · split
        · rfl
        · rw [Nat.add_right_comm, locate?_add]
          cases (locate? Closing.direct known (k + 1) inside : Option (Located inside)) with
          | none => rfl
          | some l =>
            obtain ⟨tag, rest, shorter⟩ := l
            cases rest with
            | nil => rfl
            | cons c rest =>
              -- only a bracket behind the tag makes it an escaped one
              by_cases hc : c = ']'
              · subst hc
                rfl
              · dsimp only [Bind.bind, Option.map_some, Located.shift]
                split <;> split <;> simp_all
      · rfl
    · rfl
  · rfl

/-- The pieces of a text that is cut `d` bytes further on. -/
theorem Cut.shift {k : Nat} {t : Text} {pieces : List Piece} (h : Cut known k t pieces) (d : Nat) :
    Cut known (k + d) t (pieces.map (Piece.shift d)) := by
  induction h with
  | nil => exact .nil
  | @char k c r pieces hnone _ ih =>
    rw [Piece.map_shift_push]
    refine .char (fun hc => ?_) ?_
    · rw [escaped?_add, locate?_add, (hnone hc).1, (hnone hc).2]
      exact ⟨rfl, rfl⟩
    · rwa [Nat.add_right_comm]
  | @escaped k t e pieces he _ ih =>
    refine .escaped (e := e) ((escaped?_add k d t).trans he) ?_
    rwa [Nat.add_right_comm k d, Nat.add_right_comm _ d]
  | @tag k t l pieces he hl _ ih =>
    have hl' := (locate?_add k d t).trans (congrArg (Option.map (Located.shift d)) hl)
    refine .tag (l := l.shift d) ((escaped?_add k d t).trans he) hl' ?_
    rwa [Located.shift, Tag.stop_shift]

/-- A text has the same pieces wherever it stands. -/
theorem scan_add (k d : Nat) (t : Text) :
    Piece.scan Closing.direct known (k + d) t =
      ((Piece.scan Closing.direct known k t : List Piece).map (Piece.shift d) : List Piece) :=
  (cut_iff.1 ((cut_scan known k t).shift d)).symm

end Shortcode
