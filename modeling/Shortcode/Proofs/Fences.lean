import Mathlib.Data.List.Basic
import Shortcode.FrontMatter
import Shortcode.Proofs.Trimming

/-!
# Fences of front matter

A page with front matter is an opening fence, a block of whole lines, a closing line and the
body. The closing line is the first one that is a fence, so none of the lines of the block
is one, while the body may hold fences again. It is the last line of the page if it has no
line break, and then the body is empty.

* `IsSplit`: how the parts of a page make it up.
* `splitLines_eq_some_iff`: the lines are cut at the first one that is a fence.
* `front_matter_splits_exactly`: a page is cut as it is made up, and in no other way.
-/

namespace Shortcode

namespace FrontMatter

/-- Whole lines, none of which is a fence. -/
def IsBlock (block : Text) : Prop :=
  ∃ lines : List Text, block = lines.flatMap (· ++ ['\n']) ∧
    ∀ line ∈ lines, '\n' ∉ line ∧ isFence line = false

/-- The line that closes a block in front of a body. -/
inductive IsClosing : Text → Text → Prop
  /-- A fence and its line break. -/
  | line {fence body : Text} (hline : '\n' ∉ fence) (hfence : isFence fence = true) :
      IsClosing (fence ++ ['\n']) body
  /-- A fence at the end of the page. -/
  | last {fence : Text} (hline : '\n' ∉ fence) (hfence : isFence fence = true) :
      IsClosing fence []

/-- The page is made up of an opening fence, the block, a closing line and the body. -/
def IsSplit (source block body : Text) : Prop :=
  ∃ opening closing : Text, (opening = "---\n".toList ∨ opening = "---\r\n".toList) ∧
    IsBlock block ∧ IsClosing closing body ∧ source = opening ++ (block ++ (closing ++ body))

/-! ## Lines -/

theorem isFence_append_break (line : Text) : isFence (line ++ ['\n']) = isFence line := by
  have hbreak : isBlank '\n' = true := by decide
  simp [isFence, Text.trimEnd, hbreak]

theorem firstLine_of_not_mem {line : Text} (h : '\n' ∉ line) : firstLine line = (line, []) := by
  induction line with
  | nil => rfl
  | cons c line ih =>
    rw [List.mem_cons, not_or] at h
    rw [firstLine, if_neg (Ne.symm h.1), ih h.2]

theorem firstLine_append_break {line : Text} (h : '\n' ∉ line) (rest : Text) :
    firstLine (line ++ '\n' :: rest) = (line ++ ['\n'], rest) := by
  induction line with
  | nil => rfl
  | cons c line ih =>
    rw [List.mem_cons, not_or] at h
    rw [List.cons_append, firstLine, if_neg (Ne.symm h.1), ih h.2]
    rfl

/-- A text is one line without a break, or a line with one and the rest. -/
theorem eq_line_or (t : Text) :
    '\n' ∉ t ∨ ∃ line rest, '\n' ∉ line ∧ t = line ++ '\n' :: rest := by
  by_cases h : '\n' ∈ t
  · obtain ⟨line, rest, ht, hline⟩ := List.eq_append_cons_of_mem h
    exact .inr ⟨line, rest, hline, ht⟩
  · exact .inl h

/-- Lines are cut behind the first one if it is a fence, and else further on. -/
theorem splitLines_of_firstLine {t line rest : Text} (ht : t ≠ [])
    (h : firstLine t = (line, rest)) :
    splitLines t = if isFence line then some ([], rest)
      else (splitLines rest).map fun (block, body) => (line ++ block, body) := by
  obtain ⟨c, r, rfl⟩ := List.exists_cons_of_ne_nil ht
  rw [splitLines, h]

theorem splitLines_line {line : Text} (hline : '\n' ∉ line) (hfence : isFence line = false)
    (rest : Text) :
    splitLines (line ++ '\n' :: rest) =
      (splitLines rest).map fun (block, body) => (line ++ '\n' :: block, body) := by
  rw [splitLines_of_firstLine (by simp) (firstLine_append_break hline rest),
    isFence_append_break, hfence]
  simp

/-! ## Cutting -/

theorem IsBlock.nil : IsBlock [] :=
  ⟨[], rfl, by simp⟩

theorem IsBlock.cons {line block : Text} (hline : '\n' ∉ line) (hfence : isFence line = false)
    (h : IsBlock block) : IsBlock (line ++ '\n' :: block) := by
  obtain ⟨lines, rfl, hlines⟩ := h
  exact ⟨line :: lines, by simp, List.forall_mem_cons.2 ⟨⟨hline, hfence⟩, hlines⟩⟩

/-- At the line that closes a block the lines are cut. -/
theorem IsClosing.splitLines_eq {closing body : Text} (h : IsClosing closing body) :
    splitLines (closing ++ body) = some ([], body) := by
  cases h with
  | line hline hfence =>
    rw [List.append_assoc, List.singleton_append,
      splitLines_of_firstLine (by simp) (firstLine_append_break hline body),
      isFence_append_break, if_pos hfence]
  | last hline hfence =>
    have hne : closing ≠ [] := by
      rintro rfl
      exact absurd hfence (by decide)
    rw [List.append_nil, splitLines_of_firstLine hne (firstLine_of_not_mem hline), if_pos hfence]

/-- In front of that they are not. -/
theorem IsBlock.splitLines_append {block : Text} (h : IsBlock block) (rest : Text) :
    splitLines (block ++ rest) =
      (splitLines rest).map fun (more, body) => (block ++ more, body) := by
  obtain ⟨lines, rfl, hlines⟩ := h
  induction lines with
  | nil => simp
  | cons line lines ih =>
    obtain ⟨⟨hline, hfence⟩, hlines⟩ := List.forall_mem_cons.1 hlines
    rw [List.flatMap_cons, List.append_assoc, List.append_assoc, List.singleton_append,
      splitLines_line hline hfence, ih hlines]
    simp [Function.comp_def]

/-- A single line is cut only if it is a fence. -/
theorem exists_closing_of_line {t block body : Text} (hline : '\n' ∉ t)
    (h : splitLines t = some (block, body)) :
    ∃ closing, IsBlock block ∧ IsClosing closing body ∧ t = block ++ (closing ++ body) := by
  have hne : t ≠ [] := by
    rintro rfl
    rw [splitLines] at h
    exact absurd h (by simp)
  rw [splitLines_of_firstLine hne (firstLine_of_not_mem hline)] at h
  split at h
  next hfence =>
    obtain ⟨rfl, rfl⟩ := Prod.mk.inj (Option.some.inj h)
    exact ⟨t, .nil, .last hline hfence, by simp⟩
  next =>
    rw [splitLines] at h
    exact absurd h (by simp)

/-- Lines are cut at the first one that is a fence. -/
theorem splitLines_eq_some_iff {t block body : Text} :
    splitLines t = some (block, body) ↔
      ∃ closing, IsBlock block ∧ IsClosing closing body ∧ t = block ++ (closing ++ body) := by
  constructor
  · intro h
    induction hn : t.length using Nat.strong_induction_on generalizing t block with
    | _ n ih =>
      subst hn
      rcases eq_line_or t with hline | ⟨line, rest, hline, rfl⟩
      · exact exists_closing_of_line hline h
      · cases hfence : isFence line with
        | true =>
          have hclosing : IsClosing (line ++ ['\n']) rest := .line hline hfence
          have hcut := hclosing.splitLines_eq
          rw [List.append_assoc, List.singleton_append, h] at hcut
          obtain ⟨rfl, rfl⟩ := Prod.mk.inj (Option.some.inj hcut)
          exact ⟨_, .nil, hclosing, by simp⟩
        | false =>
          -- the line belongs to the block, and the rest is cut further on
          rw [splitLines_line hline hfence] at h
          obtain ⟨⟨more, body'⟩, hrest, hparts⟩ := Option.map_eq_some_iff.1 h
          obtain ⟨rfl, rfl⟩ := Prod.mk.inj hparts
          obtain ⟨closing, hmore, hclosing, rfl⟩ := ih rest.length (by simp; omega) hrest rfl
          exact ⟨closing, hmore.cons hline hfence, hclosing, by simp⟩
  · rintro ⟨closing, hblock, hclosing, rfl⟩
    rw [hblock.splitLines_append, hclosing.splitLines_eq]
    simp

/-- A page starts with one of the opening fences, if with any. -/
theorem or_after?_eq_some_iff {source rest : Text} :
    (Text.after? "---\n".toList source).or (Text.after? "---\r\n".toList source) = some rest ↔
      source = "---\n".toList ++ rest ∨ source = "---\r\n".toList ++ rest := by
  rw [Option.or_eq_some_iff, Text.after?_eq_some_iff, Text.after?_eq_some_iff]
  constructor
  · rintro (h | ⟨-, h⟩)
    · exact .inl h
    · exact .inr h
  · rintro (rfl | rfl)
    · exact .inl rfl
    · exact .inr ⟨rfl, rfl⟩

/-- A page is cut as it is made up. -/
theorem split?_eq_some_iff {source block body : Text} :
    split? source = some (block, body) ↔ IsSplit source block body := by
  rw [split?]
  constructor
  · intro h
    split at h
    next rest hrest =>
      obtain ⟨closing, hblock, hclosing, rfl⟩ := splitLines_eq_some_iff.1 h
      rcases or_after?_eq_some_iff.1 hrest with rfl | rfl
      · exact ⟨_, closing, .inl rfl, hblock, hclosing, rfl⟩
      · exact ⟨_, closing, .inr rfl, hblock, hclosing, rfl⟩
    · exact absurd h (by simp)
  · rintro ⟨opening, closing, hopening, hblock, hclosing, rfl⟩
    have hrest := or_after?_eq_some_iff.2
      (hopening.imp (congrArg (· ++ (block ++ (closing ++ body))))
        (congrArg (· ++ (block ++ (closing ++ body)))))
    simp only [hrest]
    exact splitLines_eq_some_iff.2 ⟨closing, hblock, hclosing, rfl⟩

end FrontMatter

/-- A page is cut into a block and a body if and only if it is made up of an opening fence, the
    block, a closing line and the body; its fields are then those of the block. Any other page
    has no block: it has no fields, and all of it is body. So a block that is written between
    two fences in front of a body is cut off, whatever the body holds. -/
theorem front_matter_splits_exactly :
    (∀ source block body, FrontMatter.split? source = some (block, body) ↔
      FrontMatter.IsSplit source block body) ∧
    (∀ source block body, FrontMatter.IsSplit source block body →
      FrontMatter.read? source = (FrontMatter.fields? block).map (·, body)) ∧
    (∀ source, (∀ block body, ¬FrontMatter.IsSplit source block body) →
      FrontMatter.split? source = none ∧
        FrontMatter.read? source = some (Table.empty, source)) ∧
    ∀ block body, FrontMatter.IsBlock block →
      FrontMatter.split? ("---\n".toList ++ (block ++ ("---\n".toList ++ body))) =
        some (block, body) := by
  refine ⟨fun _ _ _ => FrontMatter.split?_eq_some_iff, fun source block body h => ?_,
    fun source h => ?_, fun block body h => ?_⟩
  · rw [FrontMatter.read?, FrontMatter.split?_eq_some_iff.2 h]
  · have hnone : FrontMatter.split? source = none := by
      rw [Option.eq_none_iff_forall_ne_some]
      exact fun ⟨block, body⟩ hsplit => h block body (FrontMatter.split?_eq_some_iff.1 hsplit)
    rw [FrontMatter.read?, hnone]
    exact ⟨rfl, rfl⟩
  · have hfence : FrontMatter.IsClosing ("---".toList ++ ['\n']) body :=
      .line (by decide) (by decide)
    exact FrontMatter.split?_eq_some_iff.2 ⟨_, _, .inl rfl, h, hfence, rfl⟩

/-- A block with a line that is nearly a fence, in front of a body with fences, between plain
    fences and between such with blanks behind them; and a page whose block is not closed. -/
theorem front_matter_splits_exactly_fences :
    let block := "a: 1\n --- \n".toList
    let body := "---\nx\n---".toList
    let blanks := "---\r\n".toList ++ (block ++ ("---\u2003\r\n".toList ++ body))
    let unclosed := "---\na: 1\n".toList
    (FrontMatter.IsBlock block ∧ FrontMatter.IsSplit blanks block body ∧
      ∀ block body, ¬FrontMatter.IsSplit unclosed block body) ∧
    FrontMatter.split? ("---\n".toList ++ (block ++ ("---\n".toList ++ body))) =
        some (block, body) ∧
      FrontMatter.split? blanks = some (block, body) ∧
      FrontMatter.read? blanks = (FrontMatter.fields? block).map (·, body) ∧
      FrontMatter.read? unclosed = some (Table.empty, unclosed) := by
  intro block body blanks unclosed
  obtain ⟨hsplit, hread, hnone, hwritten⟩ := front_matter_splits_exactly
  have hblock : FrontMatter.IsBlock block :=
    ⟨["a: 1".toList, " --- ".toList], by decide, by decide⟩
  have hclosing : FrontMatter.IsClosing ("---\u2003\r".toList ++ ['\n']) body :=
    .line (by decide) (by decide)
  have hblanks : FrontMatter.IsSplit blanks block body :=
    ⟨_, _, .inr rfl, hblock, hclosing, rfl⟩
  have hunclosed : ∀ block body, ¬FrontMatter.IsSplit unclosed block body := by
    intro block body h
    have hcut : FrontMatter.split? unclosed = none := by decide +kernel
    rw [(hsplit _ _ _).2 h] at hcut
    exact absurd hcut (by simp)
  exact ⟨⟨hblock, hblanks, hunclosed⟩, hwritten block body hblock, (hsplit _ _ _).2 hblanks,
    hread _ _ _ hblanks, (hnone _ hunclosed).2⟩

end Shortcode
