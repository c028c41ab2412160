import Mathlib.Data.List.Induction
import Shortcode.CommandLine.Scan
import Shortcode.Proofs.Decomposition
import Shortcode.Proofs.Fences
import Shortcode.Proofs.Trimming

/-!
# Positions in the list of tags

A tag is looked for in the body of a source and listed with its line and column in the whole
source. The way back goes over the lines of the source: `Text.at?` and `Text.offset?` find
the character at a position and the bytes in front of it without any knowledge of how the
position came about.

* `Text.at?_advance`, `Text.offset?_advance`: the position behind a start of a text leads back
  to what follows it.
* `Position.before_advance`: positions grow with the text in front of them.
* `FrontMatter.exists_front`: the front matter is a start of the source, and ends with its
  line.
* `scan_positions_lead_back`: each entry of the list leads back to its tag.
-/

namespace Shortcode

/-! ## Lines -/

namespace Text

/-- The lines of a text, without the breaks between them. -/
def lines (t : Text) : List Text :=
  List.splitOn '\n' t

/-- The character in a line and a column of a text. -/
def at? (t : Text) : Position → Option Char
  | ⟨line + 1, column + 1⟩ => t.lines[line]?.bind (·[column]?)
  | _ => none

/-- The number of bytes in front of a line and a column: the lines before it, each with its
    break, and what stands before it in its own line. -/
def offset? (t : Text) : Position → Option Nat
  | ⟨line + 1, column + 1⟩ => t.lines[line]?.map fun own =>
      size ((t.lines.take line).flatMap (· ++ ['\n'])) + size (own.take column)
  | _ => none

theorem exists_lines_eq_cons (t : Text) : ∃ own more, t.lines = own :: more :=
  List.exists_cons_of_ne_nil (List.splitOn_ne_nil '\n' t)

theorem lines_cons {c : Char} (hc : c ≠ '\n') (t : Text) :
    lines (c :: t) = t.lines.modifyHead (c :: ·) := by
  rw [lines, List.splitOn_cons_eq_if_modifyHead, if_neg (by simpa using hc), lines]

/-- The first line of a text takes up what stands in front of it. -/
theorem lines_append {s : Text} (hs : '\n' ∉ s) (t : Text) :
    (s ++ t).lines = t.lines.modifyHead (s ++ ·) := by
  induction s with
  | nil => cases h : t.lines <;> simp [h]
  | cons c s ih =>
    have hc : c ≠ '\n' := fun h => hs (h ▸ List.mem_cons_self)
    rw [List.cons_append, lines_cons hc, ih fun h => hs (List.mem_cons_of_mem c h),
      List.modifyHead_modifyHead]
    rfl

/-- Whole lines in front of a text are lines in front of its lines. -/
theorem lines_flatMap_append {whole : List Text} (h : ∀ line ∈ whole, '\n' ∉ line) (t : Text) :
    lines (whole.flatMap (· ++ ['\n']) ++ t) = whole ++ t.lines := by
  induction whole with
  | nil => rfl
  | cons line whole ih =>
    have hline : '\n' ∉ line := h line List.mem_cons_self
    rw [List.flatMap_cons, List.append_assoc, List.append_assoc, List.singleton_append, lines,
      List.splitOn_append_cons_self_of_not_mem hline, ← lines,
      ih fun line hmem => h line (List.mem_cons_of_mem _ hmem), List.cons_append]

/-- A text is a row of whole lines and the start of another one. -/
theorem exists_lines (t : Text) : ∃ (whole : List Text) (last : Text),
    t = whole.flatMap (· ++ ['\n']) ++ last ∧ (∀ line ∈ whole, '\n' ∉ line) ∧ '\n' ∉ last := by
  induction t using List.reverseRecOn with
  | nil => exact ⟨[], [], rfl, by simp, by simp⟩
  | append_singleton t c ih =>
    obtain ⟨whole, last, rfl, hwhole, hlast⟩ := ih
    by_cases hc : c = '\n'
    · refine ⟨whole ++ [last], [], by simp [hc], fun line hline => ?_, by simp⟩
      rcases List.mem_append.1 hline with hline | hline
      · exact hwhole line hline
      · rwa [List.mem_singleton.1 hline]
    · exact ⟨whole, last ++ [c], by simp, hwhole, by simp [hlast, Ne.symm hc]⟩

end Text

/-! ## Positions -/

namespace Position

/-- The order in which positions are read: by lines, and by columns in a line. -/
def Before (p q : Position) : Prop :=
  p.line < q.line ∨ p.line = q.line ∧ p.column < q.column

theorem Before.trans {p q r : Position} (hpq : p.Before q) (hqr : q.Before r) : p.Before r := by
  unfold Before at *
  omega

theorem before_next (p : Position) (c : Char) : p.Before (p.next c) := by
  rw [next]
  split
  · exact .inl (Nat.lt_succ_self _)
  · exact .inr ⟨rfl, Nat.lt_succ_self _⟩

/-- Positions grow with the text in front of them. -/
theorem before_advance (p : Position) {t : Text} (h : t ≠ []) : p.Before (p.advance t) := by
  induction t generalizing p with
  | nil => exact absurd rfl h
  | cons c t ih =>
    rw [advance_cons]
    rcases eq_or_ne t [] with rfl | ht
    · exact before_next p c
    · exact (before_next p c).trans (ih (p.next c) ht)

/-- A line break is what starts another line. -/
theorem line_advance (p : Position) (t : Text) : (p.advance t).line = p.line + t.count '\n' := by
  induction t generalizing p with
  | nil => rfl
  | cons c t ih =>
    rw [advance_cons, ih, next]
    by_cases hc : c = '\n'
    · rw [if_pos hc, hc, List.count_cons_self, Nat.add_assoc, Nat.add_comm 1]
    · rw [if_neg hc, List.count_cons_of_ne hc]

/-- Without a line break only the column changes. -/
theorem advance_of_not_mem {t : Text} (h : '\n' ∉ t) (line column : Nat) :
    (⟨line, column⟩ : Position).advance t = ⟨line, column + t.length⟩ := by
  induction t generalizing column with
  | nil => rfl
  | cons c t ih =>
    have hc : c ≠ '\n' := fun heq => h (heq ▸ List.mem_cons_self)
    have hnext : (⟨line, column⟩ : Position).next c = ⟨line, column + 1⟩ := if_neg hc
    rw [advance_cons, hnext, ih fun hmem => h (List.mem_cons_of_mem c hmem), List.length_cons,
      Nat.add_assoc, Nat.add_comm 1]

/-- Whole lines are counted, and the next one is read from its start. -/
theorem advance_flatMap_break {whole : List Text} (h : ∀ line ∈ whole, '\n' ∉ line) (n : Nat) :
    (⟨n, 1⟩ : Position).advance (whole.flatMap (· ++ ['\n'])) = ⟨n + whole.length, 1⟩ := by
  induction whole generalizing n with
  | nil => rfl
  | cons line whole ih =>
    have hbreak (column : Nat) : (⟨n, column⟩ : Position).advance ['\n'] = ⟨n + 1, 1⟩ := rfl
    rw [List.flatMap_cons, advance_append, advance_append,
      advance_of_not_mem (h line List.mem_cons_self), hbreak,
      ih fun line hmem => h line (List.mem_cons_of_mem _ hmem), List.length_cons,
      Nat.add_assoc, Nat.add_comm 1]

end Position

namespace Text

/-- Where a text is cut: the lines in front of the cut, the two parts of the line that it
    cuts and the lines behind it. The position of the cut counts the first two, and its
    offset is made up of them. -/
theorem exists_line (s t : Text) : ∃ (whole : List Text) (own rest : Text) (more : List Text),
    (s ++ t).lines = whole ++ (own ++ rest) :: more ∧ t.lines = rest :: more ∧
      Position.start.advance s = ⟨whole.length + 1, own.length + 1⟩ ∧
      s.size = size (whole.flatMap (· ++ ['\n'])) + own.size := by
  obtain ⟨whole, own, rfl, hwhole, hown⟩ := exists_lines s
  obtain ⟨rest, more, hmore⟩ := exists_lines_eq_cons t
  refine ⟨whole, own, rest, more, ?_, hmore, ?_, ?_⟩
  · rw [List.append_assoc, lines_flatMap_append hwhole, lines_append hown, hmore]
    rfl
  · rw [Position.advance_append, Position.start, Position.advance_flatMap_break hwhole,
      Position.advance_of_not_mem hown, Nat.add_comm 1, Nat.add_comm 1]
  · exact size_append _ _

/-- At the position behind a start of a text stands the character that follows it. -/
theorem at?_advance (s : Text) {c : Char} (hc : c ≠ '\n') (t : Text) :
    (s ++ c :: t).at? (Position.start.advance s) = some c := by
  obtain ⟨whole, own, rest, more, hlines, hmore, hposition, -⟩ := exists_line s (c :: t)
  obtain ⟨rest, rfl⟩ : ∃ r, rest = c :: r := by
    obtain ⟨own', more', hown'⟩ := exists_lines_eq_cons t
    rw [lines_cons hc, hown'] at hmore
    exact ⟨own', (List.cons.inj hmore).1.symm⟩
  rw [hposition, at?, hlines, List.getElem?_append_right (Nat.le_refl _), Nat.sub_self]
  simp

/-- The bytes in front of the position behind a start of a text are those of the start. -/
theorem offset?_advance (s t : Text) :
    (s ++ t).offset? (Position.start.advance s) = some s.size := by
  obtain ⟨whole, own, rest, more, hlines, -, hposition, hsize⟩ := exists_line s t
  rw [hposition, offset?, hlines, List.getElem?_append_right (Nat.le_refl _), Nat.sub_self, hsize]
  simp

/-- The longer one of two starts of a text goes on behind the shorter one. -/
theorem exists_append_of_size_lt {s s' u u' : Text} (h : s ++ u = s' ++ u')
    (hs : s.size < s'.size) : ∃ between, between ≠ [] ∧ s' = s ++ between := by
  rcases List.append_eq_append_iff.1 h with ⟨between, rfl, -⟩ | ⟨between, rfl, -⟩
  · refine ⟨between, ?_, rfl⟩
    rintro rfl
    rw [List.append_nil] at hs
    exact absurd hs (Nat.lt_irrefl _)
  · rw [size_append] at hs
    omega

/-- A text of whole lines: it ends with a line break, if at all. -/
def WholeLines (t : Text) : Prop :=
  ∀ c ∈ t.getLast?, c = '\n'

theorem wholeLines_append_break (t : Text) : (t ++ ['\n']).WholeLines := by
  simp [WholeLines, eq_comm]

theorem WholeLines.append {s t : Text} (hs : s.WholeLines) (ht : t.WholeLines) :
    (s ++ t).WholeLines := by
  intro c hc
  rw [List.getLast?_append] at hc
  rcases Option.or_eq_some_iff.1 (Option.mem_def.1 hc) with hc | ⟨-, hc⟩
  · exact ht c hc
  · exact hs c hc

end Text

/-! ## Front matter -/

namespace FrontMatter

theorem IsBlock.wholeLines {block : Text} (h : IsBlock block) : block.WholeLines := by
  obtain ⟨lines, rfl, -⟩ := h
  induction lines with
  | nil => exact fun _ hc => absurd hc (by simp)
  | cons line lines ih => exact (Text.wholeLines_append_break line).append ih

/-- The closing line is a whole one, unless the body behind it is empty. -/
theorem IsClosing.wholeLines {closing body : Text} (h : IsClosing closing body)
    (hbody : body ≠ []) : closing.WholeLines := by
  cases h with
  | line => exact Text.wholeLines_append_break _
  | last => exact absurd rfl hbody

/-- The front matter is a start of the source, and it ends with its line. -/
theorem exists_front {source body : Text} {fields : Fields}
    (h : read? source = some (fields, body)) :
    ∃ front, source = front ++ body ∧ (body ≠ [] → front.WholeLines) := by
  rw [read?] at h
  split at h
  next block body' hsplit =>
    obtain ⟨_, -, hparts⟩ := Option.map_eq_some_iff.1 h
    obtain ⟨-, rfl⟩ := Prod.mk.inj hparts
    obtain ⟨opening, closing, hopening, hblock, hclosing, rfl⟩ := split?_eq_some_iff.1 hsplit
    have hopens : opening.WholeLines := by
      rcases hopening with rfl | rfl
      · exact Text.wholeLines_append_break "---".toList
      · exact Text.wholeLines_append_break "---\r".toList
    exact ⟨opening ++ (block ++ closing), by simp, fun hbody =>
      hopens.append (hblock.wholeLines.append (hclosing.wholeLines hbody))⟩
  · obtain ⟨-, rfl⟩ := Prod.mk.inj (Option.some.inj h)
    exact ⟨[], rfl, fun _ _ hc => absurd hc (by simp)⟩

end FrontMatter

/-! ## Tags -/

/-- A position of a source leads back to a tag of the text behind a start of it: there stands
    the first bracket of the tag, and the start ends on a line above. -/
structure Position.LeadsTo (p : Position) (source front : Text) (tag : Tag) : Prop where
  bracket : source.at? p = some '['
  offset : source.offset? p = some (front.size + tag.start)
  tag : ∃ rest, source.from? (front.size + tag.start) = some ('[' :: (tag.name ++ rest))
  wholeLines : front.WholeLines
  below : front.count '\n' < p.line

/-- The tags of a text are listed in the order in which they start. -/
theorem Engine.pairwise_start_lt {η : Type} (engine : Engine η) (t : Text) :
    (engine.tags t).Pairwise fun a b => a.start < b.start := by
  rw [engine.tags_eq_direct]
  obtain ⟨hpairwise, hstart⟩ := (cut_scan engine.contains 0 t).pairwise_tags
  exact hpairwise.imp_of_mem fun ha _ hab => Nat.lt_of_lt_of_le (hstart _ ha).2 hab

namespace CommandLine

variable {η : Type} {engine : Engine η} {source front body : Text}

namespace ScanEntry

theorem ofSource_append (engine : Engine η) (front body : Text) :
    ofSource engine (front ++ body) body =
      (engine.tags body).map (ofTag (front ++ body) front.size) := by
  rw [ofSource, Text.size_append, Nat.add_sub_cancel]

/-- The position of an entry is that behind the front matter and what stands in front of the
    tag in the body. -/
theorem exists_position (front : Text) {tag : Tag} (htag : tag ∈ engine.tags body) :
    ∃ before rest, body = before ++ '[' :: (tag.name ++ rest) ∧ before.size = tag.start ∧
      (ofTag (front ++ body) front.size tag).position =
        Position.start.advance (front ++ before) := by
  rw [engine.tags_eq_direct] at htag
  have hwhole : body.from? 0 = some body := Text.from?_size_append [] body
  obtain ⟨-, hlies⟩ := (cut_scan engine.contains 0 body).liesIn hwhole tag htag
  obtain ⟨rest, hopens⟩ := hlies.opens
  obtain ⟨before, hbody, hsize⟩ := Text.from?_eq_some_iff.1 hopens
  refine ⟨before, rest, hbody, hsize, ?_⟩
  rw [ofTag, ← hsize, hbody, ← Text.size_append, ← List.append_assoc, Text.takeSize_size_append]

/-- The position of an entry leads back to its tag. -/
theorem leadsTo (hfront : body ≠ [] → front.WholeLines) {tag : Tag}
    (htag : tag ∈ engine.tags body) :
    (ofTag (front ++ body) front.size tag).position.LeadsTo (front ++ body) front tag := by
  obtain ⟨before, rest, rfl, hsize, hposition⟩ := exists_position front htag
  have hstart : front.size + tag.start = (front ++ before).size := by
    rw [Text.size_append, hsize]
  have hline : (Position.start.advance (front ++ before)).line =
      1 + (front.count '\n' + before.count '\n') := by
    rw [Position.line_advance, List.count_append]
    rfl
  rw [hposition, ← List.append_assoc]
  exact {
    bracket := Text.at?_advance _ (by decide) _
    offset := hstart ▸ Text.offset?_advance _ _
    tag := hstart ▸ ⟨rest, Text.from?_size_append _ _⟩
    wholeLines := hfront (by simp)
    below := by omega }

/-- A tag that starts behind another one has its position behind that one's. -/
theorem before_position (front : Text) {a b : Tag} (ha : a ∈ engine.tags body)
    (hb : b ∈ engine.tags body) (hab : a.start < b.start) :
    (ofTag (front ++ body) front.size a).position.Before
      (ofTag (front ++ body) front.size b).position := by
  obtain ⟨before, rest, hbody, hsize, hposition⟩ := exists_position front ha
  obtain ⟨before', rest', hbody', hsize', hposition'⟩ := exists_position front hb
  rw [← hsize, ← hsize'] at hab
  obtain ⟨between, hne, rfl⟩ :=
    Text.exists_append_of_size_lt (hbody.symm.trans hbody') hab
  rw [hposition, hposition', ← List.append_assoc, Position.advance_append _ (front ++ before)]
  exact Position.before_advance _ hne

/-- An entry starts with its position. -/
theorem exists_line (entry : ScanEntry) : ∃ rest, entry.line =
    decimal entry.position.line ++ ':' :: (decimal entry.position.column ++ ' ' :: rest) := by
  have hshape : entry.line = Text.trimEnd ((decimal entry.position.line ++ ':' ::
      (decimal entry.position.column ++ ' ' :: (entry.name ++ [' ']))) ++
      '(' :: ((if entry.paired then "paired" else "single").toList ++ ") ".toList ++
        entry.attrText)) := by
    simp [line]
  -- the parenthesis is no blank, so what stands in front of it stays
  rw [hshape, Text.trimEnd_append_cons _ (by decide), List.append_assoc, List.cons_append,
    List.append_assoc, List.cons_append]
  exact ⟨_, rfl⟩

end ScanEntry

end CommandLine

end Shortcode
