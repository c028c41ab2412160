import Mathlib.Data.List.TakeWhile
import Shortcode.Text.Blank

/-!
# Runs of characters, and blanks around a text

What `takeWhile` and `dropWhile` do to a text that starts with a run of characters of one
kind, and what `trim` does to the blanks around a text.

* `Text.takeWhile_append`: a run is read up to where it ends.
* `Text.exists_append_trim`: blanks are all that `trim` removes.
* `Text.trim_sublist`: so it leaves a subsequence.
-/

namespace Shortcode

/-- Nothing but blanks. -/
def IsBlank (t : Text) : Prop :=
  ∀ c ∈ t, isBlank c = true

instance (t : Text) : Decidable (IsBlank t) :=
  decidable_of_iff (t.all isBlank = true) List.all_eq_true

/-- Blanks that do not end with a blank are none. -/
theorem IsBlank.eq_nil {t : Text} (h : IsBlank t) (hlast : ∀ c ∈ t.getLast?, isBlank c = false) :
    t = [] := by
  cases hc : t.getLast? with
  | none => exact List.getLast?_eq_none_iff.1 hc
  | some c =>
    have hblank := h c (List.mem_of_getLast? hc)
    rw [hlast c hc] at hblank
    exact absurd hblank (by decide)

namespace Text

/-! ## Runs -/

/-- A run of characters of one kind is read up to the first character of another kind. -/
theorem takeWhile_append {p : Char → Bool} {s t : Text} (hs : ∀ c ∈ s, p c = true)
    (ht : ∀ c ∈ t.head?, p c = false) :
    (s ++ t).takeWhile p = s ∧ (s ++ t).dropWhile p = t := by
  rw [List.takeWhile_append_of_pos hs, List.dropWhile_append_of_pos hs]
  cases t with
  | nil => exact ⟨List.append_nil s, rfl⟩
  | cons c t =>
    rw [List.takeWhile_cons, List.dropWhile_cons, ht c rfl]
    exact ⟨List.append_nil s, rfl⟩

theorem isBlank_takeWhile (t : Text) : IsBlank (t.takeWhile isBlank) :=
  fun _ hc => List.mem_takeWhile_imp hc

/-! ## Blanks in front -/

theorem trimStart_append_of_isBlank {blanks : Text} (h : IsBlank blanks) (t : Text) :
    trimStart (blanks ++ t) = trimStart t :=
  List.dropWhile_append_of_pos h

theorem takeWhile_append_trimStart (t : Text) : t.takeWhile isBlank ++ trimStart t = t :=
  List.takeWhile_append_dropWhile

theorem trimStart_eq_nil_iff {t : Text} : trimStart t = [] ↔ IsBlank t :=
  List.dropWhile_eq_nil_iff

theorem trimStart_sublist (t : Text) : (trimStart t).Sublist t :=
  List.dropWhile_sublist _

/-! ## Blanks behind -/

/-- A text that ends with no blank is kept by `trimEnd`. -/
theorem trimEnd_eq_self {t : Text} (h : ∀ c, t.getLast? = some c → isBlank c = false) :
    trimEnd t = t := by
  rw [trimEnd]
  cases hr : t.reverse with
  | nil =>
    rw [List.reverse_eq_nil_iff] at hr
    rw [hr]
    rfl
  | cons c r =>
    have hlast : t.getLast? = some c := by rw [List.getLast?_eq_head?_reverse, hr, List.head?_cons]
    rw [List.dropWhile_cons, h c hlast, if_neg (by decide), ← hr, List.reverse_reverse]

/-- Blanks are all that `trimEnd` removes. -/
theorem exists_append_trimEnd (t : Text) : ∃ blanks, t = trimEnd t ++ blanks ∧ IsBlank blanks := by
  refine ⟨(t.reverse.takeWhile isBlank).reverse, ?_, fun c hc => ?_⟩
  · rw [trimEnd, ← List.reverse_append, List.takeWhile_append_dropWhile, List.reverse_reverse]
  · exact isBlank_takeWhile t.reverse c (List.mem_reverse.1 hc)

/-- Nothing in front of a character that is no blank is touched by `trimEnd`. -/
theorem trimEnd_append_cons (s : Text) {c : Char} (hc : isBlank c = false) (t : Text) :
    trimEnd (s ++ c :: t) = s ++ c :: trimEnd t := by
  rw [trimEnd, trimEnd, List.reverse_append, List.reverse_cons, List.append_assoc,
    List.dropWhile_append]
  split
  next h =>
    rw [List.isEmpty_iff.1 h]
    simp [hc]
  · simp

/-- No blank is left at the end by `trimEnd`. -/
theorem getLast?_trimEnd (t : Text) : ∀ c ∈ (trimEnd t).getLast?, isBlank c = false := by
  intro c hc
  rw [trimEnd, List.getLast?_reverse] at hc
  have hnot := List.head?_dropWhile_not isBlank t.reverse
  rw [Option.mem_def.1 hc] at hnot
  simpa using hnot

/-- A part of a text that ends with no blank ends with no blank if it is the last part. -/
theorem getLast?_of_append {s t : Text} (h : ∀ c ∈ (s ++ t).getLast?, isBlank c = false) :
    ∀ c ∈ t.getLast?, isBlank c = false := by
  intro c hc
  refine h c ?_
  rw [List.getLast?_append, Option.mem_def.1 hc]
  rfl

theorem trimEnd_sublist (t : Text) : (trimEnd t).Sublist t := by
  rw [trimEnd, ← List.reverse_sublist, List.reverse_reverse]
  exact List.dropWhile_sublist _

/-! ## Blanks around -/

/-- Blanks are all that `trim` removes. -/
theorem exists_append_trim (t : Text) :
    ∃ before behind, t = before ++ (trim t ++ behind) ∧ IsBlank before ∧ IsBlank behind := by
  obtain ⟨behind, ht, hbehind⟩ := exists_append_trimEnd (trimStart t)
  refine ⟨t.takeWhile isBlank, behind, ?_, isBlank_takeWhile t, hbehind⟩
  rw [trim, ← ht, takeWhile_append_trimStart]

theorem trim_sublist (t : Text) : (trim t).Sublist t :=
  (trimEnd_sublist _).trans (trimStart_sublist t)

/-- A text without blanks is kept by `trim`. -/
theorem trim_eq_self {t : Text} (h : ∀ c ∈ t, isBlank c = false) : trim t = t := by
  have hstart : trimStart t = t := by
    cases t with
    | nil => rfl
    | cons c t => exact trimStart_eq_self (h c List.mem_cons_self)
  rw [trim, hstart]
  exact trimEnd_eq_self fun c hc => h c (List.mem_of_getLast? hc)

/-- A character that is no blank is kept by `trim`. -/
theorem mem_trim_of_mem {t : Text} {c : Char} (hc : c ∈ t) (hblank : isBlank c = false) :
    c ∈ trim t := by
  obtain ⟨before, behind, ht, hbefore, hbehind⟩ := exists_append_trim t
  have hout {s : Text} (hs : IsBlank s) : c ∉ s := fun hmem =>
    Bool.false_ne_true (hblank.symm.trans (hs c hmem))
  rw [ht, List.mem_append, List.mem_append] at hc
  exact (hc.resolve_left (hout hbefore)).resolve_right (hout hbehind)

end Text

end Shortcode
