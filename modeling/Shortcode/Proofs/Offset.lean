import Mathlib.Data.List.Basic
import Shortcode.Text.Basic

/-!
# Offsets

A place in a text is given by the bytes in front of it. An offset is on the
boundary of a character exactly if it is the size of some start of the text, and
then it names one place only.

* `Text.from?_eq_some_iff`: the text from an offset on is what is left behind a
  start of that size.
* `Text.append_inj_of_size`: a text has one start of each size.
-/

namespace Shortcode

namespace Text

/-- The text from an offset on is what is left behind a start of that size. -/
theorem from?_eq_some_iff {n : Nat} {t u : Text} :
    t.from? n = some u ↔ ∃ s, t = s ++ u ∧ s.size = n := by
  constructor
  · intro h
    unfold from? at h
    split at h
    next hn =>
      rw [Option.some.injEq] at h
      exact ⟨takeSize n t, by rw [← h, takeSize_append_dropSize], hn⟩
    · exact absurd h (by simp)
  · rintro ⟨s, rfl, rfl⟩
    rw [from?, takeSize_size_append, dropSize_size_append, if_pos rfl]

theorem from?_size_append (s u : Text) : (s ++ u).from? s.size = some u :=
  from?_eq_some_iff.2 ⟨s, rfl, rfl⟩

/-- What stands behind a part of the text from an offset on stands at the offset
    behind that part. -/
theorem from?_of_append {n : Nat} {t s u : Text} (h : t.from? n = some (s ++ u)) :
    t.from? (n + s.size) = some u := by
  obtain ⟨before, rfl, rfl⟩ := from?_eq_some_iff.1 h
  exact from?_eq_some_iff.2 ⟨before ++ s, by rw [List.append_assoc], size_append _ _⟩

/-- A text has one start of each size. -/
theorem append_inj_of_size {s s' u u' : Text} (h : s ++ u = s' ++ u') (hs : s.size = s'.size) :
    s = s' ∧ u = u' := by
  constructor
  · rw [← takeSize_size_append s u, h, hs, takeSize_size_append]
  · rw [← dropSize_size_append s u, h, hs, dropSize_size_append]

end Text

end Shortcode
