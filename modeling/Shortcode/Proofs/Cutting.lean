import Shortcode.Proofs.Locating

/-!
# How a text is cut

A scan looks at a `[` for an escaped tag first, then for a tag, and copies the
bracket if there is neither. `Cut` tells in four rules how a text is cut into
pieces that way; an induction over it follows the scan from one place where it
resumes to the next.

* `cut_iff`: the direct scan cuts as the rules say, and in no other way.
-/

namespace Shortcode

/-- The text from the offset `start` on is cut into pieces. -/
inductive Cut (known : Text → Bool) : Nat → Text → List Piece → Prop
  /-- Nothing is left. -/
  | nil {start : Nat} : Cut known start [] []
  /-- A character is copied at which neither an escaped tag nor a tag stands. -/
  | char {start : Nat} {c : Char} {r : Text} {pieces : List Piece}
      (hnone : c = '[' → escaped? Closing.direct known start (c :: r) = none ∧
        locate? Closing.direct known start (c :: r) = none)
      (hrest : Cut known (start + c.utf8Size) r pieces) :
      Cut known start (c :: r) (Piece.push c pieces)
  /-- An escaped tag stands in front. -/
  | escaped {start : Nat} {t : Text} {e : Escaped t} {pieces : List Piece}
      (he : escaped? Closing.direct known start t = some e)
      (hrest : Cut known (start + e.inner.size + 2) e.rest pieces) :
      Cut known start t (.escaped e.inner :: pieces)
  /-- A tag stands in front. -/
  | tag {start : Nat} {t : Text} {l : Located t} {pieces : List Piece}
      (he : escaped? Closing.direct known start t = none)
      (hl : locate? Closing.direct known start t = some l)
      (hrest : Cut known l.tag.stop l.rest pieces) :
      Cut known start t (.tag l.tag :: pieces)

section

variable {known : Text → Bool} {start : Nat}

/-- A tag starts with a `[`. -/
theorem exists_cons_of_locate? {t : Text} {l : Located t}
    (h : locate? Closing.direct known start t = some l) : ∃ r, t = '[' :: r := by
  obtain ⟨after, hr, -⟩ := locate?_direct_eq_some_iff.1 h
  obtain ⟨ht, -⟩ := Opening.read?_eq_some_iff.1 hr
  exact ⟨_, ht⟩

theorem scan_nil : Piece.scan Closing.direct known start [] = [] := by
  rw [Piece.scan]
  rfl

theorem scan_char {c : Char} {r : Text}
    (h : c = '[' → escaped? Closing.direct known start (c :: r) = none ∧
      locate? Closing.direct known start (c :: r) = none) :
    Piece.scan Closing.direct known start (c :: r) =
      Piece.push c (Piece.scan Closing.direct known (start + c.utf8Size) r) := by
  rw [Piece.scan]
  split
  next hc =>
    obtain ⟨he, hl⟩ := h hc
    simp only [he, hl]
    rfl
  · rfl

theorem scan_escaped {t : Text} {e : Escaped t}
    (he : escaped? Closing.direct known start t = some e) :
    Piece.scan Closing.direct known start t =
      (Piece.escaped e.inner :: Piece.scan Closing.direct known (start + e.inner.size + 2) e.rest :
        List Piece) := by
  obtain ⟨inside, -, -, rfl, -⟩ := escaped?_direct_eq_some he
  rw [Piece.scan, if_pos rfl]
  simp only [he]
  rfl

theorem scan_tag {t : Text} {l : Located t}
    (he : escaped? Closing.direct known start t = none)
    (hl : locate? Closing.direct known start t = some l) :
    Piece.scan Closing.direct known start t =
      (Piece.tag l.tag :: Piece.scan Closing.direct known l.tag.stop l.rest : List Piece) := by
  obtain ⟨r, rfl⟩ := exists_cons_of_locate? hl
  rw [Piece.scan, if_pos rfl]
  simp only [he, hl]
  rfl

/-- A tag is cut off where its opening tag is read and its close marker is the one that
    is searched. -/
theorem scan_tag_of_read {t after rest : Text} {tag : Tag}
    (hr : Opening.read? t = some (tag.opening, after)) (hstart : tag.start = start)
    (hk : known tag.name = true) (ht : t = tag.source ++ rest)
    (hclose : tag.close? = closeOf start tag.opening after) :
    Piece.scan Closing.direct known start t =
      (Piece.tag tag :: Piece.scan Closing.direct known tag.stop rest : List Piece) := by
  have hshorter : rest.length < t.length := ht ▸ tag.length_lt_source_append rest
  have hl : locate? Closing.direct known start t = some ⟨tag, rest, hshorter⟩ :=
    locate?_direct_eq_some_iff.2 ⟨after, hr, hstart, hk, ht, hclose⟩
  rw [scan_tag (escaped?_direct_eq_none_of_read hr) hl]

end

/-- The direct scan cuts as the rules say. -/
theorem cut_scan (known : Text → Bool) (start : Nat) (t : Text) :
    Cut known start t (Piece.scan Closing.direct known start t) := by
  -- wherever the scan resumes, less of the text is left
  induction hn : t.length using Nat.strong_induction_on generalizing start t with
  | _ n ih =>
    subst hn
    cases t with
    | nil =>
      rw [scan_nil]
      exact .nil
    | cons c r =>
      cases he : escaped? Closing.direct known start (c :: r) with
      | some e =>
        rw [scan_escaped he]
        exact .escaped he (ih _ e.shorter _ _ rfl)
      | none =>
        cases hl : locate? Closing.direct known start (c :: r) with
        | some l =>
          rw [scan_tag he hl]
          exact .tag he hl (ih _ l.shorter _ _ rfl)
        | none =>
          rw [scan_char fun _ => ⟨he, hl⟩]
          exact .char (fun _ => ⟨he, hl⟩) (ih _ (by simp) _ _ rfl)

/-- The direct scan cuts as the rules say, and in no other way. -/
theorem cut_iff {known : Text → Bool} {start : Nat} {t : Text} {pieces : List Piece} :
    Cut known start t pieces ↔ pieces = Piece.scan Closing.direct known start t := by
  constructor
  · intro h
    induction h with
    | nil => rw [scan_nil]
    | char hnone _ ih => rw [scan_char hnone, ← ih]
    | escaped he _ ih => rw [scan_escaped he, ← ih]
    | tag he hl _ ih => rw [scan_tag he hl, ← ih]
  · rintro rfl
    exact cut_scan known start t

end Shortcode
