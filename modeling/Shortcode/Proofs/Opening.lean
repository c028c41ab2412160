import Shortcode.Markup.Mark
import Shortcode.Proofs.Trimming

/-!
# Reading opening tags and marks

What a tag name, an opening tag and a mark are read from, as equations on the
text, so that nothing behind these lemmas unfolds the readers.

* `Opening.name?_eq_some_iff`: a name is a run of name characters with the end of
  a token behind it.
* `Opening.read?_eq_some_iff`: an opening tag is its name and its body.
* `Mark.read?_eq_some_iff`: a mark is a close marker or an opening tag.
-/

namespace Shortcode

/-- The code points of letters and digits. -/
theorem toNat_of_isAlphanum {c : Char} (h : c.isAlphanum = true) :
    65 ≤ c.toNat ∧ c.toNat ≤ 90 ∨ 97 ≤ c.toNat ∧ c.toNat ≤ 122 ∨
      48 ≤ c.toNat ∧ c.toNat ≤ 57 := by
  change (decide (65 ≤ c.val ∧ c.val ≤ 90) || (decide (97 ≤ c.val) && decide (c.val ≤ 122)) ||
    (decide (48 ≤ c.val) && decide (c.val ≤ 57))) = true at h
  simpa [UInt32.le_iff_toNat_le, or_assoc] using h

/-- A blank is in no name. -/
theorem isNameChar_of_isBlank {c : Char} (h : isBlank c = true) : isNameChar c = false := by
  by_contra hc
  rw [Bool.not_eq_false, isNameChar, Bool.or_eq_true, Bool.or_eq_true, beq_iff_eq,
    beq_iff_eq] at hc
  rcases hc with (hc | rfl) | rfl
  · have hval := toNat_of_isAlphanum hc
    simp only [isBlank, Bool.or_eq_true, Bool.and_eq_true, decide_eq_true_eq, beq_iff_eq] at h
    omega
  · exact absurd h (by decide)
  · exact absurd h (by decide)

/-- No name goes on where a token may end. -/
theorem isNameChar_of_endsToken {c : Char} {t : Text} (h : endsToken (c :: t) = true) :
    isNameChar c = false := by
  simp only [endsToken, Bool.or_eq_true, beq_iff_eq] at h
  rcases h with (h | rfl) | rfl
  · exact isNameChar_of_isBlank h
  · decide
  · decide

/-- A name starts with a name character. -/
theorem exists_cons_of_isTagName {name : Text} (h : isTagName name = true) :
    ∃ c n, name = c :: n ∧ isNameChar c = true := by
  cases name with
  | nil => exact absurd h (by decide)
  | cons c n =>
    rw [isTagName, List.all_cons, Bool.and_eq_true, Bool.and_eq_true] at h
    exact ⟨c, n, rfl, h.2.1⟩

namespace Opening

/-- The name is the longest run of name characters. -/
theorem takeWhile_name {name rest : Text} (hname : isTagName name = true)
    (hrest : endsToken rest = true) :
    (name ++ rest).takeWhile isNameChar = name ∧ (name ++ rest).dropWhile isNameChar = rest := by
  have hall : ∀ c ∈ name, isNameChar c = true := by
    simp only [isTagName, Bool.and_eq_true, List.all_eq_true] at hname
    exact hname.2
  refine Text.takeWhile_append hall fun c hc => ?_
  obtain ⟨rest, rfl⟩ := List.head?_eq_some_iff.1 hc
  exact isNameChar_of_endsToken hrest

/-- A name is a run of name characters with the end of a token behind it. -/
theorem name?_eq_some_iff {t name rest : Text} :
    name? t = some (name, rest) ↔
      t = '[' :: (name ++ rest) ∧ isTagName name = true ∧ endsToken rest = true := by
  constructor
  · intro h
    refine ⟨(append_of_name h).symm, ?_⟩
    unfold name? at h
    split at h
    next t =>
      simp only at h
      split at h
      next hend =>
        simp only [Bool.and_eq_true] at hend
        simp only [Option.some.injEq, Prod.mk.injEq] at h
        obtain ⟨rfl, rfl⟩ := h
        refine ⟨?_, hend.2⟩
        rw [isTagName, hend.1, Bool.true_and, List.all_eq_true]
        exact fun c hc => List.mem_takeWhile_imp hc
      · exact absurd h (by simp)
    · exact absurd h (by simp)
  · rintro ⟨rfl, hname, hrest⟩
    obtain ⟨htake, hdrop⟩ := takeWhile_name hname hrest
    have hne : name.isEmpty = false := by
      simp only [isTagName, Bool.and_eq_true, Bool.not_eq_true'] at hname
      exact hname.1
    simp [name?, htake, hdrop, hne, hrest]

/-- In quotes the character behind a backslash is passed over. -/
theorem strict_escape (q : Char) (boundary : Bool) (d : Char) (t : Text) :
    strict (some q) boundary ('\\' :: d :: t) =
      ((strict (some q) boundary t).push d).push '\\' := by
  simp [strict]

/-- A quote ends a value if a token may end behind it. -/
theorem strict_quote {q : Char} (hq : q ≠ '\\') (boundary : Bool) (t : Text) :
    strict (some q) boundary (q :: t) =
      if endsToken t then (strict none boundary t).push q else .unpaired := by
  cases t <;> simp [strict, hq]

/-- Any other character in quotes is part of the value. -/
theorem strict_inside {q c : Char} (hc : c ≠ '\\') (hq : c ≠ q) (boundary : Bool) (t : Text) :
    strict (some q) boundary (c :: t) = (strict (some q) boundary t).push c := by
  cases t <;> simp [strict, hc, hq]

/-- An opening tag is a `[`, its name, its body and a `]`, where the name ends as
    names do and the body as bodies do. -/
theorem read?_eq_some_iff {t rest : Text} {o : Opening} :
    read? t = some (o, rest) ↔
      t = '[' :: (o.name ++ (o.body ++ ']' :: rest)) ∧ isTagName o.name = true ∧
        endsToken (o.body ++ ']' :: rest) = true ∧
        body? (o.body ++ ']' :: rest) = some (o.body, rest) := by
  constructor
  · intro h
    unfold read? at h
    split at h
    next name t' hn =>
      simp only [Option.map_eq_some_iff, Prod.exists, Prod.mk.injEq] at h
      obtain ⟨body, rest', hb, rfl, rfl⟩ := h
      obtain ⟨rfl, hname, hend⟩ := name?_eq_some_iff.1 hn
      have ht := append_of_body hb
      exact ⟨by rw [ht], hname, by rw [ht]; exact hend, by rw [ht]; exact hb⟩
    · exact absurd h (by simp)
  · rintro ⟨rfl, hname, hend, hbody⟩
    have hn : name? ('[' :: (o.name ++ (o.body ++ ']' :: rest))) =
        some (o.name, o.body ++ ']' :: rest) := name?_eq_some_iff.2 ⟨rfl, hname, hend⟩
    simp [read?, hn, hbody]

/-- An opening tag is a name with a body behind it. -/
theorem read?_eq_some_iff_name {t rest : Text} {o : Opening} :
    read? t = some (o, rest) ↔
      ∃ u, name? t = some (o.name, u) ∧ body? u = some (o.body, rest) := by
  constructor
  · intro h
    obtain ⟨ht, hname, hend, hbody⟩ := read?_eq_some_iff.1 h
    exact ⟨_, name?_eq_some_iff.2 ⟨ht, hname, hend⟩, hbody⟩
  · rintro ⟨u, hname, hbody⟩
    simp [read?, hname, hbody]

/-- No other character is in a name. -/
theorem not_mem_of_isTagName {name : Text} (h : isTagName name = true) {c : Char}
    (hc : isNameChar c = false) : c ∉ name := by
  intro hmem
  simp only [isTagName, Bool.and_eq_true, List.all_eq_true] at h
  exact absurd (h.2 _ hmem) (by simp [hc])

/-- No bracket is in a name. -/
theorem bracket_not_mem_of_isTagName {name : Text} (h : isTagName name = true) : '[' ∉ name :=
  not_mem_of_isTagName h (by decide)

/-- Two brackets start no tag. -/
theorem read?_bracket (t : Text) : read? ('[' :: '[' :: t) = none := by
  have hbracket : isNameChar '[' = false := by decide
  simp [read?, name?, hbracket]

/-- A close marker is no opening tag. -/
theorem name?_closeMarker (name t : Text) : name? (closeMarker name ++ t) = none := by
  have hslash : isNameChar '/' = false := by decide
  simp [name?, closeMarker, hslash]

/-- A text that starts with a `[` and a name starts with no close marker. -/
theorem after?_closeMarker_of_name {name n t rest : Text} (h : name? t = some (n, rest)) :
    Text.after? (closeMarker name) t = none := by
  obtain ⟨rfl, hn, -⟩ := name?_eq_some_iff.1 h
  rw [Option.eq_none_iff_forall_ne_some]
  intro rest' hafter
  have heq := Text.after?_eq_some_iff.1 hafter
  obtain ⟨c, n, rfl, hc⟩ := exists_cons_of_isTagName hn
  simp only [closeMarker, List.cons_append, List.cons.injEq, true_and] at heq
  rw [heq.1] at hc
  exact absurd hc (by decide)

/-- An empty body holds no attributes. -/
theorem attrs_of_empty (name : Text) : (⟨name, []⟩ : Opening).attrs = ⟨[]⟩ := by
  have hempty : (⟨[], []⟩ : Opening).attrs = ⟨[]⟩ := by decide +kernel
  exact hempty

end Opening

namespace Mark

/-- A mark is a close marker or an opening tag of the name. -/
theorem read?_eq_some_iff {name t rest : Text} {start stop : Nat} {mark : Mark} :
    read? name start t = some (mark, stop, rest) ↔
      (t = closeMarker name ++ rest ∧ stop = start + (closeMarker name).size ∧
        mark = closes ⟨start, stop⟩) ∨
      (∃ o, Opening.read? t = some (o, rest) ∧ o.name = name ∧ stop = start + o.source.size ∧
        mark = if o.selfClosing then single start else opens start) := by
  constructor
  · intro h
    unfold read? at h
    split at h
    next r hr =>
      simp only [Option.some.injEq, Prod.mk.injEq] at h
      obtain ⟨rfl, rfl, rfl⟩ := h
      exact .inl ⟨Text.after?_eq_some_iff.1 hr, rfl, rfl⟩
    · split at h
      next o r hr =>
        split at h
        next hname =>
          simp only [Option.some.injEq, Prod.mk.injEq] at h
          obtain ⟨rfl, rfl, rfl⟩ := h
          exact .inr ⟨o, hr, hname, rfl, rfl⟩
        · exact absurd h (by simp)
      · exact absurd h (by simp)
  · rintro (⟨rfl, rfl, rfl⟩ | ⟨o, ho, rfl, rfl, rfl⟩)
    · simp [read?, Text.after?_eq_some_iff.2 rfl]
    · obtain ⟨u, hn, -⟩ := Opening.read?_eq_some_iff_name.1 ho
      simp [read?, Opening.after?_closeMarker_of_name hn, ho]

/-- What a mark leaves, and how far it reaches. -/
theorem append_of_read {name t rest : Text} {start stop : Nat} {mark : Mark}
    (h : read? name start t = some (mark, stop, rest)) :
    ∃ s, t = s ++ rest ∧ stop = start + s.size := by
  rcases read?_eq_some_iff.1 h with ⟨ht, hstop, -⟩ | ⟨o, ho, -, hstop, -⟩
  · exact ⟨_, ht, hstop⟩
  · exact ⟨_, (Opening.source_append_of_read ho).symm, hstop⟩

end Mark

end Shortcode
