import Shortcode.Proofs.Shifting
import Shortcode.Proofs.Document

/-!
# Reading a text with doubled brackets

Where some brackets of a text are doubled, its opening tags stay what they are. The
reading of a body comes past a bracket only inside quotes, where one bracket more does
not matter; and what stands in front of a doubled bracket has the same bracket behind
it as before, so every quote ends its value in the one text as in the other.

* `Doubled`: a text with some of its brackets doubled.
* `Opening.bare_strict_of_doubled`, `Opening.isSome_body?_of_doubled`: bodies end in
  both texts or in none.
* `Opening.read?_append_of_doubled`: an opening tag is read as before where brackets
  behind it are doubled.
* `findClose_of_doubled`: and so is its close marker.
-/

namespace Shortcode

/-- The text `u` is the text `t` with some of its brackets doubled. -/
inductive Doubled : (t u : Text) → Prop
  /-- Nothing is doubled in an empty text. -/
  | nil : Doubled [] []
  /-- A character that stays as it is. -/
  | char {c : Char} {t u : Text} (h : Doubled t u) : Doubled (c :: t) (c :: u)
  /-- A doubled `[`. -/
  | left {t u : Text} (h : Doubled t u) : Doubled ('[' :: t) ('[' :: '[' :: u)
  /-- A doubled `]`. -/
  | right {t u : Text} (h : Doubled t u) : Doubled (']' :: t) (']' :: ']' :: u)

namespace Doubled

variable {s s' t u : Text}

theorem refl (t : Text) : Doubled t t := by
  induction t with
  | nil => exact .nil
  | cons c t ih => exact .char ih

theorem append (hs : Doubled s s') (h : Doubled t u) : Doubled (s ++ t) (s' ++ u) := by
  induction hs with
  | nil => exact h
  | char _ ih => exact .char ih
  | left _ ih => exact .left ih
  | right _ ih => exact .right ih

/-- Doubling brackets behind a text. -/
theorem append_left (s : Text) (h : Doubled t u) : Doubled (s ++ t) (s ++ u) :=
  (refl s).append h

/-- Doubling brackets from the end of a close marker on. -/
theorem closeMarker (name : Text) (h : Doubled (']' :: t) (']' :: u)) :
    Doubled (Shortcode.closeMarker name ++ t) (Shortcode.closeMarker name ++ u) := by
  simpa [Shortcode.closeMarker] using h.append_left ('[' :: '/' :: name)

/-- Behind a character that is no bracket, the brackets of the rest are doubled. -/
theorem exists_of_cons {c : Char} (hopen : c ≠ '[') (hclose : c ≠ ']')
    (h : Doubled (c :: t) s) : ∃ u, s = c :: u ∧ Doubled t u := by
  cases h with
  | char h => exact ⟨_, rfl, h⟩
  | left _ => exact absurd rfl hopen
  | right _ => exact absurd rfl hclose

/-- A token may end in front of both texts or of none. -/
theorem endsToken_eq (h : Doubled t u) : endsToken u = endsToken t := by
  cases h <;> rfl

/-- The names that the texts start with are the same. -/
theorem takeWhile_eq (h : Doubled t u) :
    u.takeWhile isNameChar = t.takeWhile isNameChar ∧
      Doubled (t.dropWhile isNameChar) (u.dropWhile isNameChar) := by
  have hopen : isNameChar '[' = false := by decide
  have hclose : isNameChar ']' = false := by decide
  induction h with
  | nil => exact ⟨rfl, .nil⟩
  | @char c t u h ih =>
    cases hc : isNameChar c with
    | true => simpa [List.takeWhile_cons, List.dropWhile_cons, hc] using ih
    | false =>
      simp only [List.takeWhile_cons, List.dropWhile_cons, hc]
      exact ⟨rfl, h.char⟩
  | left h =>
    simp only [List.takeWhile_cons, List.dropWhile_cons, hopen]
    exact ⟨rfl, h.left⟩
  | right h =>
    simp only [List.takeWhile_cons, List.dropWhile_cons, hclose]
    exact ⟨rfl, h.right⟩

end Doubled

namespace Opening

variable {t u : Text}

/-! ## Bodies -/

/-- The outcome of a strict reading without the texts that it has read and left. -/
def Strict.bare : Strict → Strict
  | ends _ _ => ends [] []
  | refused => refused
  | unpaired => unpaired

@[simp] theorem Strict.bare_push (c : Char) (s : Strict) : (s.push c).bare = s.bare := by
  cases s <;> rfl

/-- In quotes a doubled bracket is passed over like a single one. -/
theorem bare_strict_quoted {q c : Char} (hq : isQuote q = true) (hc : c = '[' ∨ c = ']')
    (boundary : Bool) (t : Text) :
    (strict (some q) boundary (c :: t)).bare = (strict (some q) boundary t).bare := by
  obtain ⟨-, hclose, hopen, -⟩ := of_isQuote hq
  rcases hc with rfl | rfl
  · rw [strict_inside (by decide) (Ne.symm hopen), Strict.bare_push]
  · rw [strict_inside (by decide) (Ne.symm hclose), Strict.bare_push]

/-- The strict readings of both texts come to the same outcome. -/
theorem bare_strict_of_doubled (quote : Option Char)
    (hq : ∀ q, quote = some q → isQuote q = true) (boundary : Bool) (h : Doubled t u) :
    (strict quote boundary u).bare = (strict quote boundary t).bare := by
  fun_induction strict quote boundary t generalizing u with
  | case1 quote boundary hquote =>
    cases h
    rw [strict, if_pos hquote]
  | case2 quote boundary hquote =>
    cases h
    rw [strict, if_neg hquote]
  | case3 boundary q =>
    obtain ⟨u, rfl, hrest⟩ := h.exists_of_cons (by decide) (by decide)
    cases hrest
    rfl
  | case4 boundary q d t ih =>
    obtain ⟨u, rfl, hrest⟩ := h.exists_of_cons (by decide) (by decide)
    -- the backslash passes over one of two brackets, and the quotes over the other one
    cases hrest with
    | char hrest =>
      simp only [strict_escape, Strict.bare_push]
      exact ih hq hrest
    | left hrest =>
      simp only [strict_escape, Strict.bare_push, bare_strict_quoted (hq q rfl) (.inl rfl)]
      exact ih hq hrest
    | right hrest =>
      simp only [strict_escape, Strict.bare_push, bare_strict_quoted (hq q rfl) (.inr rfl)]
      exact ih hq hrest
  | case5 boundary t q hend hback ih =>
    obtain ⟨-, hclose, hopen, -⟩ := of_isQuote (hq q rfl)
    obtain ⟨u, rfl, hrest⟩ := h.exists_of_cons hopen hclose
    rw [strict_quote hback, hrest.endsToken_eq, if_pos hend, Strict.bare_push, Strict.bare_push]
    exact ih (by simp) hrest
  | case6 boundary t q hend hback =>
    obtain ⟨-, hclose, hopen, -⟩ := of_isQuote (hq q rfl)
    obtain ⟨u, rfl, hrest⟩ := h.exists_of_cons hopen hclose
    rw [strict_quote hback, hrest.endsToken_eq, if_neg hend]
  | case7 boundary c t q hback hne ih =>
    cases h with
    | char hrest =>
      rw [strict_inside hback hne, Strict.bare_push, Strict.bare_push]
      exact ih hq hrest
    | left hrest =>
      simp only [Strict.bare_push, bare_strict_quoted (hq q rfl) (.inl rfl)]
      exact ih hq hrest
    | right hrest =>
      simp only [Strict.bare_push, bare_strict_quoted (hq q rfl) (.inr rfl)]
      exact ih hq hrest
  | case8 boundary t => cases h <;> simp [strict, Strict.bare]
  | case9 boundary t => cases h <;> simp [strict]
  | case10 boundary c t hclose hopen hquote ih =>
    obtain ⟨u, rfl, hrest⟩ := h.exists_of_cons hopen hclose
    obtain ⟨rfl, hquote⟩ := (Bool.and_eq_true _ _).mp hquote
    rw [strict_open hquote, Strict.bare_push, Strict.bare_push]
    exact ih (fun q hq => Option.some.inj hq ▸ hquote) hrest
  | case11 boundary c t hclose hopen hquote ih =>
    obtain ⟨u, rfl, hrest⟩ := h.exists_of_cons hopen hclose
    rw [strict_pass hclose hopen (by simpa using hquote), Strict.bare_push, Strict.bare_push]
    exact ih hq hrest

/-- A lenient reading looks for the first bracket: it ends at a `]`, and a `[` refuses it. -/
theorem isSome_lenient_cons (c : Char) (t : Text) :
    (lenient (c :: t)).isSome =
      if c = ']' then true else if c = '[' then false else (lenient t).isSome := by
  simp only [lenient, Text.splitAt?]
  by_cases hclose : c = ']'
  · simp [hclose]
  · rw [if_neg hclose, if_neg hclose]
    cases Text.splitAt? ']' t with
    | none => simp
    | some p =>
      by_cases hopen : c = '['
      · simp [hopen]
      · have hne : ('[' == c) = false := by simpa using Ne.symm hopen
        simp only [Option.map_some, List.contains_cons, hne, Bool.false_or, if_neg hopen]
        split <;> rfl

/-- The lenient readings of both texts end or are refused. -/
theorem isSome_lenient_of_doubled (h : Doubled t u) :
    (lenient u).isSome = (lenient t).isSome := by
  induction h with
  | nil => rfl
  | char _ ih => rw [isSome_lenient_cons, isSome_lenient_cons, ih]
  | left _ _ => simp [isSome_lenient_cons]
  | right _ _ => simp [isSome_lenient_cons]

/-- The bodies of both texts end or are refused. -/
theorem isSome_body?_of_doubled (h : Doubled t u) : (body? u).isSome = (body? t).isSome := by
  have hstrict := bare_strict_of_doubled none (by simp) true h
  have hlenient := isSome_lenient_of_doubled h
  unfold body?
  cases ht : strict none true t <;> cases hu : strict none true u <;>
    simp_all [Strict.bare]

/-- A strict reading that ends does not look behind its end. -/
theorem strict_of_ends {quote : Option Char} {boundary : Bool} {body rest : Text}
    (h : strict quote boundary t = .ends body rest) (rest' : Text) :
    strict quote boundary (body ++ ']' :: rest') = .ends body rest' := by
  fun_induction strict quote boundary t generalizing body with
  | case1 => exact absurd h (by simp)
  | case2 => exact absurd h (by simp)
  | case3 => exact absurd h (by simp)
  | case4 boundary q d t ih =>
    obtain ⟨b₁, rfl, h₁⟩ := Strict.push_eq_ends_iff.1 h
    obtain ⟨b₂, rfl, h₂⟩ := Strict.push_eq_ends_iff.1 h₁
    rw [List.cons_append, List.cons_append, strict_escape, ih h₂]
    rfl
  | case5 boundary t q hend hback ih =>
    obtain ⟨b, rfl, hb⟩ := Strict.push_eq_ends_iff.1 h
    -- the character behind the quote is one of the body, or the bracket at its end
    have hend' : endsToken (b ++ ']' :: rest') = true := by
      rw [← append_of_strict hb] at hend
      cases b <;> exact hend
    rw [List.cons_append, strict_quote hback, if_pos hend', ih hb]
    rfl
  | case6 => exact absurd h (by simp)
  | case7 boundary c t q hback hne ih =>
    obtain ⟨b, rfl, hb⟩ := Strict.push_eq_ends_iff.1 h
    rw [List.cons_append, strict_inside hback hne, ih hb]
    rfl
  | case8 boundary t =>
    obtain ⟨rfl, -⟩ := Strict.ends.inj h
    simp [strict]
  | case9 => exact absurd h (by simp)
  | case10 boundary c t hclose hopen hquote ih =>
    obtain ⟨b, rfl, hb⟩ := Strict.push_eq_ends_iff.1 h
    obtain ⟨rfl, hquote⟩ := (Bool.and_eq_true _ _).mp hquote
    rw [List.cons_append, strict_open hquote, ih hb]
    rfl
  | case11 boundary c t hclose hopen hquote ih =>
    obtain ⟨b, rfl, hb⟩ := Strict.push_eq_ends_iff.1 h
    rw [List.cons_append, strict_pass hclose hopen (by simpa using hquote), ih hb]
    rfl

/-- A lenient reading does not look behind its end. -/
theorem lenient_of_eq_some {body rest : Text} (h : lenient t = some (body, rest)) (rest' : Text) :
    lenient (body ++ ']' :: rest') = some (body, rest') := by
  unfold lenient at h ⊢
  cases hs : Text.splitAt? ']' t with
  | none =>
    rw [hs] at h
    exact absurd h (by simp)
  | some p =>
    obtain ⟨b, r⟩ := p
    simp only [hs, Option.ite_none_left_eq_some, Option.some.injEq, Prod.mk.injEq] at h
    obtain ⟨hopen, rfl, rfl⟩ := h
    rw [Text.splitAt?_eq_some_iff.2 ⟨rfl, (Text.splitAt?_eq_some_iff.1 hs).2⟩]
    exact if_neg hopen

/-- A body is read as before where brackets behind it are doubled, its own one among them. -/
theorem body?_append_of_doubled {body rest rest' : Text}
    (h : body? (body ++ ']' :: rest) = some (body, rest))
    (hrest : Doubled (']' :: rest) (']' :: rest')) :
    body? (body ++ ']' :: rest') = some (body, rest') := by
  have hstrict := bare_strict_of_doubled none (by simp) true (hrest.append_left body)
  rw [body?] at h ⊢
  cases hs : strict none true (body ++ ']' :: rest) with
  | ends b r =>
    rw [hs] at h
    obtain ⟨rfl, rfl⟩ := Prod.mk.inj (Option.some.inj h)
    rw [strict_of_ends hs]
  | refused =>
    rw [hs] at h
    exact absurd h (by simp)
  | unpaired =>
    rw [hs] at h hstrict
    have hs' : strict none true (body ++ ']' :: rest') = .unpaired := by
      cases hs' : strict none true (body ++ ']' :: rest') <;> simp_all [Strict.bare]
    rw [hs']
    exact lenient_of_eq_some h rest'

/-! ## Opening tags -/

/-- An opening tag is read as before where brackets behind it are doubled, its own one
    among them. -/
theorem read?_append_of_doubled {o : Opening} {rest rest' : Text}
    (h : read? t = some (o, rest)) (hrest : Doubled (']' :: rest) (']' :: rest')) :
    read? (o.source ++ rest') = some (o, rest') := by
  obtain ⟨-, hname, hend, hbody⟩ := read?_eq_some_iff.1 h
  have hend' : endsToken (o.body ++ ']' :: rest') = true := by
    rw [(hrest.append_left o.body).endsToken_eq]
    exact hend
  exact read?_eq_some_iff.2
    ⟨by simp [source], hname, hend', body?_append_of_doubled hbody hrest⟩

/-- The name of an opening tag behind a `[`. -/
theorem map_name_read? (t : Text) :
    (read? ('[' :: t)).map (·.1.name) =
      if !(t.takeWhile isNameChar).isEmpty && endsToken (t.dropWhile isNameChar) &&
        (body? (t.dropWhile isNameChar)).isSome then some (t.takeWhile isNameChar) else none := by
  simp only [read?, name?]
  cases !(t.takeWhile isNameChar).isEmpty && endsToken (t.dropWhile isNameChar) with
  | false => rfl
  | true => cases h : body? (t.dropWhile isNameChar) <;> simp [h]

/-- Behind a `[` that is not doubled, both texts hold the name of an opening tag or
    none does. -/
theorem map_name_read?_of_doubled (h : Doubled t u) :
    (read? ('[' :: u)).map (·.1.name) = (read? ('[' :: t)).map (·.1.name) := by
  obtain ⟨hname, hrest⟩ := h.takeWhile_eq
  rw [map_name_read?, map_name_read?, hname, hrest.endsToken_eq, isSome_body?_of_doubled hrest]

end Opening

/-! ## Marks -/

/-- A text without brackets and the `]` behind it stand at the start of both texts or of
    none. -/
theorem Doubled.exists_append_close_iff {s t u : Text} (hopen : '[' ∉ s) (hclose : ']' ∉ s)
    (h : Doubled t u) : (∃ r, u = s ++ ']' :: r) ↔ ∃ r, t = s ++ ']' :: r := by
  induction s generalizing t u with
  | nil => cases h <;> simp
  | cons c s ih =>
    rw [List.mem_cons, not_or] at hopen hclose
    cases h with
    | nil => simp
    | @char d t u h =>
      have hrest := ih hopen.2 hclose.2 h
      simp only [List.cons_append, List.cons.injEq, exists_and_left, hrest]
    | left h => simp [hopen.1]
    | right h => simp [hclose.1]

namespace Mark

variable {name : Text}

/-- A mark is read as before where brackets behind it are doubled. -/
theorem read?_append_of_doubled {s rest rest' : Text} {k stop : Nat} {m : Mark}
    (h : read? name k (s ++ rest) = some (m, stop, rest)) (hrest : Doubled rest rest') :
    read? name k (s ++ rest') = some (m, stop, rest') := by
  rcases read?_eq_some_iff.1 h with ⟨ht, hstop, hm⟩ | ⟨o, ho, hname, hstop, hm⟩
  · obtain rfl := List.append_cancel_right ht
    exact read?_eq_some_iff.2 (.inl ⟨rfl, hstop, hm⟩)
  · obtain rfl := List.append_cancel_right (Opening.source_append_of_read ho)
    exact read?_eq_some_iff.2
      (.inr ⟨o, Opening.read?_append_of_doubled ho hrest.char, hname, hstop, hm⟩)

/-- A mark is a close marker or an opening tag of the name. -/
theorem isSome_read?_iff {t : Text} {k : Nat} :
    (read? name k t).isSome = true ↔
      (∃ rest, t = closeMarker name ++ rest) ∨
        (Opening.read? t).map (·.1.name) = some name := by
  rw [Option.isSome_iff_exists]
  constructor
  · rintro ⟨⟨m, stop, rest⟩, h⟩
    rcases read?_eq_some_iff.1 h with ⟨ht, -⟩ | ⟨o, ho, hname, -⟩
    · exact .inl ⟨rest, ht⟩
    · exact .inr (by rw [ho, Option.map_some, hname])
  · rintro (⟨rest, rfl⟩ | h)
    · exact ⟨_, read?_eq_some_iff.2 (.inl ⟨rfl, rfl, rfl⟩)⟩
    · obtain ⟨⟨o, rest⟩, ho, hname⟩ := Option.map_eq_some_iff.1 h
      exact ⟨_, read?_eq_some_iff.2 (.inr ⟨o, ho, hname, rfl, rfl⟩)⟩

/-- At a character that is not doubled, both texts have a mark or none does. -/
theorem isSome_read?_of_doubled (hname : isTagName name = true) {t u : Text} (h : Doubled t u)
    (c : Char) (k : Nat) :
    (read? name k (c :: u)).isSome = (read? name k (c :: t)).isSome := by
  by_cases hc : c = '['
  · subst hc
    have hmarker : (∃ r, '[' :: u = closeMarker name ++ r) ↔
        ∃ r, '[' :: t = closeMarker name ++ r := by
      have hslash := h.exists_append_close_iff (s := '/' :: name)
        (by simp [Opening.bracket_not_mem_of_isTagName hname])
        (by simp [Opening.not_mem_of_isTagName hname (show isNameChar ']' = false by decide)])
      simpa [closeMarker] using hslash
    rw [Bool.eq_iff_iff, isSome_read?_iff, isSome_read?_iff, hmarker,
      Opening.map_name_read?_of_doubled h]
  · rw [read?_of_ne hc, read?_of_ne hc]

/-- A mark that does not reach over a cut takes a start of the text in front of it. -/
theorem exists_append_of_read {t tail rest : Text} {k stop : Nat} {m : Mark}
    (h : read? name k (t ++ tail) = some (m, stop, rest)) (hle : tail.length ≤ rest.length) :
    ∃ s r, t = s ++ r ∧ rest = r ++ tail ∧ stop = k + s.size := by
  obtain ⟨s, hs, hstop⟩ := append_of_read h
  obtain ⟨r, rfl, rfl⟩ | ⟨r, rfl, rfl⟩ := List.append_eq_append_iff.1 hs
  · rw [List.length_append] at hle
    obtain rfl := List.length_eq_zero_iff.1 (by omega : r.length = 0)
    exact ⟨t, [], by simp, rfl, by simpa using hstop⟩
  · exact ⟨s, r, rfl, rfl, hstop⟩

/-- A walk meets the same marks up to a close marker where brackets from the end of that
    one on are doubled. -/
theorem list_append_of_doubled (hname : isTagName name = true) {t rest rest' : Text}
    (hrest : Doubled (']' :: rest) (']' :: rest')) {k : Nat} {inner later : List Mark} {span : Span}
    (h : list name k (t ++ (closeMarker name ++ rest)) = inner ++ closes span :: later)
    (hspan : span.start = k + t.size) :
    list name k (t ++ (closeMarker name ++ rest')) =
      inner ++ closes span :: list name span.stop rest' := by
  -- by strong induction, since a walk that meets a mark goes on behind all of it
  induction hn : t.length using Nat.strong_induction_on generalizing k t inner with
  | _ n ih =>
    subst hn
    have htail := hrest.closeMarker name
    cases t with
    | nil =>
      obtain rfl := eq_nil_of_cut h hspan
      rw [List.nil_append, list_closeMarker] at h
      obtain ⟨hmark, -⟩ := List.cons.inj h
      obtain rfl := closes.inj hmark
      rw [List.nil_append, list_closeMarker]
      rfl
    | cons c r =>
      have hpos := c.utf8Size_pos
      have hmem : closes span ∈ list name k (c :: r ++ (closeMarker name ++ rest)) := by
        rw [h]
        exact List.mem_append_right _ List.mem_cons_self
      cases hr : read? name k (c :: r ++ (closeMarker name ++ rest)) with
      | some p =>
        -- the mark ends in front of the close marker, and both walks go on behind it
        obtain ⟨m, stop, u⟩ := p
        have hle := le_of_read_of_mem_list (by simp) hmem hspan hr
        obtain ⟨s, r', hs, rfl, rfl⟩ := exists_append_of_read hr hle
        rw [hs, List.append_assoc] at hr
        have hr' := read?_append_of_doubled hr (htail.append_left r')
        have hsize := congrArg Text.size hs
        rw [Text.size_cons, Text.size_append] at hsize
        rw [Text.size_cons] at hspan
        rw [hs, List.append_assoc, list_of_read hr] at h
        rw [hs, List.append_assoc, list_of_read hr']
        cases inner with
        | nil =>
          have hstart := (start_eq_of_read hr).1
          rw [(List.cons.inj h).1, start, hspan] at hstart
          omega
        | cons m' inner =>
          obtain ⟨rfl, hlist⟩ := List.cons.inj h
          have hlt : r'.length < (c :: r).length := by
            have hshorter := length_lt_of_read hr
            simp only [hs, List.length_append] at hshorter ⊢
            omega
          rw [ih _ hlt hlist (by omega) rfl, List.cons_append]
      | none =>
        have hr' : read? name k (c :: (r ++ (closeMarker name ++ rest'))) = none := by
          have hsome := isSome_read?_of_doubled hname (htail.append_left r) c k
          rw [List.cons_append] at hr
          simpa [hr] using hsome
        rw [List.cons_append] at hr h
        rw [List.cons_append, list_of_not_read hr']
        rw [list_of_not_read hr] at h
        rw [Text.size_cons, ← Nat.add_assoc] at hspan
        exact ih _ (by simp) h hspan rfl

end Mark

/-- The close marker of a tag is found as before where brackets from its end on are
    doubled, wherever the text stands. -/
theorem findClose_of_doubled {name content rest rest' : Text} (hname : isTagName name = true)
    (hrest : Doubled (']' :: rest) (']' :: rest')) {k : Nat}
    (h : findClose name k (content ++ (closeMarker name ++ rest)) =
      some ⟨k + content.size, k + content.size + (closeMarker name).size⟩) (k' : Nat) :
    findClose name k' (content ++ (closeMarker name ++ rest')) =
      some ⟨k' + content.size, k' + content.size + (closeMarker name).size⟩ := by
  have hzero : findClose name 0 (content ++ (closeMarker name ++ rest')) =
      some ⟨content.size, content.size + (closeMarker name).size⟩ := by
    rw [← Nat.zero_add k, findClose_add] at h
    obtain ⟨span, hspan, he⟩ := Option.map_eq_some_iff.1 h
    obtain ⟨start, stop⟩ := span
    obtain ⟨hstart, hstop⟩ := Span.mk.inj he
    obtain ⟨rfl, rfl⟩ : start = content.size ∧ stop = content.size + (closeMarker name).size := by
      simp only at hstart hstop
      omega
    obtain ⟨inner, later, hlist, hopen⟩ := Mark.close?_eq_some_iff.1 hspan
    have hlist' := Mark.list_append_of_doubled hname hrest hlist (by simp)
    exact Mark.close?_eq_some_iff.2 ⟨inner, _, hlist', hopen⟩
  rw [← Nat.zero_add k', findClose_add, hzero, Option.map_some, Nat.zero_add]
  simp only [Span.shift, Option.some.injEq, Span.mk.injEq]
  omega

end Shortcode
