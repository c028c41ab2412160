import Shortcode.Proofs.Opening

/-!
# Reading a text that is cut off

The content of a tag is a text that has been cut off in front of a close marker.
Whether an opening tag reads the same in it as in the whole text hangs on where
the strict reading of its body stands at the cut.

* Outside quotes nothing changes: the bracket behind the cut refuses the body, and
  so does the end of the text.
* Right behind a quoted value the end of the text ends the value, but the bracket
  does not, so that the whole text is read leniently and the cut one not at all.
* Inside a quoted value the cut text is read leniently, while the whole text may be
  refused behind the cut.

`Opening.Torn` is the case in which the readings differ.

* `Opening.body?_append_of_not_torn`, `Opening.isSome_body?_of_torn`: bodies read the
  same on both sides of a cut if and only if they are not torn.
* `Mark.read?_append_of_not_torn`, `Mark.isSome_read?_of_torn`: so do marks.
-/

namespace Shortcode

/-- Splitting a text goes on behind its first part where that part holds no separator. -/
theorem Text.splitAt?_append (c : Char) (s u : Text) :
    Text.splitAt? c (s ++ u) =
      match Text.splitAt? c s with
      | some (part, rest) => some (part, rest ++ u)
      | none => (Text.splitAt? c u).map fun (part, rest) => (s ++ part, rest) := by
  induction s with
  | nil => simp [Text.splitAt?]
  | cons d s ih =>
    by_cases hd : d = c
    · simp [Text.splitAt?, hd]
    · simp only [List.cons_append, Text.splitAt?, hd, if_false, ih]
      cases Text.splitAt? c s with
      | none => simp [Function.comp_def]
      | some p => rfl

namespace Opening

/-! ## Where a strict reading stands -/

/-- Where the strict reading of a body stands at the end of the text. -/
inductive Standing
  /-- It has come to its end before. -/
  | settled
  /-- Outside quotes, and not right behind one. -/
  | outside
  /-- Right behind the quote that ends a value. -/
  | closed
  /-- Inside a quoted value. -/
  | inside
  deriving DecidableEq, Repr

/-- Follows the strict reading of a body to the end of the text. -/
def standing (quote : Option Char) (boundary : Bool) : Text → Standing
  | [] => if quote.isSome then .inside else .outside
  | c :: t =>
    match quote with
    | some q =>
      if c = '\\' then
        match t with
        | [] => .inside
        | _ :: t => standing quote boundary t
      else if c = q then
        if t.isEmpty then .closed
        else if endsToken t then standing none boundary t else .settled
      else standing quote boundary t
    | none =>
      if c = ']' then .settled
      else if c = '[' then .settled
      else if boundary && isQuote c then standing (some c) false t
      else standing none (isBlank c || c == '=') t

/-- A strict reading with more text behind what it has left. -/
def Strict.extend (u : Text) : Strict → Strict
  | ends body rest => ends body (rest ++ u)
  | refused => refused
  | unpaired => unpaired

theorem Strict.push_extend (c : Char) (u : Text) (s : Strict) :
    (s.push c).extend u = (s.extend u).push c := by
  cases s <;> rfl

theorem endsToken_cons_append (c : Char) (t u : Text) :
    endsToken (c :: (t ++ u)) = endsToken (c :: t) := rfl

/-- What the strict readings of a cut text and of the whole text, with `u` behind the
    cut, have to do with each other when the reading stands so at the cut. -/
def Standing.Relates (u : Text) : Standing → (cut whole : Strict) → Prop
  | settled, cut, whole => whole = cut.extend u
  | outside, cut, whole => cut = .refused ∧ whole = .refused
  | closed, cut, whole => cut = .refused ∧ whole = .unpaired
  | inside, cut, whole => cut = .unpaired ∧
      ∀ body rest, whole = .ends body rest → rest.length < u.length

theorem Standing.Relates.push {u : Text} {standing : Standing} {cut whole : Strict}
    (h : standing.Relates u cut whole) (c : Char) :
    standing.Relates u (cut.push c) (whole.push c) := by
  cases standing with
  | settled =>
    rw [Relates] at h ⊢
    rw [h, Strict.push_extend]
  | outside =>
    obtain ⟨rfl, rfl⟩ := h
    exact ⟨rfl, rfl⟩
  | closed =>
    obtain ⟨rfl, rfl⟩ := h
    exact ⟨rfl, rfl⟩
  | inside =>
    obtain ⟨rfl, h⟩ := h
    refine ⟨rfl, fun body rest hends => ?_⟩
    cases whole with
    | ends b r =>
      obtain ⟨-, rfl⟩ := Strict.ends.inj hends
      exact h b r rfl
    | refused => exact absurd hends (by simp [Strict.push])
    | unpaired => exact absurd hends (by simp [Strict.push])

theorem length_lt_of_strict {quote : Option Char} {boundary : Bool} {t body rest : Text}
    (h : strict quote boundary t = .ends body rest) : rest.length < t.length := by
  rw [← append_of_strict h, List.length_append, List.length_cons]
  omega

/-- How the strict readings of a cut text and of the whole text are related, where a
    bracket stands behind the cut. -/
theorem relates_strict (quote : Option Char) (boundary : Bool) (t u : Text) :
    (standing quote boundary t).Relates ('[' :: u) (strict quote boundary t)
      (strict quote boundary (t ++ '[' :: u)) := by
  fun_induction standing quote boundary t with
  | case1 quote boundary hq =>
    -- the cut falls into a value, which may go on behind it
    exact ⟨by simp [strict, hq], fun body rest h => length_lt_of_strict h⟩
  | case2 quote boundary hq =>
    have hq : quote = none := by simpa using hq
    subst hq
    exact ⟨rfl, rfl⟩
  | case3 boundary q =>
    -- the backslash in front of the cut protects the bracket behind it
    have h : Standing.inside.Relates u (strict (some q) boundary [])
        (strict (some q) boundary u) := ⟨rfl, fun body rest h => length_lt_of_strict h⟩
    obtain ⟨-, h⟩ := (h.push '[').push '\\'
    refine ⟨rfl, fun body rest hends => ?_⟩
    rw [List.singleton_append, strict_escape] at hends
    exact Nat.lt_succ_of_lt (h body rest hends)
  | case4 boundary q d t ih =>
    rw [List.cons_append, List.cons_append, strict_escape, strict_escape]
    exact (ih.push d).push '\\'
  | case5 boundary t q ht hq =>
    -- the quote ends its value in front of the end of the text, but not of a bracket
    obtain rfl := List.isEmpty_iff.1 ht
    rw [List.singleton_append, strict_quote hq, strict_quote hq]
    exact ⟨rfl, rfl⟩
  | case6 boundary t q ht hend hq ih =>
    -- what stands behind the quote is in front of the cut, so both readings see it
    cases t with
    | nil => exact absurd rfl ht
    | cons c t =>
      rw [List.cons_append, strict_quote hq, strict_quote hq, List.cons_append,
        endsToken_cons_append, if_pos hend, if_pos hend]
      exact ih.push q
  | case7 boundary t q ht hend hq =>
    cases t with
    | nil => exact absurd rfl ht
    | cons c t =>
      rw [List.cons_append, strict_quote hq, strict_quote hq, List.cons_append,
        endsToken_cons_append, if_neg hend, if_neg hend]
      rfl
  | case8 boundary c t q hc hq ih =>
    rw [List.cons_append, strict_inside hc hq, strict_inside hc hq]
    exact ih.push c
  | case9 => simp [strict, Standing.Relates, Strict.extend]
  | case10 => simp [strict, Standing.Relates, Strict.extend]
  | case11 boundary c t h₁ h₂ hq ih => simpa [strict, h₁, h₂, hq] using ih.push c
  | case12 boundary c t h₁ h₂ hq ih => simpa [strict, h₁, h₂, hq] using ih.push c

/-! ## Bodies -/

/-- A lenient reading does not pass the bracket behind a cut. -/
theorem lenient_append (t u : Text) :
    lenient (t ++ '[' :: u) = (lenient t).map fun (body, rest) => (body, rest ++ '[' :: u) := by
  unfold lenient
  rw [Text.splitAt?_append]
  cases Text.splitAt? ']' t with
  | some p =>
    simp only
    split <;> rfl
  | none =>
    cases hu : Text.splitAt? ']' u <;> simp [Text.splitAt?, hu]

/-- The body that a text starts with is torn by a cut with `u` behind it: a lenient
    reading finds its end in front of the cut, and the cut falls right behind a quoted
    value, or into one behind which the whole text is refused. -/
def Torn (t u : Text) : Prop :=
  (lenient t).isSome = true ∧
    (standing none true t = .closed ∨
      standing none true t = .inside ∧ strict none true (t ++ u) = .refused)

instance (t u : Text) : Decidable (Torn t u) :=
  inferInstanceAs (Decidable (_ ∧ _))

/-- A body reads the same on both sides of a cut if the cut falls neither right behind a
    quoted value nor into one, or if the whole text is read leniently there as well. -/
theorem body?_append_of_standing {t u : Text}
    (hclosed : standing none true t = .closed → lenient t = none)
    (hinside : standing none true t = .inside →
      body? (t ++ '[' :: u) = lenient (t ++ '[' :: u)) :
    body? (t ++ '[' :: u) = (body? t).map fun (body, rest) => (body, rest ++ '[' :: u) := by
  have h := relates_strict none true t u
  cases hstanding : standing none true t with
  | settled =>
    rw [hstanding] at h
    unfold body?
    rw [h]
    cases strict none true t with
    | ends body rest => rfl
    | refused => rfl
    | unpaired => exact lenient_append t u
  | outside =>
    rw [hstanding] at h
    simp [body?, h.1, h.2]
  | closed =>
    rw [hstanding] at h
    simp [body?, h.1, h.2, lenient_append, hclosed hstanding]
  | inside =>
    rw [hstanding] at h
    rw [hinside hstanding, lenient_append, body?, h.1]

/-- A body that is not torn reads the same on both sides of a cut, unless it reaches
    over the cut. -/
theorem body?_append_of_not_torn {t u : Text} (htorn : ¬Torn t ('[' :: u))
    (hreach : ∀ body rest, body? (t ++ '[' :: u) = some (body, rest) →
      ('[' :: u).length ≤ rest.length) :
    body? (t ++ '[' :: u) = (body? t).map fun (body, rest) => (body, rest ++ '[' :: u) := by
  refine body?_append_of_standing (fun hclosed => ?_) fun hinside => ?_
  · -- only the whole text is read leniently, and then no reading may end
    rw [← Option.not_isSome_iff_eq_none]
    exact fun hsome => htorn ⟨hsome, .inl hclosed⟩
  · have h := relates_strict none true t u
    rw [hinside] at h
    cases hwhole : strict none true (t ++ '[' :: u) with
    | ends body rest =>
      -- a value that goes on behind the cut would make the body reach over it
      have hle := hreach body rest (by rw [body?, hwhole])
      have hlt := h.2 body rest hwhole
      omega
    | refused =>
      have hlenient : lenient t = none := by
        rw [← Option.not_isSome_iff_eq_none]
        exact fun hsome => htorn ⟨hsome, .inr ⟨hinside, hwhole⟩⟩
      rw [body?, hwhole, lenient_append, hlenient]
      rfl
    | unpaired => rw [body?, hwhole]

/-- A torn body is read on one side of the cut only. -/
theorem isSome_body?_of_torn {t u : Text} (htorn : Torn t ('[' :: u)) :
    (body? (t ++ '[' :: u)).isSome = !(body? t).isSome := by
  have h := relates_strict none true t u
  obtain ⟨hlenient, hstanding | ⟨hstanding, hwhole⟩⟩ := htorn
  · rw [hstanding] at h
    simp [body?, h.1, h.2, lenient_append, hlenient]
  · rw [hstanding] at h
    simp [body?, h.1, hwhole, hlenient]

/-! ## Names -/

/-- A name in front of a cut is a name in the whole text unless the cut ends it. -/
theorem name?_append_eq_some_iff {t u name r : Text} (ht : t ≠ []) :
    name? (t ++ '[' :: u) = some (name, r) ↔
      ∃ rest, rest ≠ [] ∧ name? t = some (name, rest) ∧ r = rest ++ '[' :: u := by
  obtain ⟨c, t, rfl⟩ := List.exists_cons_of_ne_nil ht
  constructor
  · -- the name neither holds the bracket behind the cut nor ends in front of it
    intro h
    obtain ⟨heq, hname, hend⟩ := name?_eq_some_iff.1 h
    rw [List.cons_append, List.cons.injEq] at heq
    obtain ⟨rfl, heq⟩ := heq
    rcases List.append_eq_append_iff.1 heq with ⟨s, rfl, hs⟩ | ⟨s, rfl, rfl⟩
    · cases s with
      | nil =>
        rw [List.nil_append] at hs
        rw [← hs] at hend
        exact absurd hend (by simp [endsToken, isBlank])
      | cons d s =>
        rw [List.cons_append, List.cons.injEq] at hs
        obtain ⟨rfl, -⟩ := hs
        exact absurd (by simp) (bracket_not_mem_of_isTagName hname)
    · cases s with
      | nil => exact absurd hend (by simp [endsToken, isBlank])
      | cons d s => exact ⟨_, by simp, name?_eq_some_iff.2 ⟨rfl, hname, hend⟩, rfl⟩
  · rintro ⟨rest, hne, h, rfl⟩
    obtain ⟨heq, hname, hend⟩ := name?_eq_some_iff.1 h
    refine name?_eq_some_iff.2 ⟨by rw [heq]; simp, hname, ?_⟩
    obtain ⟨d, rest, rfl⟩ := List.exists_cons_of_ne_nil hne
    exact hend

end Opening

/-! ## Marks -/

namespace Mark

/-- A mark of the name that a text starts with is torn by a cut with `u` behind it. -/
def Torn (name t u : Text) : Prop :=
  ∃ body, Opening.name? t = some (name, body) ∧ Opening.Torn body u

/-- A close marker does not reach over a cut. -/
theorem eq_closeMarker_append_iff {name t u r : Text} (hname : '[' ∉ name) (ht : t ≠ []) :
    t ++ '[' :: u = closeMarker name ++ r ↔
      ∃ rest, t = closeMarker name ++ rest ∧ r = rest ++ '[' :: u := by
  constructor
  · intro h
    rcases List.append_eq_append_iff.1 h with ⟨s, hs, hr⟩ | ⟨s, rfl, rfl⟩
    · cases s with
      | nil => exact ⟨[], by simpa using hs.symm, by simpa using hr.symm⟩
      | cons d s =>
        rw [List.cons_append, List.cons.injEq] at hr
        obtain ⟨rfl, -⟩ := hr
        obtain ⟨c, t, rfl⟩ := List.exists_cons_of_ne_nil ht
        simp only [closeMarker, List.cons_append, List.cons.injEq] at hs
        have hmem : '[' ∈ '/' :: (name ++ [']']) := by simp [hs.2]
        simp [hname] at hmem
    · exact ⟨s, rfl, rfl⟩
  · rintro ⟨rest, rfl, rfl⟩
    simp

/-- Where a name stands, a mark of that name is read exactly if a body is. -/
theorem isSome_read?_of_name {name t body : Text} (start : Nat)
    (h : Opening.name? t = some (name, body)) :
    (read? name start t).isSome = (Opening.body? body).isSome := by
  have ho : Opening.read? t =
      (Opening.body? body).map fun (body, rest) => (⟨name, body⟩, rest) := by
    rw [Opening.read?, h]
  rw [read?, Opening.after?_closeMarker_of_name h, ho]
  cases Opening.body? body with
  | none => rfl
  | some p => simp

/-- A mark reads the same on both sides of a cut if the body behind its name does. -/
theorem read?_append_of_body {name t u : Text} {start : Nat} (hname : '[' ∉ name) (ht : t ≠ [])
    (hbody : ∀ body, Opening.name? t = some (name, body) → body ≠ [] →
      Opening.body? (body ++ '[' :: u) =
        (Opening.body? body).map fun (b, rest) => (b, rest ++ '[' :: u)) :
    read? name start (t ++ '[' :: u) =
      (read? name start t).map fun (mark, stop, rest) => (mark, stop, rest ++ '[' :: u) := by
  refine Option.ext fun ⟨mark, stop, r⟩ => ?_
  simp only [Option.map_eq_some_iff, Prod.exists, Prod.mk.injEq]
  constructor
  · intro h
    rcases read?_eq_some_iff.1 h with ⟨heq, hstop, hmark⟩ | ⟨o, ho, rfl, hstop, hmark⟩
    · obtain ⟨rest, rfl, rfl⟩ := (eq_closeMarker_append_iff hname ht).1 heq
      exact ⟨_, _, _, read?_eq_some_iff.2 (.inl ⟨rfl, hstop, hmark⟩), rfl, rfl, rfl⟩
    · obtain ⟨v, hwhole, hb⟩ := Opening.read?_eq_some_iff_name.1 ho
      obtain ⟨body, hne, hn, rfl⟩ := (Opening.name?_append_eq_some_iff ht).1 hwhole
      rw [hbody body hn hne] at hb
      obtain ⟨⟨b, rest⟩, hcut, he⟩ := Option.map_eq_some_iff.1 hb
      obtain ⟨rfl, rfl⟩ := Prod.mk.inj he
      exact ⟨_, _, _, read?_eq_some_iff.2 (.inr ⟨o, Opening.read?_eq_some_iff_name.2
        ⟨body, hn, hcut⟩, rfl, hstop, hmark⟩), rfl, rfl, rfl⟩
  · rintro ⟨_, _, rest, h, rfl, rfl, rfl⟩
    rcases read?_eq_some_iff.1 h with ⟨rfl, hstop, hmark⟩ | ⟨o, ho, rfl, hstop, hmark⟩
    · exact read?_eq_some_iff.2 (.inl ⟨List.append_assoc _ _ _, hstop, hmark⟩)
    · obtain ⟨body, hn, hb⟩ := Opening.read?_eq_some_iff_name.1 ho
      have hne : body ≠ [] := by
        rintro rfl
        exact absurd hb (by simp [Opening.body?, Opening.strict])
      refine read?_eq_some_iff.2 (.inr ⟨o, Opening.read?_eq_some_iff_name.2
        ⟨_, (Opening.name?_append_eq_some_iff ht).2 ⟨body, hne, hn, rfl⟩, ?_⟩, rfl, hstop, hmark⟩)
      rw [hbody body hn hne, hb]
      rfl

/-- A mark that is not torn reads the same on both sides of a cut, unless it reaches
    over the cut. -/
theorem read?_append_of_not_torn {name t u : Text} {start : Nat} (hname : '[' ∉ name)
    (ht : t ≠ []) (htorn : ¬Torn name t ('[' :: u))
    (hreach : ∀ mark stop rest, read? name start (t ++ '[' :: u) = some (mark, stop, rest) →
      ('[' :: u).length ≤ rest.length) :
    read? name start (t ++ '[' :: u) =
      (read? name start t).map fun (mark, stop, rest) => (mark, stop, rest ++ '[' :: u) := by
  -- the body behind the name is not torn, and does not reach over the cut
  refine read?_append_of_body hname ht fun body hb hne => ?_
  have hn := (Opening.name?_append_eq_some_iff (u := u) ht).2 ⟨body, hne, hb, rfl⟩
  refine Opening.body?_append_of_not_torn (fun h => htorn ⟨body, hb, h⟩) fun b rest h => ?_
  exact hreach _ _ _ (read?_eq_some_iff.2
    (.inr ⟨⟨name, b⟩, Opening.read?_eq_some_iff_name.2 ⟨_, hn, h⟩, rfl, rfl, rfl⟩))

/-- A torn mark is read on one side of the cut only. -/
theorem isSome_read?_of_torn {name t u : Text} {start : Nat}
    (ht : t ≠ []) (htorn : Torn name t ('[' :: u)) :
    (read? name start (t ++ '[' :: u)).isSome = !(read? name start t).isSome := by
  obtain ⟨body, hn, hb⟩ := htorn
  have hne : body ≠ [] := by
    rintro rfl
    exact absurd hb.1 (by decide)
  have hn' := (Opening.name?_append_eq_some_iff (u := u) ht).2 ⟨body, hne, hn, rfl⟩
  rw [isSome_read?_of_name start hn', isSome_read?_of_name start hn,
    Opening.isSome_body?_of_torn hb]

end Mark

end Shortcode
