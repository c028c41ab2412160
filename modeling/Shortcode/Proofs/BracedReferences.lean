import Mathlib.Data.List.Basic
import Shortcode.Config.Environment

/-!
# References in braces alone

A setting is a row of references in braces and of characters that stand for themselves. With
only the former replaced, every `$` that no brace follows is kept. The replacement does more in
a setting that holds a `${`: a `$` in front of a name is a reference as well there, and one in
front of another `$` is dropped. So it keeps to the braces exactly if no `$` outside of a
reference in braces stands in front of such a character: before the first one that does, the
two readings agree, and from there on they differ wherever all variables are set to `x`.

* `segments`: a setting cut into references in braces and single characters.
* `replace_eq_replaceBraced`: where no dollar is bare, both readings agree.
* `replace_ne_replaceBraced`: behind a dollar that was dropped, they never meet again.
* `braces_alone_expand_iff`: when only references in braces are replaced.
-/

namespace Shortcode.Environment

/-- A part of a setting: a character that stands for itself, or a reference, with what is
    written between its braces. -/
inductive Segment
  | plain (c : Char)
  | reference (inner : Text)
  deriving DecidableEq, Repr

namespace Segment

/-- The segment as written. -/
def source : Segment → Text
  | plain c => [c]
  | reference inner => '$' :: '\x7b' :: (inner ++ ['\x7d'])

/-- What a segment stands for. -/
def value (env : Environment) : Segment → Except UnsetVariable Text
  | plain c => .ok [c]
  | reference inner =>
    env.value (Environment.reference inner).1 (Environment.reference inner).2

end Segment

/-- The segments of a setting. A reference ends at the first `}` behind it; without one its
    characters stand for themselves. -/
def segments (t : Text) : List Segment :=
  match t with
  | [] => []
  | '$' :: '\x7b' :: r =>
    match _h : Text.splitAt? '\x7d' r with
    | some (inner, rest) => .reference inner :: segments rest
    | none => .plain '$' :: segments ('\x7b' :: r)
  | c :: r => .plain c :: segments r
termination_by t.length
decreasing_by
  · have := Text.length_of_splitAt _h
    simp only [List.length_cons]
    omega
  · simp
  · simp

/-- The segments make up the setting. -/
theorem flatMap_source_segments (t : Text) : (segments t).flatMap Segment.source = t := by
  fun_induction segments t with
  | case1 => rfl
  | case2 r inner rest h ih =>
    rw [List.flatMap_cons, ih, (Text.splitAt?_eq_some_iff.1 h).1]
    simp [Segment.source]
  | case3 r h ih =>
    rw [List.flatMap_cons, ih]
    rfl
  | case4 c r hne ih =>
    rw [List.flatMap_cons, ih]
    rfl

/-- A setting with its references in braces replaced, and all else as it is. -/
def replaceBraced (env : Environment) (t : Text) : Except UnsetVariable Text := do
  let values ← (segments t).mapM (Segment.value env)
  pure values.flatten

/-- Whether a `$` in front of a text would be read as a reference without braces, or be dropped
    for a second one. -/
def opensBare : Text → Bool
  | [] => false
  | c :: _ => c == '$' || isNameChar c

/-- Whether some `$` that stands for itself is followed by a name or by another `$`. -/
def bareDollar : List Segment → Bool
  | [] => false
  | s :: later =>
    (s == .plain '$' && opensBare (later.flatMap Segment.source)) || bareDollar later

variable {env : Environment} {t r : Text}

/-! ## Segment by segment -/

theorem segments_of_split {inner rest : Text} (h : Text.splitAt? '\x7d' r = some (inner, rest)) :
    segments ('$' :: '\x7b' :: r) = .reference inner :: segments rest := by
  rw [segments]
  split
  next heq =>
    obtain ⟨rfl, rfl⟩ := Prod.mk.inj (Option.some.inj (h.symm.trans heq))
    rfl
  next heq => exact absurd (h.symm.trans heq) (by simp)

/-- A character that begins no reference in braces stands for itself. -/
theorem segments_of_plain {c : Char} (h : c = '$' → ∀ u, r = '\x7b' :: u → '\x7d' ∉ u) :
    segments (c :: r) = .plain c :: segments r := by
  rw [segments.eq_def]
  split
  next heq => exact absurd heq (by simp)
  next u heq =>
    obtain ⟨rfl, rfl⟩ := List.cons.inj heq
    split
    next inner rest hsplit =>
      have hmem : '\x7d' ∈ u := by
        rw [(Text.splitAt?_eq_some_iff.1 hsplit).1]
        exact List.mem_append_right _ List.mem_cons_self
      exact absurd hmem (h rfl u rfl)
    next => rfl
  next heq =>
    obtain ⟨rfl, rfl⟩ := List.cons.inj heq
    rfl

theorem segments_of_dollar (h : ∀ u, r ≠ '\x7b' :: u) :
    segments ('$' :: r) = .plain '$' :: segments r :=
  segments_of_plain fun _ u heq => absurd heq (h u)

/-- A `$` and a brace that no other one closes stand for themselves. -/
theorem segments_of_unclosed (h : Text.splitAt? '\x7d' r = none) :
    segments ('$' :: '\x7b' :: r) = .plain '$' :: segments ('\x7b' :: r) ∧
      segments ('\x7b' :: r) = .plain '\x7b' :: segments r := by
  refine ⟨segments_of_plain fun _ u heq => ?_, segments_of_plain fun heq => ?_⟩
  · rw [← (List.cons.inj heq).2]
    exact Text.splitAt?_eq_none_iff.1 h
  · exact absurd heq (by decide)

theorem replaceBraced_nil : env.replaceBraced [] = .ok [] := by
  rw [replaceBraced, segments]
  rfl

/-- The first segment is replaced in front of the others. -/
theorem replaceBraced_of_segments {s : Segment} (h : segments t = s :: segments r) :
    env.replaceBraced t = (do
      let value ← s.value env
      let others ← env.replaceBraced r
      pure (value ++ others)) := by
  rw [replaceBraced, replaceBraced, h, List.mapM_cons]
  cases s.value env with
  | error unset => rfl
  | ok value => cases (segments r).mapM (Segment.value env) <;> rfl

theorem replaceBraced_of_plain {c : Char} (h : segments (c :: r) = .plain c :: segments r) :
    env.replaceBraced (c :: r) = (env.replaceBraced r).map (c :: ·) := by
  rw [replaceBraced_of_segments h]
  cases env.replaceBraced r <;> rfl

theorem replaceBraced_of_unclosed (h : Text.splitAt? '\x7d' r = none) :
    env.replaceBraced ('$' :: '\x7b' :: r) =
      (env.replaceBraced r).map ('$' :: '\x7b' :: ·) := by
  obtain ⟨hdollar, hbrace⟩ := segments_of_unclosed h
  rw [replaceBraced_of_plain hdollar, replaceBraced_of_plain hbrace]
  cases env.replaceBraced r <;> rfl

theorem bareDollar_of_segments {s : Segment} (h : segments t = s :: segments r) :
    bareDollar (segments t) = ((s == .plain '$' && opensBare r) || bareDollar (segments r)) := by
  rw [h, bareDollar, flatMap_source_segments]

theorem isNameChar_brace : isNameChar '\x7b' = false := by
  decide +kernel

theorem bareDollar_of_unclosed (h : Text.splitAt? '\x7d' r = none) :
    bareDollar (segments ('$' :: '\x7b' :: r)) = bareDollar (segments r) := by
  obtain ⟨hdollar, hbrace⟩ := segments_of_unclosed h
  have hopens : opensBare ('\x7b' :: r) = false := by simp [opensBare, isNameChar_brace]
  rw [bareDollar_of_segments hdollar, bareDollar_of_segments hbrace, hopens]
  rfl

/-! ## Settings without a bare dollar -/

/-- Where no dollar is bare, what is replaced are the references in braces. -/
theorem replace_eq_replaceBraced (h : bareDollar (segments t) = false) :
    env.replace t = env.replaceBraced t := by
  fun_induction replace env t with
  | case1 => exact replaceBraced_nil.symm
  | case2 r inner rest hsplit name fallback hreference ih =>
    have hsegments := segments_of_split hsplit
    rw [bareDollar_of_segments hsegments, Bool.or_eq_false_iff] at h
    rw [replaceBraced_of_segments hsegments, ih h.2, Segment.value, hreference]
  | case3 r hsplit ih =>
    rw [bareDollar_of_unclosed hsplit] at h
    rw [replaceBraced_of_unclosed hsplit, ih h]
  | case4 r ih =>
    have hdollar := segments_of_dollar (r := '$' :: r) (by simp)
    rw [bareDollar_of_segments hdollar] at h
    exact absurd h (by simp [opensBare])
  | case5 c r hbrace _ hname ih =>
    have hdollar := segments_of_dollar (r := c :: r) fun u heq => hbrace (List.cons.inj heq).1
    rw [bareDollar_of_segments hdollar] at h
    exact absurd h (by simp [opensBare, hname])
  | case6 c r hbrace _ _ ih =>
    have hdollar := segments_of_dollar (r := c :: r) fun u heq => hbrace (List.cons.inj heq).1
    rw [bareDollar_of_segments hdollar, Bool.or_eq_false_iff] at h
    rw [replaceBraced_of_plain hdollar, ih h.2]
  | case7 c r hreference _ _ ih =>
    have hplain := segments_of_plain (c := c) (r := r)
      fun hc u heq => absurd heq fun heq => hreference u hc heq
    rw [bareDollar_of_segments hplain, Bool.or_eq_false_iff] at h
    rw [replaceBraced_of_plain hplain, ih h.2]

/-- A setting without a reference in braces is a row of plain characters. -/
theorem replaceBraced_of_not_includes (h : Text.includes "$\x7b".toList t = false) :
    env.replaceBraced t = .ok t := by
  induction t with
  | nil => exact replaceBraced_nil
  | cons c t ih =>
    rw [Text.includes, Bool.or_eq_false_iff] at h
    have hplain : segments (c :: t) = .plain c :: segments t := by
      refine segments_of_plain ?_
      rintro rfl u rfl
      exact absurd h.1 (by simp [Text.startsWith, Text.after?])
    rw [replaceBraced_of_plain hplain, ih h.2]
    rfl

/-- Where no dollar is bare, or the setting holds no `${`, it expands by its references in braces,
    and fails where one of them does. -/
theorem expand_eq_replaceBraced
    (h : Text.includes "$\x7b".toList t = false ∨ bareDollar (segments t) = false) :
    env.expand t = env.replaceBraced t := by
  by_cases hincludes : Text.includes "$\x7b".toList t = true
  · rw [expand, if_pos hincludes]
    exact replace_eq_replaceBraced (h.resolve_left (by rw [hincludes]; decide))
  · rw [Bool.not_eq_true] at hincludes
    rw [expand_of_not_includes env hincludes, replaceBraced_of_not_includes hincludes]

/-! ## Settings with a bare dollar -/

/-- All variables have the same value. -/
def constant (v : Text) : Environment :=
  fun _ => some v

theorem value_constant (v name : Text) (fallback : Option Text) :
    (constant v).value name fallback = .ok v := rfl

/-- Where all variables are set, no replacement fails. -/
theorem exists_replace_constant (v t : Text) : ∃ out, (constant v).replace t = .ok out := by
  fun_induction replace (constant v) t with
  | case1 => exact ⟨[], rfl⟩
  | case2 r inner rest hsplit name fallback hreference ih =>
    obtain ⟨out, hout⟩ := ih
    exact ⟨v ++ out, by rw [value_constant, hout]; rfl⟩
  | case3 r hsplit ih =>
    obtain ⟨out, hout⟩ := ih
    exact ⟨'$' :: '\x7b' :: out, by rw [hout]; rfl⟩
  | case4 r ih =>
    obtain ⟨out, hout⟩ := ih
    exact ⟨'$' :: out, by rw [hout]; rfl⟩
  | case5 c r _ _ _ ih =>
    obtain ⟨out, hout⟩ := ih
    exact ⟨v ++ out, by rw [value_constant, hout]; rfl⟩
  | case6 c r _ _ _ ih =>
    obtain ⟨out, hout⟩ := ih
    exact ⟨'$' :: out, by rw [hout]; rfl⟩
  | case7 c r _ _ _ ih =>
    obtain ⟨out, hout⟩ := ih
    exact ⟨c :: out, by rw [hout]; rfl⟩

theorem map_eq_ok_iff {f : Text → Text} {x : Except UnsetVariable Text} {out : Text} :
    x.map f = .ok out ↔ ∃ rest, x = .ok rest ∧ f rest = out := by
  cases x <;> simp [Except.map]

/-- A reference in front of the rest of a text, where all variables have one value. -/
theorem value_constant_append_eq_ok_iff {v name out : Text} {fallback : Option Text}
    {x : Except UnsetVariable Text} :
    (do
      let value ← (constant v).value name fallback
      let others ← x
      pure (value ++ others)) = .ok out ↔ ∃ others, x = .ok others ∧ v ++ others = out :=
  map_eq_ok_iff

/-- A `$` in front of another one stands for itself. -/
theorem replaceBraced_dollars (env : Environment) (k : Nat) (t : Text) :
    env.replaceBraced (List.replicate (k + 1) '$' ++ '$' :: t) =
      (env.replaceBraced (List.replicate (k + 1) '$' ++ t)).map ('$' :: ·) := by
  have hshift : List.replicate (k + 1) '$' ++ '$' :: t =
      '$' :: (List.replicate (k + 1) '$' ++ t) := by
    rw [List.append_cons, ← List.replicate_succ', List.replicate_succ, List.cons_append]
  rw [hshift]
  exact replaceBraced_of_plain (segments_of_dollar (by simp [List.replicate_succ]))

theorem of_replaceBraced_dollars {k : Nat} {out : Text}
    (h : env.replaceBraced (List.replicate (k + 1) '$' ++ '$' :: t) = .ok ('$' :: out)) :
    env.replaceBraced (List.replicate (k + 1) '$' ++ t) = .ok out := by
  rw [replaceBraced_dollars, map_eq_ok_iff] at h
  obtain ⟨rest, h, heq⟩ := h
  rw [h, (List.cons.inj heq).2]

section Constant

variable {out : Text}

/-- With braces alone, what a text becomes that begins with dollars begins with one too, or
    with the value of a variable, if the last of them begins a reference. -/
theorem head?_replaceBraced_dollars {k : Nat}
    (h : (constant ['x']).replaceBraced (List.replicate (k + 1) '$' ++ t) = .ok out) :
    out.head? = some '$' ∨ t.head? = some '\x7b' ∧ out.head? = some 'x' := by
  rw [List.replicate_succ, List.cons_append] at h
  by_cases hreference : ∃ u, List.replicate k '$' ++ t = '\x7b' :: u ∧ '\x7d' ∈ u
  · obtain ⟨u, hu, hmem⟩ := hreference
    right
    -- the brace is no dollar, so it is the first character behind them
    have ht : t = '\x7b' :: u := by
      cases k with
      | zero => exact hu
      | succ k =>
        rw [List.replicate_succ, List.cons_append] at hu
        exact absurd (List.cons.inj hu).1 (by decide)
    obtain ⟨⟨inner, rest⟩, hsplit⟩ := Option.ne_none_iff_exists'.1
      fun hnone => absurd hmem (Text.splitAt?_eq_none_iff.1 hnone)
    rw [hu, replaceBraced_of_segments (segments_of_split hsplit), Segment.value] at h
    obtain ⟨others, -, rfl⟩ := value_constant_append_eq_ok_iff.1 h
    exact ⟨by rw [ht]; rfl, rfl⟩
  · left
    have hplain := segments_of_plain (c := '$') (r := List.replicate k '$' ++ t)
      fun _ u hu hmem => hreference ⟨u, hu, hmem⟩
    rw [replaceBraced_of_plain hplain, map_eq_ok_iff] at h
    obtain ⟨others, -, rfl⟩ := h
    rfl

/-- Behind a dollar that was dropped, the two readings never meet again: with braces alone there
    is one dollar more to come, and the first character that is no dollar tells them apart. -/
theorem replace_ne_replaceBraced (k : Nat) (h : (constant ['x']).replace t = .ok out) :
    (constant ['x']).replaceBraced (List.replicate (k + 1) '$' ++ t) ≠ .ok out := by
  intro hbraced
  have hhead := head?_replaceBraced_dollars hbraced
  fun_induction replace (constant ['x']) t generalizing k out with
  | case1 =>
    obtain rfl := Except.ok.inj h
    exact absurd hhead (by simp)
  | case2 r inner rest hsplit name fallback hreference ih =>
    obtain ⟨others, -, rfl⟩ := value_constant_append_eq_ok_iff.1 h
    exact absurd hhead (by simp)
  | case3 r hsplit ih =>
    obtain ⟨others, hothers, rfl⟩ := map_eq_ok_iff.1 h
    have hnext := head?_replaceBraced_dollars (of_replaceBraced_dollars hbraced)
    exact absurd hnext (by simp)
  | case4 r ih =>
    obtain ⟨others, hothers, rfl⟩ := map_eq_ok_iff.1 h
    have hnext := of_replaceBraced_dollars hbraced
    rw [List.append_cons, ← List.replicate_succ'] at hnext
    exact ih (k + 1) hothers hnext (head?_replaceBraced_dollars hnext)
  | case5 c r _ _ _ ih =>
    obtain ⟨others, -, rfl⟩ := value_constant_append_eq_ok_iff.1 h
    exact absurd hhead (by simp)
  | case6 c r _ _ _ ih =>
    obtain ⟨others, hothers, rfl⟩ := map_eq_ok_iff.1 h
    have hnext := of_replaceBraced_dollars hbraced
    exact ih k hothers hnext (head?_replaceBraced_dollars hnext)
  | case7 c r _ _ hlast ih =>
    obtain ⟨others, hothers, rfl⟩ := map_eq_ok_iff.1 h
    by_cases hc : c = '$'
    · subst hc
      have hnext := of_replaceBraced_dollars hbraced
      exact ih k hothers hnext (head?_replaceBraced_dollars hnext)
    · simp only [List.head?_cons, Option.some.injEq] at hhead
      rcases hhead with rfl | ⟨rfl, hx⟩
      · exact hc rfl
      · exact absurd hx (by decide)

/-- Where a dollar is bare, the two readings differ if every variable is set to `x`. -/
theorem ne_of_bareDollar (hbare : bareDollar (segments t) = true)
    (h : (constant ['x']).replace t = .ok out) : (constant ['x']).replaceBraced t ≠ .ok out := by
  intro hbraced
  fun_induction replace (constant ['x']) t generalizing out with
  | case1 =>
    rw [segments] at hbare
    exact absurd hbare (by decide)
  | case2 r inner rest hsplit name fallback hreference ih =>
    have hsegments := segments_of_split hsplit
    rw [bareDollar_of_segments hsegments] at hbare
    rw [replaceBraced_of_segments hsegments, Segment.value] at hbraced
    obtain ⟨others, hothers, rfl⟩ := value_constant_append_eq_ok_iff.1 h
    obtain ⟨others', hothers', heq⟩ := value_constant_append_eq_ok_iff.1 hbraced
    exact ih (by simpa using hbare) hothers (List.append_cancel_left heq ▸ hothers')
  | case3 r hsplit ih =>
    rw [bareDollar_of_unclosed hsplit] at hbare
    rw [replaceBraced_of_unclosed hsplit] at hbraced
    obtain ⟨others, hothers, rfl⟩ := map_eq_ok_iff.1 h
    obtain ⟨others', hothers', heq⟩ := map_eq_ok_iff.1 hbraced
    exact ih hbare hothers ((List.cons.inj (List.cons.inj heq).2).2 ▸ hothers')
  | case4 r ih =>
    obtain ⟨others, hothers, rfl⟩ := map_eq_ok_iff.1 h
    have hdollar := segments_of_dollar (r := '$' :: r) (by simp)
    rw [replaceBraced_of_plain hdollar, map_eq_ok_iff] at hbraced
    obtain ⟨others', hbraced, heq⟩ := hbraced
    obtain rfl := (List.cons.inj heq).2
    exact replace_ne_replaceBraced 0 hothers hbraced
  | case5 c r hbrace _ _ ih =>
    obtain ⟨others, -, rfl⟩ := value_constant_append_eq_ok_iff.1 h
    have hhead := head?_replaceBraced_dollars (k := 0) (t := c :: r) hbraced
    rcases hhead with hhead | ⟨hhead, -⟩
    · exact absurd hhead (by simp)
    · exact hbrace (Option.some.inj hhead)
  | case6 c r hbrace hsecond hname ih =>
    have hdollar := segments_of_dollar (r := c :: r) fun u heq => hbrace (List.cons.inj heq).1
    have hopens : opensBare (c :: r) = false := by simpa [opensBare, hname] using hsecond
    rw [bareDollar_of_segments hdollar, hopens] at hbare
    rw [replaceBraced_of_plain hdollar] at hbraced
    obtain ⟨others, hothers, rfl⟩ := map_eq_ok_iff.1 h
    obtain ⟨others', hothers', heq⟩ := map_eq_ok_iff.1 hbraced
    exact ih (by simpa using hbare) hothers ((List.cons.inj heq).2 ▸ hothers')
  | case7 c r hreference _ hlast ih =>
    have hplain := segments_of_plain (c := c) (r := r)
      fun hc u heq => absurd heq fun heq => hreference u hc heq
    have hopens : (Segment.plain c == .plain '$' && opensBare r) = false := by
      cases r with
      | nil => simp [opensBare]
      | cons d r => simpa using fun hc => absurd rfl (hlast d r hc)
    rw [bareDollar_of_segments hplain, hopens] at hbare
    rw [replaceBraced_of_plain hplain] at hbraced
    obtain ⟨others, hothers, rfl⟩ := map_eq_ok_iff.1 h
    obtain ⟨others', hothers', heq⟩ := map_eq_ok_iff.1 hbraced
    exact ih (by simpa using hbare) hothers ((List.cons.inj heq).2 ▸ hothers')

end Constant

/-! ## References in braces alone -/

/-- What is replaced in a setting, in any environment where that does not fail, are its
    references in braces and nothing else, if and only if the setting holds no `${` or no bare
    dollar. Where it fails, the setting is left as it was. -/
theorem braces_alone_expand_iff (t : Text) :
    ((∀ (env : Environment) t', env.runInPlace t = (.ok (), t') → env.replaceBraced t = .ok t') ↔
      Text.includes "$\x7b".toList t = false ∨ bareDollar (segments t) = false) ∧
    ∀ (env : Environment) unset t', env.runInPlace t = (.error unset, t') → t' = t := by
  have hok {env : Environment} {t' : Text} :
      env.runInPlace t = (.ok (), t') ↔ env.expand t = .ok t' := by
    rw [runInPlace_eq]
    cases env.expand t <;> simp
  refine ⟨⟨fun h => ?_, fun h env t' hrun => ?_⟩, fun env unset t' hrun => ?_⟩
  · rw [or_iff_not_imp_left, Bool.not_eq_false]
    intro hincludes
    by_contra hbare
    obtain ⟨out, hout⟩ := exists_replace_constant ['x'] t
    have hexpand : (constant ['x']).expand t = .ok out := by rw [expand, if_pos hincludes, hout]
    exact ne_of_bareDollar (Bool.not_eq_false _ ▸ hbare) hout (h _ _ (hok.2 hexpand))
  · rw [← expand_eq_replaceBraced h]
    exact hok.1 hrun
  · rw [runInPlace_eq] at hrun
    cases hexpand : env.expand t with
    | ok expanded => simp [hexpand] at hrun
    | error e =>
      rw [hexpand] at hrun
      exact (congrArg Prod.snd hrun).symm

/-- Dollars in front of a slash, of a brace that is not closed and at the end are kept beside a
    variable that is set and one that is not. -/
theorem braces_alone_expand_slash :
    let env : Environment := fun name => if name = "HOST".toList then some "h".toList else none
    let t := "$/$\x7bHOST\x7d:$\x7bPORT:-80\x7d$\x7b$".toList
    (Text.includes "$\x7b".toList t = false ∨ bareDollar (segments t) = false) ∧
      env.runInPlace t = (.ok (), "$/h:80$\x7b$".toList) ∧
      env.replaceBraced t = .ok "$/h:80$\x7b$".toList := by
  intro env t
  have hcondition : Text.includes "$\x7b".toList t = false ∨ bareDollar (segments t) = false := by
    decide +kernel
  have hrun : env.runInPlace t = (.ok (), "$/h:80$\x7b$".toList) := by
    decide +kernel
  exact ⟨hcondition, hrun, (braces_alone_expand_iff t).1.2 hcondition env _ hrun⟩

/-- Beside a reference in braces, a `$` in front of a name is a reference too. -/
theorem braces_not_alone_path :
    let env : Environment := fun name =>
      if name = "SC_HOST".toList then some "h".toList
      else if name = "SC_PATH".toList then some "p".toList else none
    let t := "https://$\x7bSC_HOST\x7d/$SC_PATH".toList
    env.runInPlace t = (.ok (), "https://h/p".toList) ∧
      env.replaceBraced t = .ok "https://h/$SC_PATH".toList ∧
      ¬ ∀ t', env.runInPlace t = (.ok (), t') → env.replaceBraced t = .ok t' := by
  intro env t
  have hrun : env.runInPlace t = (.ok (), "https://h/p".toList) := by decide +kernel
  have hbraced : env.replaceBraced t = .ok "https://h/$SC_PATH".toList := by decide +kernel
  refine ⟨hrun, hbraced, fun h => ?_⟩
  exact absurd (Except.ok.inj (hbraced.symm.trans (h _ hrun))) (by decide)

end Shortcode.Environment
