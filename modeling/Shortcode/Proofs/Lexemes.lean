import Shortcode.Proofs.AttributeValues

/-!
# Lexemes of an attribute text

The parser of attributes returns tokens, and forgets where in the text it has found them and
how they were written. A *lexeme* is a token with the text it was read from: the front, which is
made of blanks, a key and a `=`, and the value as written. Whether a value is quoted is decided
by its first character.

The parser looks ahead for the `=` of a key and for the quote behind a `=`, past blanks. So a
value does not always start where one would look for it first; but once that place is known
(`AttrToken.fromValue`), the value is read like a value without a key.

* `AttrToken.lexemes`: the lexemes of a text.
* `AttrToken.map_token_lexemes`: their tokens are those that the parser returns.
* `AttrToken.flatMap_source_lexemes`: they make up the text.
* `Lexeme.Stands`: what is known of a lexeme, whatever stands behind it.
-/

namespace Shortcode

/-- The start of the text `t` that leaves `rest`. -/
def Text.upTo (rest t : Text) : Text :=
  t.take (t.length - rest.length)

theorem Text.upTo_append (s rest : Text) : Text.upTo rest (s ++ rest) = s := by
  rw [Text.upTo, List.length_append, Nat.add_sub_cancel, List.take_left']
  rfl

/-! ## Lexemes -/

/-- A token as it is written in an attribute text. -/
structure Lexeme where
  /-- What stands in front of the value: blanks, and the key of a named token with its `=`. -/
  front : Text
  /-- The value as written, with its quotes if it has any. -/
  value : Text
  token : AttrToken
  deriving DecidableEq, Repr

namespace Lexeme

/-- The characters of a lexeme. -/
def source (l : Lexeme) : Text :=
  l.front ++ l.value

/-- Whether the value is in quotes. -/
def isQuoted (l : Lexeme) : Bool :=
  l.value.head?.any isQuote

/-- For each character of a lexeme, whether it is one of a value in quotes. -/
def mask (l : Lexeme) : List Bool :=
  List.replicate l.front.length false ++ List.replicate l.value.length l.isQuoted

end Lexeme

namespace AttrToken

/-- A value behind a `=` starts behind the blanks there if it is in quotes. -/
def afterEquals (t : Text) : Text :=
  if (Text.trimStart t).head?.any isQuote then Text.trimStart t else t

/-- What is left of a token from its value on, with all that stands behind. -/
def fromValue (t : Text) : Text :=
  if (t.takeWhile isKeyChar).isEmpty then t
  else match Text.trimStart (t.dropWhile isKeyChar) with
    | '=' :: r => afterEquals r
    | _ => t

/-- The tokens of an attribute text as they are written. -/
def lexemes (t : Text) : List Lexeme :=
  match _h : Text.trimStart t with
  | [] => []
  | c :: r =>
    let v := fromValue (c :: r)
    let rest := (read (c :: r)).2
    ⟨Text.upTo v t, Text.upTo rest v, (read (c :: r)).1⟩ :: lexemes rest
termination_by t.length
decreasing_by
  have h1 := length_token_lt (t := r) (isBlank_head_trimStart _h)
  have h2 := Text.length_trimStart_le t
  rw [_h] at h2
  omega

/-- In front of a blank there is no bare value. -/
theorem value_of_isBlank {c : Char} (h : isBlank c = true) (t : Text) :
    value (c :: t) = ([], c :: t) := by
  simp [value, bare, h, not_isQuote_of_isBlank h]

/-- A value behind a `=` is read like a value without a key. -/
theorem assigned_eq_value (t : Text) : assigned t = value (afterEquals t) := by
  unfold assigned afterEquals
  split
  next c rest h =>
    rw [h, List.head?_cons, Option.any_some]
    split
    next hq => rw [value, if_pos hq]
    next hq =>
      split
      · rfl
      next d t =>
        split
        next hd => rw [value_of_isBlank hd]
        next hd =>
          rw [Text.trimStart_eq_self (Bool.not_eq_true _ ▸ hd)] at h
          obtain ⟨rfl, -⟩ := List.cons.inj h
          rw [value, if_neg hq]
  next h =>
    rw [h]
    cases t with
    | nil => rfl
    | cons d t =>
      have hd : isBlank d = true := Text.trimStart_eq_nil_iff.1 h d List.mem_cons_self
      exact (value_of_isBlank hd t).symm

/-- A token has no key, or a key, blanks and a `=` in front of its value. -/
theorem named?_cases (t : Text) :
    named? t = none ∧ fromValue t = t ∨
      ∃ key blanks r, t = key ++ (blanks ++ '=' :: r) ∧ (∀ c ∈ key, isKeyChar c = true) ∧
        IsBlank blanks ∧ fromValue t = afterEquals r ∧
        named? t = some (named key (value (afterEquals r)).1, (value (afterEquals r)).2) := by
  by_cases hkey : (t.takeWhile isKeyChar).isEmpty = true
  · refine .inl ⟨?_, by rw [fromValue, if_pos hkey]⟩
    rw [named?]
    exact if_pos hkey
  by_cases heq : ∃ r, Text.trimStart (t.dropWhile isKeyChar) = '=' :: r
  · obtain ⟨r, heq⟩ := heq
    refine .inr ⟨t.takeWhile isKeyChar, (t.dropWhile isKeyChar).takeWhile isBlank, r, ?_,
      fun c hc => List.mem_takeWhile_imp hc, Text.isBlank_takeWhile _, ?_, ?_⟩
    · rw [← heq, Text.takeWhile_append_trimStart, List.takeWhile_append_dropWhile]
    · rw [fromValue, if_neg hkey, heq]
      rfl
    · rw [named?, heq, ← assigned_eq_value]
      exact if_neg hkey
  · refine .inl ⟨?_, ?_⟩
    · rw [named?]
      refine (if_neg hkey).trans ?_
      split
      next r h => exact absurd ⟨r, h⟩ heq
      · rfl
    · rw [fromValue, if_neg hkey]
      split
      next r h => exact absurd ⟨r, h⟩ heq
      · rfl

/-- The value of a token is read where it starts. -/
theorem read_eq_value (t : Text) :
    (read t).1.text = (value (fromValue t)).1 ∧ (read t).2 = (value (fromValue t)).2 := by
  rcases named?_cases t with ⟨hnone, hfrom⟩ | ⟨key, blanks, r, -, -, -, hfrom, hsome⟩
  · rw [read, hnone, hfrom]
    exact ⟨rfl, rfl⟩
  · rw [read, hsome, hfrom]
    exact ⟨rfl, rfl⟩

/-- Behind a `=` a value starts at once or behind blanks. -/
theorem exists_afterEquals (t : Text) :
    ∃ blanks, t = blanks ++ afterEquals t ∧ IsBlank blanks := by
  unfold afterEquals
  split
  · exact ⟨_, (Text.takeWhile_append_trimStart t).symm, Text.isBlank_takeWhile t⟩
  · exact ⟨[], rfl, fun c hc => absurd hc List.not_mem_nil⟩

/-- In front of a value stand a key, blanks and a `=`, and a value may start behind them. -/
theorem exists_front (t : Text) :
    ∃ front, t = front ++ fromValue t ∧
      (∀ c ∈ front, isKeyChar c = true ∨ isBlank c = true ∨ c = '=') ∧
      ∀ c ∈ front.getLast?, isBlank c = true ∨ c = '=' := by
  rcases named?_cases t with ⟨-, hfrom⟩ | ⟨key, blanks, r, ht, hkey, hblanks, hfrom, -⟩
  · exact ⟨[], hfrom.symm, fun c hc => absurd hc List.not_mem_nil, fun c hc => absurd hc (by simp)⟩
  · obtain ⟨behind, hr, hbehind⟩ := exists_afterEquals r
    refine ⟨key ++ (blanks ++ '=' :: behind), ?_, fun c hc => ?_, fun c hc => ?_⟩
    · rw [hfrom, List.append_assoc, List.append_assoc, List.cons_append, ← hr, ← ht]
    · simp only [List.mem_append, List.mem_cons] at hc
      rcases hc with hc | hc | rfl | hc
      · exact .inl (hkey c hc)
      · exact .inr (.inl (hblanks c hc))
      · exact .inr (.inr rfl)
      · exact .inr (.inl (hbehind c hc))
    · rw [← List.append_assoc, List.getLast?_append_cons] at hc
      rcases List.mem_cons.1 (List.mem_of_getLast? hc) with rfl | hc
      · exact .inr rfl
      · exact .inl (hbehind c hc)

/-- A value and what stands behind it make up the text they are read from. -/
theorem exists_value (t : Text) : ∃ v, t = v ++ (value t).2 := by
  have hquoted (q : Char) (t : Text) : ∃ v, t = v ++ (quoted q t).2 := by
    fun_induction quoted q t with
    | case1 => exact ⟨[], rfl⟩
    | case2 c t v r h hc ih =>
      obtain ⟨v, hv⟩ := ih
      rw [h] at hv
      exact ⟨'\\' :: c :: v, congrArg ('\\' :: c :: ·) hv⟩
    | case3 c t v r h hc ih =>
      obtain ⟨v, hv⟩ := ih
      rw [h] at hv
      exact ⟨'\\' :: c :: v, congrArg ('\\' :: c :: ·) hv⟩
    | case4 c t => exact ⟨[q], rfl⟩
    | case5 c t _ hc v r h ih =>
      obtain ⟨v, hv⟩ := ih
      rw [h] at hv
      exact ⟨c :: v, congrArg (c :: ·) hv⟩
  unfold value
  split
  · exact ⟨[], rfl⟩
  next c t =>
    split
    · obtain ⟨v, hv⟩ := hquoted c t
      exact ⟨c :: v, by rw [List.cons_append, ← hv]⟩
    · exact ⟨_, (@List.takeWhile_append_dropWhile _ (!isBlank ·) (c :: t)).symm⟩

end AttrToken

/-- A lexeme stands in front of `rest`: its value is read up to there, and a value may start
    behind its front. -/
structure Lexeme.Stands (l : Lexeme) (rest : Text) : Prop where
  front : ∀ c ∈ l.front, isKeyChar c = true ∨ isBlank c = true ∨ c = '='
  edge : ∀ c ∈ l.front.getLast?, isBlank c = true ∨ c = '='
  value : AttrToken.value (l.value ++ rest) = (l.token.text, rest)

namespace AttrToken

theorem lexemes_of_trimStart_eq_nil {t : Text} (h : Text.trimStart t = []) : lexemes t = [] := by
  rw [lexemes]
  split
  · rfl
  next hc =>
    rw [h] at hc
    exact absurd hc (by simp)

/-- The first lexeme of a text stands in front of the others. -/
theorem exists_lexeme {t r : Text} {c : Char} (h : Text.trimStart t = c :: r) :
    ∃ l rest, lexemes t = l :: lexemes rest ∧ list t = l.token :: list rest ∧
      t = l.source ++ rest ∧ rest.length < t.length ∧ l.Stands rest := by
  obtain ⟨front, hfront, hchars, hedge⟩ := exists_front (c :: r)
  obtain ⟨v, hv⟩ := exists_value (fromValue (c :: r))
  obtain ⟨htext, hrest⟩ := read_eq_value (c :: r)
  rw [← hrest] at hv
  have ht : t = (t.takeWhile isBlank ++ front) ++ fromValue (c :: r) := by
    rw [List.append_assoc, ← hfront, ← h, Text.takeWhile_append_trimStart]
  have hlexemes : lexemes t = ⟨t.takeWhile isBlank ++ front, v, (read (c :: r)).1⟩ ::
      lexemes (read (c :: r)).2 := by
    have hupTo : Text.upTo (fromValue (c :: r)) t = t.takeWhile isBlank ++ front := by
      rw [congrArg (Text.upTo _) ht, Text.upTo_append]
    have hvalue : Text.upTo (read (c :: r)).2 (fromValue (c :: r)) = v := by
      rw [congrArg (Text.upTo _) hv, Text.upTo_append]
    rw [lexemes]
    split
    next hc =>
      rw [h] at hc
      exact absurd hc (by simp)
    next c' r' hc =>
      rw [h] at hc
      obtain ⟨rfl, rfl⟩ := List.cons.inj hc
      simp only [hupTo, hvalue]
  refine ⟨_, _, hlexemes, list_of_trimStart_eq_cons h, ?_, ?_, ?_, ?_, ?_⟩
  · rw [Lexeme.source, List.append_assoc, ← hv, ← ht]
  · have hshort := length_token_lt (t := r) (isBlank_head_trimStart h)
    exact Nat.lt_of_lt_of_le hshort (h ▸ Text.length_trimStart_le t)
  · intro d hd
    rcases List.mem_append.1 hd with hd | hd
    · exact .inr (.inl (List.mem_takeWhile_imp hd))
    · exact hchars d hd
  · intro d hd
    rw [List.getLast?_append, Option.mem_def, Option.or_eq_some_iff] at hd
    rcases hd with hd | ⟨-, hd⟩
    · exact hedge d hd
    · exact .inl (List.mem_takeWhile_imp (List.mem_of_getLast? hd))
  · rw [← hv, htext, hrest]

/-- Induction on the lexemes of a text. -/
@[elab_as_elim]
theorem lexemes_induction {motive : Text → Prop}
    (nil : ∀ t, IsBlank t → lexemes t = [] → motive t)
    (cons : ∀ l rest, lexemes (l.source ++ rest) = l :: lexemes rest →
      list (l.source ++ rest) = l.token :: list rest → l.Stands rest → motive rest →
      motive (l.source ++ rest)) (t : Text) : motive t := by
  induction hn : t.length using Nat.strong_induction_on generalizing t with
  | _ n ih =>
    cases h : Text.trimStart t with
    | nil => exact nil t (Text.trimStart_eq_nil_iff.1 h) (lexemes_of_trimStart_eq_nil h)
    | cons c r =>
      obtain ⟨l, rest, hlexemes, hlist, rfl, hlt, hstands⟩ := exists_lexeme h
      exact cons l rest hlexemes hlist hstands (ih _ (hn ▸ hlt) rest rfl)

/-- The tokens of the lexemes are those that are read. -/
theorem map_token_lexemes (t : Text) : (lexemes t).map Lexeme.token = list t := by
  induction t using lexemes_induction with
  | nil t h hnil =>
    rw [hnil, list_of_trimStart_eq_nil (Text.trimStart_eq_nil_iff.2 h), List.map_nil]
  | cons l rest hlexemes hlist hstands ih => rw [hlexemes, hlist, List.map_cons, ih]

/-- Each lexeme of a text stands in front of some rest. -/
theorem exists_stands {t : Text} {l : Lexeme} (h : l ∈ lexemes t) :
    ∃ rest, l.Stands rest := by
  induction t using lexemes_induction with
  | nil t hblank hnil =>
    rw [hnil] at h
    exact absurd h List.not_mem_nil
  | cons l' rest hlexemes hlist hl ih =>
    rw [hlexemes] at h
    rcases List.mem_cons.1 h with rfl | h
    · exact ⟨rest, hl⟩
    · exact ih h

/-- The lexemes make up the text, if it ends with no blank. -/
theorem flatMap_source_lexemes {t : Text} (h : ∀ c ∈ t.getLast?, isBlank c = false) :
    (lexemes t).flatMap Lexeme.source = t := by
  induction t using lexemes_induction with
  | nil t hblank hnil => rw [hnil, hblank.eq_nil h, List.flatMap_nil]
  | cons l rest hlexemes hlist hstands ih =>
    rw [hlexemes, List.flatMap_cons, ih (Text.getLast?_of_append h)]

end AttrToken

namespace Lexeme.Stands

variable {l : Lexeme} {rest : Text}

/-- A value that is not in quotes is the value of its token, and ends in front of a blank. -/
theorem of_bare (h : l.Stands rest) (hbare : l.isQuoted = false) :
    l.token.text = l.value ∧ (∀ c ∈ l.value, isBlank c = false) ∧
      (∀ c ∈ l.value.head?, isQuote c = false) ∧ ∀ c ∈ rest.head?, isBlank c = true := by
  have hvalue := h.value
  have hhead : ∀ c ∈ l.value.head?, isQuote c = false := by
    intro c hc
    rw [isQuoted, Option.mem_def.1 hc] at hbare
    exact hbare
  cases hu : l.value ++ rest with
  | nil =>
    obtain ⟨hnil, rfl⟩ := List.append_eq_nil_iff.1 hu
    rw [hu] at hvalue
    rw [hnil]
    exact ⟨(Prod.mk.inj hvalue).1.symm, by simp, by simp, by simp⟩
  | cons c u =>
    rw [hu, AttrToken.value] at hvalue
    split at hvalue
    next hq =>
      -- a quote would be the first character of the value
      have hlength := AttrToken.length_quoted_le c u
      rw [hvalue] at hlength
      cases hv : l.value with
      | nil =>
        rw [hv, List.nil_append] at hu
        rw [hu, List.length_cons] at hlength
        omega
      | cons d v =>
        rw [hv, List.cons_append] at hu
        rw [hv, (List.cons.inj hu).1] at hhead
        rw [hhead c rfl] at hq
        exact absurd hq (by decide)
    next hq =>
      obtain ⟨htext, hrest⟩ := Prod.mk.inj hvalue
      have htile : l.token.text ++ rest = l.value ++ rest := by
        rw [hu, ← htext, ← hrest, List.takeWhile_append_dropWhile]
      have hl := List.append_cancel_right htile
      refine ⟨hl, fun d hd => ?_, hhead, fun d hd => ?_⟩
      · rw [← hl, ← htext] at hd
        simpa using List.mem_takeWhile_imp hd
      · have hnot := List.head?_dropWhile_not (!isBlank ·) (c :: u)
        rw [hrest, Option.mem_def.1 hd] at hnot
        simpa using hnot

/-- A value in quotes is read from its quote on. -/
theorem of_quoted (h : l.Stands rest) (hquoted : l.isQuoted = true) :
    ∃ q v, l.value = q :: v ∧ isQuote q = true ∧ (AttrToken.quoted q (v ++ rest)).2 = rest := by
  have hvalue := h.value
  rw [isQuoted] at hquoted
  cases hv : l.value with
  | nil =>
    rw [hv] at hquoted
    exact absurd hquoted (by decide)
  | cons q v =>
    have hq : isQuote q = true := by simpa [hv] using hquoted
    rw [hv, List.cons_append, AttrToken.value, if_pos hq] at hvalue
    exact ⟨q, v, rfl, hq, by rw [hvalue]⟩

end Lexeme.Stands

end Shortcode
