import Shortcode.Proofs.BalancedContent
import Shortcode.Proofs.Lexemes

/-!
# Two readings of quotes

Quotes are read twice. The strict reading of a body looks for the `]` behind it and takes a quote
as the start of a value at the start of the body, behind a blank and behind any `=`. The parser of
the attributes takes a quote as the start of a value where a token starts, and behind the `=` of a
key. So the two differ on a quote behind a `=` that belongs to no key, as in `/find?q="a ]"`, and
a bracket that the one has hidden may then be split off by the other.

There is no other way to differ. Both are compared lexeme by lexeme: they are in step where a
lexeme starts if a quote there would start a value for the strict reading as well, or if there is
no quote. They agree on the front of a lexeme, on where a quoted value ends, and on each bare
value without a quote behind a `=`, and they are in step again behind it.

* `Opening.inQuotes`: what the strict reading takes in quotes.
* `Opening.strict_quoted`: a quoted value ends in the same place for both.
* `Opening.exists_step`: they agree on a clean lexeme and stay in step.
* `quoted_values_agree_iff`: when they agree on a tag that a scanner finds.
-/

namespace Shortcode

/-- A quote stands directly behind a `=`. -/
def QuoteBehindEquals (t : Text) : Prop :=
  ['=', '"'] <:+: t ∨ ['=', '\''] <:+: t

instance (t : Text) : Decidable (QuoteBehindEquals t) :=
  inferInstanceAs (Decidable (_ ∨ _))

theorem quoteBehindEquals_cons {c : Char} {t : Text} :
    QuoteBehindEquals (c :: t) ↔
      c = '=' ∧ (∃ q ∈ t.head?, isQuote q = true) ∨ QuoteBehindEquals t := by
  have hquote (q : Char) :
      ['=', q] <:+: c :: t ↔ c = '=' ∧ t.head? = some q ∨ ['=', q] <:+: t := by
    have hhead : [q] <+: t ↔ t.head? = some q := by
      cases t with
      | nil => simp
      | cons d t => simp [List.cons_prefix_cons, @eq_comm _ d]
    rw [List.infix_cons_iff, List.cons_prefix_cons, hhead, @eq_comm _ c]
  rw [QuoteBehindEquals, QuoteBehindEquals, hquote, hquote]
  simp only [isQuote_iff, Option.mem_def]
  constructor
  · rintro ((⟨hc, hq⟩ | h) | (⟨hc, hq⟩ | h))
    · exact .inl ⟨hc, '"', hq, .inl rfl⟩
    · exact .inr (.inl h)
    · exact .inl ⟨hc, '\'', hq, .inr rfl⟩
    · exact .inr (.inr h)
  · rintro (⟨hc, q, hq, rfl | rfl⟩ | (h | h))
    · exact .inl (.inl ⟨hc, hq⟩)
    · exact .inr (.inl ⟨hc, hq⟩)
    · exact .inl (.inr h)
    · exact .inr (.inr h)

namespace Opening

/-! ## What the strict reading takes as quoted -/

/-- For each character of a text, whether the strict reading passes it in quotes. -/
def inQuotes (quote : Option Char) (boundary : Bool) : Text → List Bool
  | [] => []
  | c :: t =>
    match quote with
    | some q =>
      if c = '\\' then
        match t with
        | [] => [true]
        | _ :: t => true :: true :: inQuotes quote boundary t
      else if c = q then true :: inQuotes none boundary t
      else true :: inQuotes quote boundary t
    | none =>
      if boundary && isQuote c then true :: inQuotes (some c) false t
      else false :: inQuotes none (isBlank c || c == '=') t

/-- Whether a quote would start a value behind a text outside quotes. -/
def edge (boundary : Bool) (s : Text) : Bool :=
  s.foldl (fun _ c => isBlank c || c == '=') boundary

/-- Whether a text outside quotes opens no quote. -/
def passes (boundary : Bool) : Text → Bool
  | [] => true
  | c :: t => !(boundary && isQuote c) && passes (isBlank c || c == '=') t

/-- A text has nothing in quotes exactly if it opens no quote. -/
theorem inQuotes_append_iff {boundary : Bool} {s u : Text} {mask : List Bool} :
    inQuotes none boundary (s ++ u) = List.replicate s.length false ++ mask ↔
      passes boundary s = true ∧ inQuotes none (edge boundary s) u = mask := by
  induction s generalizing boundary with
  | nil => simp [passes, edge]
  | cons c s ih =>
    by_cases hq : (boundary && isQuote c) = true
    · simp [inQuotes, passes, hq, List.replicate_succ]
    · have hedge : edge boundary (c :: s) = edge (isBlank c || c == '=') s := rfl
      rw [List.cons_append, inQuotes, if_neg hq, List.length_cons, List.replicate_succ,
        List.cons_append, List.cons.injEq, ih, passes, hedge, (Bool.not_eq_true _).mp hq]
      simp

/-- The strict reading of a text that opens no quote goes on behind it, and meets no bracket. -/
theorem strict_of_passes {boundary : Bool} {s u body rest : Text}
    (hpasses : passes boundary s = true)
    (h : strict none boundary (s ++ u) = .ends (s ++ body) rest) :
    strict none (edge boundary s) u = .ends body rest ∧ '[' ∉ s ∧ ']' ∉ s := by
  induction s generalizing boundary with
  | nil => exact ⟨h, List.not_mem_nil, List.not_mem_nil⟩
  | cons c s ih =>
    rw [passes, Bool.and_eq_true, Bool.not_eq_true'] at hpasses
    have hclose : c ≠ ']' := by
      rintro rfl
      rw [List.cons_append, strict, if_pos rfl] at h
      exact absurd h (by simp)
    have hopen : c ≠ '[' := by
      rintro rfl
      rw [List.cons_append, strict, if_neg (by decide), if_pos rfl] at h
      exact absurd h (by simp)
    rw [List.cons_append, List.cons_append, strict_pass hclose hopen hpasses.1,
      Strict.push_eq_ends_cons_iff] at h
    obtain ⟨hends, hs⟩ := ih hpasses.2 h
    exact ⟨hends, by simp [hopen.symm, hs.1], by simp [hclose.symm, hs.2]⟩

theorem inQuotes_open {q : Char} (hq : isQuote q = true) (t : Text) :
    inQuotes none true (q :: t) = true :: inQuotes (some q) false t := by
  rw [inQuotes, Bool.true_and, if_pos hq]

theorem inQuotes_quote {q : Char} (hq : q ≠ '\\') (boundary : Bool) (t : Text) :
    inQuotes (some q) boundary (q :: t) = true :: inQuotes none boundary t := by
  cases t <;> simp [inQuotes, hq]

theorem inQuotes_inside {q c : Char} (hc : c ≠ '\\') (hq : c ≠ q) (boundary : Bool) (t : Text) :
    inQuotes (some q) boundary (c :: t) = true :: inQuotes (some q) boundary t := by
  cases t <;> simp [inQuotes, hc, hq]

/-- The strict reading takes every bracket of a body in quotes. -/
theorem inQuotes_of_bracket {quote : Option Char} {boundary : Bool} {t body rest : Text}
    (h : strict quote boundary t = .ends body rest) :
    ∀ p ∈ body.zip (inQuotes quote boundary body), p.1 = '[' ∨ p.1 = ']' → p.2 = true := by
  fun_induction strict quote boundary t generalizing body with
  | case1 => exact absurd h (by simp)
  | case2 => exact absurd h (by simp)
  | case3 => exact absurd h (by simp)
  | case4 boundary q d t ih =>
    obtain ⟨b₁, rfl, h₁⟩ := Strict.push_eq_ends_iff.1 h
    obtain ⟨b₂, rfl, h₂⟩ := Strict.push_eq_ends_iff.1 h₁
    rw [inQuotes, if_pos rfl]
    exact List.forall_mem_cons.2 ⟨fun _ => rfl, List.forall_mem_cons.2 ⟨fun _ => rfl, ih h₂⟩⟩
  | case5 boundary t q hend hback ih =>
    obtain ⟨b, rfl, hb⟩ := Strict.push_eq_ends_iff.1 h
    rw [inQuotes_quote hback]
    exact List.forall_mem_cons.2 ⟨fun _ => rfl, ih hb⟩
  | case6 => exact absurd h (by simp)
  | case7 boundary c t q hback hne ih =>
    obtain ⟨b, rfl, hb⟩ := Strict.push_eq_ends_iff.1 h
    rw [inQuotes_inside hback hne]
    exact List.forall_mem_cons.2 ⟨fun _ => rfl, ih hb⟩
  | case8 =>
    obtain ⟨rfl, -⟩ := Strict.ends.inj h
    exact fun p hp => absurd hp List.not_mem_nil
  | case9 => exact absurd h (by simp)
  | case10 boundary c t hclose hopen hquote ih =>
    obtain ⟨b, rfl, hb⟩ := Strict.push_eq_ends_iff.1 h
    rw [inQuotes, if_pos hquote]
    exact List.forall_mem_cons.2 ⟨fun _ => rfl, ih hb⟩
  | case11 boundary c t hclose hopen hquote ih =>
    obtain ⟨b, rfl, hb⟩ := Strict.push_eq_ends_iff.1 h
    rw [inQuotes, if_neg hquote]
    refine List.forall_mem_cons.2 ⟨fun hc => ?_, ih hb⟩
    exact absurd hc (not_or.2 ⟨hopen, hclose⟩)

/-- What the strict reading takes from quotes on has the quote that ends them. -/
theorem mem_of_strict {q : Char} {boundary : Bool} {t body rest : Text}
    (h : strict (some q) boundary t = .ends body rest) : q ∈ body := by
  generalize hquote : some q = quote at h
  fun_induction strict quote boundary t generalizing body with
  | case1 => exact absurd h (by simp)
  | case2 => exact absurd h (by simp)
  | case3 => exact absurd h (by simp)
  | case4 boundary q' d t ih =>
    obtain ⟨b₁, rfl, h₁⟩ := Strict.push_eq_ends_iff.1 h
    obtain ⟨b₂, rfl, h₂⟩ := Strict.push_eq_ends_iff.1 h₁
    exact List.mem_cons_of_mem _ (List.mem_cons_of_mem _ (ih hquote h₂))
  | case5 boundary t q' hend hback ih =>
    obtain ⟨b, rfl, -⟩ := Strict.push_eq_ends_iff.1 h
    rw [Option.some.inj hquote]
    exact List.mem_cons_self
  | case6 => exact absurd h (by simp)
  | case7 boundary c t q' hback hne ih =>
    obtain ⟨b, rfl, hb⟩ := Strict.push_eq_ends_iff.1 h
    exact List.mem_cons_of_mem _ (ih hquote hb)
  | case8 => exact absurd hquote (by simp)
  | case9 => exact absurd hquote (by simp)
  | case10 => exact absurd hquote (by simp)
  | case11 => exact absurd hquote (by simp)

/-- The strict reading passes a value in quotes up to where the value is read, and a token may
    end there. -/
theorem strict_quoted {q : Char} (hback : q ≠ '\\') {t w rest : Text} (hw : q ∉ w)
    {boundary : Bool}
    (h : strict (some q) boundary (t ++ (w ++ ']' :: rest)) = .ends (t ++ w) rest) :
    ∃ v, t = v ++ (AttrToken.quoted q t).2 ∧
      inQuotes (some q) boundary (t ++ w) = List.replicate v.length true ++
        inQuotes none boundary ((AttrToken.quoted q t).2 ++ w) ∧
      endsToken ((AttrToken.quoted q t).2 ++ (w ++ ']' :: rest)) = true ∧
      strict none boundary ((AttrToken.quoted q t).2 ++ (w ++ ']' :: rest)) =
        .ends ((AttrToken.quoted q t).2 ++ w) rest := by
  fun_induction AttrToken.quoted q t with
  | case1 => exact absurd (mem_of_strict h) hw
  | case2 c t value r hquoted hc ih | case3 c t value r hquoted hc ih =>
    -- a backslash and the character behind it are passed together by both
    simp only [List.cons_append, strict_escape, Strict.push_eq_ends_cons_iff] at h
    obtain ⟨v, hv, hmask, hend, hstrict⟩ := ih h
    rw [hquoted] at hv hmask hend hstrict
    refine ⟨'\\' :: c :: v, congrArg ('\\' :: c :: ·) hv, ?_, hend, hstrict⟩
    rw [List.cons_append, List.cons_append, inQuotes, if_pos rfl, hmask]
    rfl
  | case4 t hescape =>
    rw [List.cons_append, strict_quote hback] at h
    split at h
    next hend =>
      rw [List.cons_append, Strict.push_eq_ends_cons_iff] at h
      exact ⟨[q], rfl, inQuotes_quote hback boundary (t ++ w), hend, h⟩
    · exact absurd h (by simp)
  | case5 c t hescape hc value r hquoted ih =>
    -- a backslash at the end would keep the quote open, and there is no other quote
    have hc' : c ≠ '\\' := by
      rintro rfl
      cases t with
      | nil =>
        have hmem := mem_of_strict h
        rw [List.singleton_append, List.mem_cons] at hmem
        exact hmem.elim hback hw
      | cons d t => exact hescape d t rfl rfl
    rw [List.cons_append, List.cons_append, strict_inside hc' hc,
      Strict.push_eq_ends_cons_iff] at h
    obtain ⟨v, hv, hmask, hend, hstrict⟩ := ih h
    rw [hquoted] at hv hmask hend hstrict
    refine ⟨c :: v, congrArg (c :: ·) hv, ?_, hend, hstrict⟩
    rw [List.cons_append, inQuotes_inside hc' hc, hmask]
    rfl

theorem passes_of_not_isQuote {s : Text} (h : ∀ c ∈ s, isQuote c = false) (boundary : Bool) :
    passes boundary s = true := by
  induction s generalizing boundary with
  | nil => rfl
  | cons c s ih =>
    rw [passes, h c List.mem_cons_self, Bool.and_false, Bool.not_false, Bool.true_and]
    exact ih (fun d hd => h d (List.mem_cons_of_mem c hd)) _

/-- A text without blanks opens a quote where one stands behind a `=`, or in front. -/
theorem passes_iff {s : Text} (hblank : ∀ c ∈ s, isBlank c = false) (boundary : Bool) :
    passes boundary s = true ↔
      (boundary = true → ∀ c ∈ s.head?, isQuote c = false) ∧ ¬ QuoteBehindEquals s := by
  induction s generalizing boundary with
  | nil => simp [passes, QuoteBehindEquals]
  | cons c s ih =>
    rw [passes, Bool.and_eq_true, ih fun d hd => hblank d (List.mem_cons_of_mem c hd),
      hblank c List.mem_cons_self, Bool.false_or, quoteBehindEquals_cons]
    simp only [Bool.not_eq_true', Bool.and_eq_false_imp, beq_iff_eq, List.head?_cons,
      Option.mem_def, Option.some.injEq, forall_eq', not_or, not_and, not_exists,
      Bool.not_eq_true]

theorem edge_eq_or (boundary : Bool) (s : Text) (h : ∀ c ∈ s.getLast?, isBlank c = true ∨ c = '=') :
    edge boundary s = true ∨ s = [] := by
  rcases List.eq_nil_or_concat s with rfl | ⟨s, c, rfl⟩
  · exact .inr rfl
  · refine .inl ?_
    rw [List.concat_eq_append] at h ⊢
    rw [edge, List.foldl_append, List.foldl_cons, List.foldl_nil, Bool.or_eq_true, beq_iff_eq]
    exact h c List.getLast?_concat

/-! ## The two readings side by side -/

section

variable {l : Lexeme} {rest w behind : Text} {boundary : Bool}

theorem not_isQuote_of_endsToken {c : Char} {t : Text} (h : endsToken (c :: t) = true) :
    isQuote c = false := by
  simp only [endsToken, Bool.or_eq_true, beq_iff_eq] at h
  rcases h with (h | rfl) | rfl
  · exact not_isQuote_of_isBlank h
  · decide
  · decide

/-- Where a lexeme starts, a quote would start a value, or there is no quote. -/
def InStep (boundary : Bool) (t : Text) : Prop :=
  boundary = true ∨ ∀ c ∈ t.head?, isQuote c = false

/-- The front of a lexeme is passed, and behind it the strict reading is in step again. -/
theorem passes_front (hl : l.Stands rest) (hstep : InStep boundary (l.source ++ rest)) :
    passes boundary l.front = true ∧ InStep (edge boundary l.front) (l.value ++ rest) := by
  refine ⟨passes_of_not_isQuote (fun c hc => ?_) boundary, ?_⟩
  · rcases hl.front c hc with hkey | hblank | rfl
    · exact (of_isKeyChar hkey).2.2.2
    · exact not_isQuote_of_isBlank hblank
    · decide
  · rcases edge_eq_or boundary l.front hl.edge with hedge | hnil
    · exact .inl hedge
    · rw [Lexeme.source, hnil] at hstep
      rw [hnil]
      exact hstep

/-- The strict reading and the parser agree on a lexeme if they agree on its value. -/
theorem inQuotes_source_iff (hfront : passes boundary l.front = true) {u : Text}
    {mask : List Bool} :
    inQuotes none boundary (l.source ++ u) = l.mask ++ mask ↔
      inQuotes none (edge boundary l.front) (l.value ++ u) =
        List.replicate l.value.length l.isQuoted ++ mask := by
  rw [Lexeme.source, Lexeme.mask, List.append_assoc, List.append_assoc, inQuotes_append_iff]
  exact and_iff_right hfront

/-- The strict reading of a clean lexeme takes the characters in quotes that the parser takes,
    and is in step behind it. -/
theorem exists_step (hl : l.Stands rest) (hstep : InStep boundary (l.source ++ rest))
    (hw : ∀ c ∈ w, isQuote c = false)
    (hclean : l.isQuoted = false → ¬ QuoteBehindEquals l.value)
    (h : strict none boundary (l.source ++ (rest ++ (w ++ ']' :: behind))) =
      .ends (l.source ++ (rest ++ w)) behind) :
    ∃ next, InStep next rest ∧
      strict none next (rest ++ (w ++ ']' :: behind)) = .ends (rest ++ w) behind ∧
      (∀ mask, inQuotes none boundary (l.source ++ (rest ++ w)) = l.mask ++ mask ↔
        inQuotes none next (rest ++ w) = mask) ∧
      (l.isQuoted = false → '[' ∉ l.value ∧ ']' ∉ l.value) := by
  obtain ⟨hfront, hvalue⟩ := passes_front hl hstep
  rw [Lexeme.source, List.append_assoc, List.append_assoc] at h
  obtain ⟨hends, -⟩ := strict_of_passes hfront h
  cases hquoted : l.isQuoted with
  | false =>
    obtain ⟨-, hblank, hhead, hrest⟩ := hl.of_bare hquoted
    have hpasses : passes (edge boundary l.front) l.value = true :=
      (passes_iff hblank _).2 ⟨fun _ => hhead, hclean hquoted⟩
    obtain ⟨hends, hbrackets⟩ := strict_of_passes hpasses hends
    refine ⟨_, .inr fun c hc => not_isQuote_of_isBlank (hrest c hc), hends, fun mask => ?_,
      fun _ => hbrackets⟩
    rw [inQuotes_source_iff hfront, hquoted, inQuotes_append_iff]
    exact and_iff_right hpasses
  | true =>
    obtain ⟨q, v, hv, hq, hread⟩ := hl.of_quoted hquoted
    have hboundary : edge boundary l.front = true := by
      rcases hvalue with hedge | hhead
      · exact hedge
      · rw [hv] at hhead
        rw [hhead q rfl] at hq
        exact absurd hq (by decide)
    rw [hboundary, hv, List.cons_append, List.cons_append, strict_open hq,
      Strict.push_eq_ends_cons_iff, ← List.append_assoc, ← List.append_assoc v] at hends
    have hqw : q ∉ w := fun hmem => by simp [hw q hmem] at hq
    obtain ⟨v', hv', hmask, hend, hends⟩ := strict_quoted (of_isQuote hq).1 hqw hends
    rw [hread] at hv' hmask hend hends
    obtain rfl := List.append_cancel_right hv'
    refine ⟨false, .inr fun c hc => ?_, hends, fun mask => ?_,
      fun hfalse => absurd hfalse (by simp)⟩
    · obtain ⟨rest, rfl⟩ := List.head?_eq_some_iff.1 hc
      exact not_isQuote_of_endsToken hend
    · rw [inQuotes_source_iff hfront, hquoted, hboundary, hv, List.cons_append, inQuotes_open hq,
        ← List.append_assoc v, hmask, List.length_cons, List.replicate_succ, List.cons_append,
        List.cons.injEq, List.append_cancel_left_eq]
      exact and_iff_right rfl

/-- Where a bare value holds a quote behind a `=`, the strict reading takes more in quotes than
    the parser. -/
theorem inQuotes_ne_of_quoteBehindEquals (hl : l.Stands rest)
    (hstep : InStep boundary (l.source ++ rest)) (hbare : l.isQuoted = false)
    (hquote : QuoteBehindEquals l.value) (u : Text) (mask : List Bool) :
    inQuotes none boundary (l.source ++ u) ≠ l.mask ++ mask := by
  intro heq
  rw [inQuotes_source_iff (passes_front hl hstep).1, hbare, inQuotes_append_iff] at heq
  exact ((passes_iff (hl.of_bare hbare).2.1 _).1 heq.1).2 hquote

/-- The two readings take the same characters in quotes exactly if no bare value holds a quote
    behind a `=`, and then no bare value holds a bracket. -/
theorem inQuotes_eq_iff {t : Text} (hlast : ∀ c ∈ t.getLast?, isBlank c = false)
    (hw : ∀ c ∈ w, isQuote c = false) (hstep : InStep boundary t)
    (h : strict none boundary (t ++ (w ++ ']' :: behind)) = .ends (t ++ w) behind) :
    (inQuotes none boundary (t ++ w) =
        (AttrToken.lexemes t).flatMap Lexeme.mask ++ List.replicate w.length false ↔
      ∀ l ∈ AttrToken.lexemes t, l.isQuoted = false → ¬ QuoteBehindEquals l.value) ∧
    ((∀ l ∈ AttrToken.lexemes t, l.isQuoted = false → ¬ QuoteBehindEquals l.value) →
      ∀ l ∈ AttrToken.lexemes t, l.isQuoted = false → '[' ∉ l.value ∧ ']' ∉ l.value) := by
  induction t using AttrToken.lexemes_induction generalizing boundary with
  | nil t hblank hnil =>
    obtain rfl := hblank.eq_nil hlast
    have hrest := (@inQuotes_append_iff boundary w [] []).2 ⟨passes_of_not_isQuote hw _, rfl⟩
    rw [List.append_nil, List.append_nil] at hrest
    rw [hnil, List.nil_append, List.flatMap_nil, List.nil_append, hrest]
    simp
  | cons l rest hlexemes hlist hl ih =>
    rw [List.append_assoc, List.append_assoc] at h
    by_cases hclean : l.isQuoted = false → ¬ QuoteBehindEquals l.value
    · obtain ⟨next, hnext, hends, hmask, hbrackets⟩ := exists_step hl hstep hw hclean h
      obtain ⟨hiff, hrest⟩ := ih (Text.getLast?_of_append hlast) hnext hends
      rw [hlexemes, List.forall_mem_cons, List.forall_mem_cons, List.flatMap_cons,
        List.append_assoc, List.append_assoc, hmask, hiff]
      exact ⟨(and_iff_right hclean).symm, fun h => ⟨hbrackets, hrest h.2⟩⟩
    · rw [hlexemes, List.forall_mem_cons, List.forall_mem_cons, List.flatMap_cons,
        List.append_assoc, List.append_assoc]
      refine ⟨⟨fun heq => ?_, fun h => absurd h.1 hclean⟩, fun h => absurd h.1 hclean⟩
      push Not at hclean
      exact absurd heq (inQuotes_ne_of_quoteBehindEquals hl hstep hclean.1 hclean.2 _ _)

end

/-- In front of the attributes stand blanks, and behind them blanks and the `/` of a self-closing
    tag. -/
theorem exists_append_attrText (o : Opening) :
    ∃ before behind, o.body = before ++ (o.attrText ++ behind) ∧ IsBlank before ∧
      (∀ c ∈ behind, isBlank c = true ∨ c = '/') ∧
      ∀ c ∈ o.attrText.getLast?, isBlank c = false := by
  obtain ⟨before, blanks, hbody, hbefore, hblanks⟩ := Text.exists_append_trim o.body
  rw [attrText]
  split
  next hslash =>
    rw [selfClosing, beq_iff_eq] at hslash
    obtain ⟨s, hs⟩ := List.getLast?_eq_some_iff.1 hslash
    obtain ⟨inner, hinner, hinners⟩ := Text.exists_append_trimEnd s
    rw [hs, List.dropLast_concat]
    refine ⟨before, inner ++ '/' :: blanks, ?_, hbefore, fun c hc => ?_, Text.getLast?_trimEnd s⟩
    · rw [hs, List.append_assoc] at hbody
      rw [← List.append_assoc (Text.trimEnd s), ← hinner]
      exact hbody
    · rw [List.mem_append, List.mem_cons] at hc
      rcases hc with hc | rfl | hc
      · exact .inl (hinners c hc)
      · exact .inr rfl
      · exact .inl (hblanks c hc)
  · exact ⟨before, blanks, hbody, hbefore, fun c hc => .inl (hblanks c hc),
      Text.getLast?_trimEnd _⟩

/-- The strict reading has come to the end of a tag if it has found all quotes closed. -/
theorem strict_of_body? {t body rest : Text} (h : body? t = some (body, rest))
    (hpaired : strict none true t ≠ .unpaired) : strict none true t = .ends body rest := by
  unfold body? at h
  cases hs : strict none true t with
  | ends b r =>
    rw [hs] at h
    obtain ⟨rfl, rfl⟩ := Prod.mk.inj (Option.some.inj h)
    rfl
  | refused =>
    rw [hs] at h
    exact absurd h (by simp)
  | unpaired => exact absurd hs hpaired

end Opening

/-- Where every quote that the strict reading takes as opening a value is closed, it takes every
    bracket of the tag in quotes. It takes the same characters in quotes as the parser of the
    attributes if and only if no bare value holds a quote directly behind a `=`; and then every
    bracket in the attributes is in a quoted value. -/
theorem quoted_values_agree_iff {t rest : Text} {queries : List Scanner.Query} {tag : Tag}
    (h : .tag (some tag) ∈ ((queries.mapM Scanner.Query.ask).run (Scanner.ofText t)).1)
    (hrest : t.from? tag.openEnd = some rest)
    (hpaired : Opening.strict none true (tag.opening.body ++ ']' :: rest) ≠ .unpaired) :
    let o := tag.opening
    let hidden := Opening.inQuotes none true o.body
    let lexemes := AttrToken.lexemes o.attrText
    (∀ p ∈ o.body.zip hidden, p.1 = '[' ∨ p.1 = ']' → p.2 = true) ∧
    lexemes.map Lexeme.token = AttrToken.list o.attrText ∧
    lexemes.flatMap Lexeme.source = o.attrText ∧
    ∃ before behind, o.body = before ++ (o.attrText ++ behind) ∧ IsBlank before ∧
      (∀ c ∈ behind, isBlank c = true ∨ c = '/') ∧
      (hidden = List.replicate before.length false ++
          (lexemes.flatMap Lexeme.mask ++ List.replicate behind.length false) ↔
        ∀ l ∈ lexemes, l.isQuoted = false → ¬ QuoteBehindEquals l.value) ∧
      ((∀ l ∈ lexemes, l.isQuoted = false → ¬ QuoteBehindEquals l.value) →
        ∀ l ∈ lexemes, ∀ bracket ∈ ['[', ']'], bracket ∉ l.front ∧
          (l.isQuoted = false → bracket ∉ l.value ∧ bracket ∉ l.token.text)) := by
  intro o hidden lexemes
  obtain ⟨known, u, located, hu, hlocated, rfl⟩ := Scanner.exists_located_of_reply h
  obtain ⟨after, hread, -, -, -, -⟩ := locate?_direct_eq_some_iff.1 hlocated
  -- what stands behind the opening tag is what its reading leaves
  have hafter : t.from? located.tag.openEnd = some after :=
    Text.from?_of_append (hu.trans (congrArg some (Opening.source_append_of_read hread).symm))
  obtain rfl := Option.some.inj (hrest.symm.trans hafter)
  obtain ⟨-, -, -, hbody⟩ := Opening.read?_eq_some_iff.1 hread
  have hstrict := Opening.strict_of_body? hbody hpaired
  obtain ⟨before, behind, hplace, hbefore, hbehind, hlast⟩ := o.exists_append_attrText
  have hquote : ∀ c ∈ behind, isQuote c = false := by
    intro c hc
    rcases hbehind c hc with hblank | rfl
    · exact not_isQuote_of_isBlank hblank
    · decide
  -- the blanks in front leave the strict reading where a value may start
  have hpasses := Opening.passes_of_not_isQuote
    (fun c hc => not_isQuote_of_isBlank (hbefore c hc)) true
  have hedge : Opening.edge true before = true := by
    rcases Opening.edge_eq_or true before
      fun c hc => .inl (hbefore c (List.mem_of_getLast? hc)) with hedge | rfl
    · exact hedge
    · rfl
  have hends : Opening.strict none true (before ++ (o.attrText ++ (behind ++ ']' :: rest))) =
      .ends (before ++ (o.attrText ++ behind)) rest := by
    rw [← hplace, ← List.append_assoc o.attrText, ← List.append_assoc before, ← hplace]
    exact hstrict
  have hattrs := (Opening.strict_of_passes hpasses hends).1
  rw [hedge] at hattrs
  obtain ⟨hiff, hbrackets⟩ := Opening.inQuotes_eq_iff hlast hquote (.inl rfl) hattrs
  refine ⟨Opening.inQuotes_of_bracket hstrict, AttrToken.map_token_lexemes _,
    AttrToken.flatMap_source_lexemes hlast, before, behind, hplace, hbefore, hbehind, ?_,
    fun hclean l hl bracket hbracket => ?_⟩
  · rw [← hiff, show hidden = Opening.inQuotes none true o.body from rfl, hplace,
      Opening.inQuotes_append_iff, hedge]
    exact and_iff_right hpasses
  · obtain ⟨rest', hstands⟩ := AttrToken.exists_stands hl
    have hbracket : bracket = '[' ∨ bracket = ']' := by simpa using hbracket
    refine ⟨fun hfront => ?_, fun hbare => ?_⟩
    · have hchar := hstands.front bracket hfront
      rcases hbracket with rfl | rfl <;> exact absurd hchar (by decide)
    · obtain ⟨hopen, hclose⟩ := hbrackets hclean l hl hbare
      have hvalue : bracket ∉ l.value := by
        rcases hbracket with rfl | rfl
        · exact hopen
        · exact hclose
      exact ⟨hvalue, (hstands.of_bare hbare).1 ▸ hvalue⟩

/-- A tag with brackets in quotes of both kinds, and with a quote and a `=` in bare values. -/
theorem quoted_values_agree_brackets :
    let t : Text := "[t \"a ]\" k = '[x]' it's /u?q=1 /] b".toList
    let queries : List Scanner.Query := [.locate (· == ['t']) 0]
    let o : Opening := ⟨['t'], " \"a ]\" k = '[x]' it's /u?q=1 /".toList⟩
    let tag : Tag := ⟨0, o, none⟩
    let lexemes := AttrToken.lexemes o.attrText
    .tag (some tag) ∈ ((queries.mapM Scanner.Query.ask).run (Scanner.ofText t)).1 ∧
      t.from? tag.openEnd = some " b".toList ∧
      Opening.strict none true (o.body ++ "] b".toList) ≠ .unpaired ∧
      (∀ l ∈ lexemes, l.isQuoted = false → ¬ QuoteBehindEquals l.value) ∧
      ∀ l ∈ lexemes, ∀ bracket ∈ ['[', ']'], bracket ∉ l.front ∧
        (l.isQuoted = false → bracket ∉ l.value ∧ bracket ∉ l.token.text) := by
  intro t queries o tag lexemes
  have h : .tag (some tag) ∈ ((queries.mapM Scanner.Query.ask).run (Scanner.ofText t)).1 := by
    rw [Scanner.replies_eq_direct]
    decide +kernel
  have hrest : t.from? tag.openEnd = some " b".toList := by decide +kernel
  have hpaired : Opening.strict none true (o.body ++ "] b".toList) ≠ .unpaired := by decide +kernel
  have hclean : ∀ l ∈ lexemes, l.isQuoted = false → ¬ QuoteBehindEquals l.value := by
    decide +kernel
  obtain ⟨-, -, -, -, -, -, -, -, -, hbrackets⟩ := quoted_values_agree_iff h hrest hpaired
  exact ⟨h, hrest, hpaired, hclean, hbrackets hclean⟩

/-- The two readings do not agree on every tag: in `/find?q="a ]"` the strict reading takes
    `"a ]"` as a value in quotes, and the tag ends behind it. The parser takes the text up to the
    blank and the text behind it as two bare values, and the bracket is in the second one. -/
theorem quoted_values_disagree_word :
    let t : Text := "[t /find?q=\"a ]\"]".toList
    let queries : List Scanner.Query := [.locate (· == ['t']) 0]
    let o : Opening := ⟨['t'], " /find?q=\"a ]\"".toList⟩
    let tag : Tag := ⟨0, o, none⟩
    .tag (some tag) ∈ ((queries.mapM Scanner.Query.ask).run (Scanner.ofText t)).1 ∧
      t.from? tag.openEnd = some [] ∧
      Opening.strict none true (o.body ++ [']']) = .ends o.body [] ∧
      o.attrs = ⟨[(.position 0, "/find?q=\"a".toList), (.position 1, "]\"".toList)]⟩ ∧
      ∃ l ∈ AttrToken.lexemes o.attrText, l.isQuoted = false ∧ ']' ∈ l.token.text := by
  intro t queries o tag
  refine ⟨?_, by decide +kernel, by decide +kernel, by decide +kernel, by decide +kernel⟩
  rw [Scanner.replies_eq_direct]
  decide +kernel

end Shortcode
