import Mathlib.Data.List.Basic
import Shortcode.Proofs.Opening

/-!
# Writing attributes

Every attribute list can be written down so that it is read back as it was: each
value in quotes, with a backslash in front of the quotes and the backslashes in it,
and a space in front of each token.

* `AttrToken.quoted_escape`: an escaped value is read back.
* `AttrToken.list_written`: so is a written list of tokens.
* `Attributes.read_written`: tokens of different names are stored in order.
-/

namespace Shortcode

theorem isQuote_iff {q : Char} : isQuote q = true ↔ q = '"' ∨ q = '\'' := by
  rw [isQuote, Bool.or_eq_true, beq_iff_eq, beq_iff_eq]

/-- A quote ends no key, and is neither a blank nor a backslash. -/
theorem of_isQuote {q : Char} (h : isQuote q = true) :
    q ≠ '\\' ∧ q ≠ ']' ∧ q ≠ '[' ∧ isBlank q = false ∧ isKeyChar q = false := by
  rcases isQuote_iff.1 h with rfl | rfl <;> decide

/-- A blank is no quote. -/
theorem not_isQuote_of_isBlank {c : Char} (h : isBlank c = true) : isQuote c = false := by
  rw [← Bool.not_eq_true]
  intro hq
  rw [(of_isQuote hq).2.2.2.1] at h
  exact absurd h (by decide)

/-- No key goes on where a blank stands. -/
theorem not_isBlank_of_isKeyChar {c : Char} (h : isKeyChar c = true) : isBlank c = false := by
  rw [← Bool.not_eq_true]
  intro hb
  have hname := isNameChar_of_isBlank hb
  rw [isKeyChar, ← isNameChar, hname, Bool.false_or, beq_iff_eq] at h
  rw [h] at hb
  exact absurd hb (by decide)

/-- A key character has no meaning of its own in the body of a tag. -/
theorem of_isKeyChar {c : Char} (h : isKeyChar c = true) :
    c ≠ ']' ∧ c ≠ '[' ∧ c ≠ '=' ∧ isQuote c = false := by
  refine ⟨?_, ?_, ?_, ?_⟩
  · rintro rfl
    exact absurd h (by decide)
  · rintro rfl
    exact absurd h (by decide)
  · rintro rfl
    exact absurd h (by decide)
  · rw [← Bool.not_eq_true]
    intro hq
    rcases isQuote_iff.1 hq with rfl | rfl <;> exact absurd h (by decide)

namespace AttrToken

/-! ## Values -/

/-- A value with a backslash in front of each quote `q` and each backslash. -/
def escape (q : Char) : Text → Text
  | [] => []
  | c :: v => if c = q ∨ c = '\\' then '\\' :: c :: escape q v else c :: escape q v

/-- An escaped value is read back up to the quote that ends it. -/
theorem quoted_escape {q : Char} (hq : q ≠ '\\') (v rest : Text) :
    quoted q (escape q v ++ q :: rest) = (v, rest) := by
  induction v with
  | nil =>
    rw [escape, List.nil_append, quoted, if_pos rfl]
    exact fun _ _ h => absurd h hq
  | cons c v ih =>
    by_cases hc : c = q ∨ c = '\\'
    · -- the backslash in front of `c` goes away, since it protects a quote or a backslash
      rw [escape, if_pos hc, List.cons_append, List.cons_append, quoted, ih]
      exact if_pos hc
    · rw [escape, if_neg hc, List.cons_append, quoted, ih]
      · exact if_neg fun h => hc (.inl h)
      · exact fun _ _ h => absurd (.inr h) hc

/-- A value is escaped without a character that it does not hold. -/
theorem not_mem_escape {q d : Char} {v : Text} (hd : d ≠ '\\') (h : d ∉ v) : d ∉ escape q v := by
  induction v with
  | nil => exact List.not_mem_nil
  | cons c v ih =>
    rw [List.mem_cons, not_or] at h
    rw [escape]
    split <;> simp [hd, h.1, ih h.2]

/-! ## Lists -/

/-- A token with its value in quotes `q`. -/
def written (q : Char) : AttrToken → Text
  | positional v => q :: (escape q v ++ [q])
  | named k v => k ++ '=' :: q :: (escape q v ++ [q])

/-- Tokens, each with the quotes around its value and a space in front of it. -/
def writtenList : List (Char × AttrToken) → Text
  | [] => []
  | (q, token) :: tokens => ' ' :: (token.written q ++ writtenList tokens)

/-- A token whose key can be written. -/
def HasKey : AttrToken → Prop
  | positional _ => True
  | named k _ => k ≠ [] ∧ ∀ c ∈ k, isKeyChar c = true

/-- Tokens that can be written with the quotes given. -/
def Writable (tokens : List (Char × AttrToken)) : Prop :=
  ∀ p ∈ tokens, isQuote p.1 = true ∧ p.2.HasKey

theorem written_positional_append (q : Char) (v rest : Text) :
    (positional v).written q ++ rest = q :: (escape q v ++ q :: rest) := by
  simp [written]

theorem written_named_append (q : Char) (k v rest : Text) :
    (named k v).written q ++ rest = k ++ '=' :: q :: (escape q v ++ q :: rest) := by
  simp [written]

/-- A key is read up to the `=` behind it, where blanks may stand in front of the `=`. -/
theorem named?_of_key_blanks {k blanks : Text} (hne : k ≠ [])
    (hall : ∀ c ∈ k, isKeyChar c = true) (hblanks : ∀ c ∈ blanks, isBlank c = true) (t : Text) :
    named? (k ++ (blanks ++ '=' :: t)) = some (named k (assigned t).1, (assigned t).2) := by
  have hhead : ∀ c ∈ (blanks ++ '=' :: t).head?, isKeyChar c = false := by
    cases blanks with
    | nil => exact fun c hc => Option.some.inj hc ▸ by decide
    | cons b blanks =>
      intro c hc
      rw [← Bool.not_eq_true]
      intro hkey
      obtain rfl := Option.some.inj hc
      exact absurd (hblanks b List.mem_cons_self) (by simp [not_isBlank_of_isKeyChar hkey])
  have heq : ∀ c ∈ ('=' :: t).head?, isBlank c = false := fun c hc =>
    Option.some.inj hc ▸ by decide
  obtain ⟨htake, hdrop⟩ := Text.takeWhile_append hall hhead
  rw [named?, htake, hdrop, Text.trimStart, (Text.takeWhile_append hblanks heq).2]
  exact if_neg (by simpa using hne)

/-- A key is read up to the `=` behind it. -/
theorem named?_of_key {k : Text} (hne : k ≠ []) (hall : ∀ c ∈ k, isKeyChar c = true) (t : Text) :
    named? (k ++ '=' :: t) = some (named k (assigned t).1, (assigned t).2) :=
  @named?_of_key_blanks k [] hne hall (fun _ h => absurd h List.not_mem_nil) t

/-- What does not start with a key is a positional value. -/
theorem named?_of_quote {q : Char} (hq : isQuote q = true) (t : Text) : named? (q :: t) = none := by
  obtain ⟨-, -, -, -, hkey⟩ := of_isQuote hq
  rw [named?, List.takeWhile_cons, hkey]
  rfl

/-- Blanks in front of a quote are passed over. -/
theorem assigned_of_blanks_quote {blanks : Text} (hblanks : ∀ c ∈ blanks, isBlank c = true)
    {q : Char} (hq : isQuote q = true) (t : Text) : assigned (blanks ++ q :: t) = quoted q t := by
  obtain ⟨-, -, -, hblank, -⟩ := of_isQuote hq
  have hquote : ∀ c ∈ (q :: t).head?, isBlank c = false := fun c hc => Option.some.inj hc ▸ hblank
  unfold assigned
  rw [Text.trimStart, (Text.takeWhile_append hblanks hquote).2]
  dsimp only
  rw [if_pos hq]

theorem assigned_of_quote {q : Char} (hq : isQuote q = true) (t : Text) :
    assigned (q :: t) = quoted q t :=
  @assigned_of_blanks_quote [] (fun _ h => absurd h List.not_mem_nil) q hq t

/-- The value of a token. -/
def text : AttrToken → Text
  | positional v => v
  | named _ v => v

/-- Tokens are written without a character that stands in none of their values, where
    it is no key character and has no meaning in a list. -/
theorem not_mem_writtenList {tokens : List (Char × AttrToken)} {d : Char} (hd : d ≠ '\\')
    (hspace : d ≠ ' ') (hkey : isKeyChar d = false ∧ d ≠ '=')
    (h : ∀ p ∈ tokens, d ≠ p.1 ∧ d ∉ p.2.text ∧ p.2.HasKey) : d ∉ writtenList tokens := by
  induction tokens with
  | nil => exact List.not_mem_nil
  | cons p tokens ih =>
    obtain ⟨q, token⟩ := p
    obtain ⟨hq, htext, htoken⟩ := h _ List.mem_cons_self
    have hrest := ih fun p hp => h p (List.mem_cons_of_mem _ hp)
    cases token with
    | positional v =>
      have hescape : d ∉ escape q v := not_mem_escape hd htext
      simp [writtenList, written, hspace, hq, hescape, hrest]
    | named k v =>
      have hk : d ∉ k := fun hmem => by
        rw [htoken.2 d hmem] at hkey
        exact absurd hkey.1 (by decide)
      have hescape : d ∉ escape q v := not_mem_escape hd htext
      simp [writtenList, written, hspace, hq, hk, hkey.2, hescape, hrest]

/-- A written token is read back. -/
theorem read_written {q : Char} {token : AttrToken} (hq : isQuote q = true) (hkey : token.HasKey)
    (rest : Text) : read (token.written q ++ rest) = (token, rest) := by
  obtain ⟨hbackslash, -⟩ := of_isQuote hq
  cases token with
  | positional v =>
    rw [written_positional_append, read, named?_of_quote hq, value, if_pos hq,
      quoted_escape hbackslash]
  | named k v =>
    rw [written_named_append, read, named?_of_key hkey.1 hkey.2, assigned_of_quote hq,
      quoted_escape hbackslash]

/-- A written token starts with no blank. -/
theorem exists_cons_written {q : Char} {token : AttrToken} (hq : isQuote q = true)
    (hkey : token.HasKey) : ∃ c t, token.written q = c :: t ∧ isBlank c = false := by
  cases token with
  | positional v =>
    obtain ⟨-, -, -, hblank, -⟩ := of_isQuote hq
    exact ⟨q, _, rfl, hblank⟩
  | named k v =>
    obtain ⟨c, k, rfl⟩ := List.exists_cons_of_ne_nil hkey.1
    exact ⟨c, _, rfl, not_isBlank_of_isKeyChar (hkey.2 c List.mem_cons_self)⟩

/-- Blanks in front of a written token are passed over. -/
theorem trimStart_written {q : Char} {token : AttrToken} (hq : isQuote q = true)
    (hkey : token.HasKey) (t : Text) :
    Text.trimStart (' ' :: (token.written q ++ t)) = token.written q ++ t := by
  obtain ⟨c, w, hwritten, hblank⟩ := exists_cons_written hq hkey
  rw [hwritten, Text.trimStart, List.dropWhile_cons, if_pos (by decide)]
  exact Text.trimStart_eq_self hblank

theorem list_of_trimStart_eq_nil {t : Text} (h : Text.trimStart t = []) : list t = [] := by
  rw [list]
  split
  · rfl
  next hc =>
    rw [h] at hc
    exact absurd hc (by simp)

theorem list_of_trimStart_eq_cons {t r : Text} {c : Char} (h : Text.trimStart t = c :: r) :
    list t = (read (c :: r)).1 :: list (read (c :: r)).2 := by
  rw [list]
  split
  next hc =>
    rw [h] at hc
    exact absurd hc (by simp)
  next c' r' hc =>
    rw [h] at hc
    obtain ⟨rfl, rfl⟩ := List.cons.inj hc
    rfl

/-- Blanks in front of a list do not matter. -/
theorem list_trimStart (t : Text) : list (Text.trimStart t) = list t := by
  have htrim : Text.trimStart (Text.trimStart t) = Text.trimStart t := by
    cases h : Text.trimStart t with
    | nil => rfl
    | cons c r => exact Text.trimStart_eq_self (isBlank_head_trimStart h)
  cases h : Text.trimStart t with
  | nil => rw [list_of_trimStart_eq_nil h, list_of_trimStart_eq_nil rfl]
  | cons c r =>
    rw [h] at htrim
    rw [list_of_trimStart_eq_cons h, list_of_trimStart_eq_cons htrim]

/-- A written list is read back. -/
theorem list_written {tokens : List (Char × AttrToken)} (h : Writable tokens) :
    list (writtenList tokens) = tokens.map (·.2) := by
  induction tokens with
  | nil =>
    rw [writtenList, list_of_trimStart_eq_nil rfl]
    rfl
  | cons p tokens ih =>
    obtain ⟨q, token⟩ := p
    obtain ⟨hq, hkey⟩ := h _ List.mem_cons_self
    obtain ⟨c, t, hwritten, -⟩ := exists_cons_written hq hkey
    have htrim := trimStart_written hq hkey (writtenList tokens)
    rw [hwritten, List.cons_append] at htrim
    rw [writtenList, hwritten, List.cons_append, list_of_trimStart_eq_cons htrim,
      ← List.cons_append, ← hwritten, read_written hq hkey,
      ih fun p hp => h p (List.mem_cons_of_mem _ hp)]
    rfl

/-! ## Where lists end -/

/-- A written token ends with the quote behind its value. -/
theorem getLast?_written (q : Char) (token : AttrToken) : (token.written q).getLast? = some q := by
  cases token <;> simp [written, List.getLast?_cons, List.getLast?_append]

/-- A written list ends with the quote behind its last value. -/
theorem isQuote_of_getLast? {tokens : List (Char × AttrToken)} (h : Writable tokens) {c : Char}
    (hc : (writtenList tokens).getLast? = some c) : isQuote c = true := by
  induction tokens with
  | nil => exact absurd hc (by simp [writtenList])
  | cons p tokens ih =>
    rw [writtenList, List.getLast?_cons, List.getLast?_append, getLast?_written,
      Option.some.injEq] at hc
    cases hl : (writtenList tokens).getLast? with
    | none =>
      rw [hl] at hc
      exact hc ▸ (h p List.mem_cons_self).1
    | some d =>
      rw [hl] at hc
      exact ih (fun p hp => h p (List.mem_cons_of_mem _ hp)) (hl.trans (congrArg some hc))

/-- A trimmed list ends as the list does. -/
theorem isQuote_of_getLast?_trimStart {tokens : List (Char × AttrToken)} (h : Writable tokens)
    {c : Char} (hc : (Text.trimStart (writtenList tokens)).getLast? = some c) :
    isQuote c = true := by
  obtain ⟨blanks, hblanks⟩ := List.dropWhile_suffix (l := writtenList tokens) isBlank
  refine isQuote_of_getLast? h ?_
  rw [← hblanks, List.getLast?_append]
  exact congrArg (Option.or · _) hc

/-- Blanks stand in front of a list only. -/
theorem trimStart_written_append {tokens : List (Char × AttrToken)} (h : Writable tokens)
    {u : Text} (hu : Text.trimStart u = u) :
    Text.trimStart (writtenList tokens ++ u) = Text.trimStart (writtenList tokens) ++ u := by
  cases tokens with
  | nil => exact hu
  | cons p tokens =>
    obtain ⟨hq, hkey⟩ := h p List.mem_cons_self
    rw [writtenList, List.cons_append, List.append_assoc, trimStart_written hq hkey,
      trimStart_written hq hkey, List.append_assoc]

/-! ## Storing tokens -/

/-- The name of a named token. -/
def name? : AttrToken → Option Text
  | positional _ => none
  | named k _ => some k

end AttrToken

namespace Attributes

/-- The entries that tokens make, the positional ones numbered from `next` on. -/
def number (next : Nat) : List AttrToken → List (AttrKey × Text)
  | [] => []
  | .positional v :: tokens => (.position next, v) :: number (next + 1) tokens
  | .named k v :: tokens => (.name k, v) :: number next tokens

/-- A key that is absent is assigned at the end. -/
theorem assign_of_not_mem {key : AttrKey} {entries : List (AttrKey × Text)}
    (h : key ∉ entries.map (·.1)) (value : Text) :
    assign key value entries = entries ++ [(key, value)] := by
  induction entries with
  | nil => rfl
  | cons entry entries ih =>
    obtain ⟨k, v⟩ := entry
    rw [List.map_cons, List.mem_cons, not_or] at h
    rw [assign, if_neg (Ne.symm h.1), ih h.2]
    rfl

/-- Tokens of different names are stored one behind the other. -/
theorem ofTokens_eq {next : Nat} {entries : List (AttrKey × Text)} {tokens : List AttrToken}
    (hnodup : (tokens.filterMap AttrToken.name?).Nodup)
    (hnames : ∀ k ∈ tokens.filterMap AttrToken.name?, .name k ∉ entries.map (·.1))
    (hpositions : ∀ i, .position i ∈ entries.map (·.1) → i < next) :
    ofTokens next ⟨entries⟩ tokens = ⟨entries ++ number next tokens⟩ := by
  induction tokens generalizing next entries with
  | nil => rw [ofTokens, number, List.append_nil]
  | cons token tokens ih =>
    -- one more entry: its key is new, so it goes to the end
    have hstep {key : AttrKey} {value : Text} {next' : Nat}
        (hkey : key ∉ entries.map (·.1)) (hnodup' : (tokens.filterMap AttrToken.name?).Nodup)
        (hnames' : ∀ k ∈ tokens.filterMap AttrToken.name?,
          .name k ∉ entries.map (·.1) ∧ .name k ≠ key)
        (hpositions' : ∀ i, .position i ∈ entries.map (·.1) ∨ .position i = key → i < next') :
        ofTokens next' (insert ⟨entries⟩ key value) tokens =
          ⟨entries ++ (key, value) :: number next' tokens⟩ := by
      rw [insert, assign_of_not_mem hkey, List.append_cons entries _ (number next' tokens)]
      refine ih hnodup' (fun k hk h => ?_) fun i h => ?_
      · rw [List.map_append, List.mem_append, List.map_singleton, List.mem_singleton] at h
        exact h.elim (hnames' k hk).1 (hnames' k hk).2
      · rw [List.map_append, List.mem_append, List.map_singleton, List.mem_singleton] at h
        exact hpositions' i h
    cases token with
    | positional v =>
      refine hstep (fun h => Nat.lt_irrefl next (hpositions next h)) hnodup
        (fun k hk => ⟨hnames k hk, by simp⟩) fun i h => ?_
      rcases h with h | h
      · exact Nat.lt_succ_of_lt (hpositions i h)
      · rw [AttrKey.position.inj h]
        exact Nat.lt_succ_self next
    | named k v =>
      have hcons : (AttrToken.named k v :: tokens).filterMap AttrToken.name? =
          k :: tokens.filterMap AttrToken.name? := rfl
      rw [hcons] at hnodup hnames
      rw [List.nodup_cons] at hnodup
      refine hstep (hnames k List.mem_cons_self) hnodup.2
        (fun k' hk' => ⟨hnames k' (List.mem_cons_of_mem _ hk'), fun h => ?_⟩) fun i h => ?_
      · exact hnodup.1 (AttrKey.name.inj h ▸ hk')
      · exact hpositions i (h.resolve_right (by simp))

/-- Attributes of different names are read back. -/
theorem read_written {tokens : List (Char × AttrToken)} (h : AttrToken.Writable tokens)
    (hnodup : ((tokens.map (·.2)).filterMap AttrToken.name?).Nodup) :
    read (AttrToken.writtenList tokens) = ⟨number 0 (tokens.map (·.2))⟩ := by
  rw [read, AttrToken.list_written h, empty, ofTokens_eq hnodup (fun _ _ => List.not_mem_nil)
    fun _ h => absurd h List.not_mem_nil, List.nil_append]

end Attributes

end Shortcode
