import Mathlib.Data.List.Induction
import Shortcode.Proofs.Quoting

/-!
# Spellings of attributes

A token can be spelled in more than one way. Its value stands in quotes of either kind, or
bare; in a named token blanks may stand in front of the `=`, and behind it if a quote
follows. A bare value ends at a blank, so it has none in it, and it must not look like
another spelling: it starts with no quote, and by itself it must not start like a named
token. Between two tokens stand blanks, as many as one likes.

Whichever spellings are chosen, the tokens are read back. What could go wrong is that a
bare value without a key is taken for a key with its `=` behind the blanks; but no token is
spelled with a `=` at its start.

* `AttrToken.Spells`: the texts that spell a token.
* `AttrToken.read_of_spells`: a spelled token is read back, and nothing behind it.
* `AttrToken.list_of_spellsList`: so is a row of them.
* `spelled_attributes_read_back`: the attributes are those of the tokens in their order.
-/

namespace Shortcode

namespace AttrToken

/-! ## Spelled tokens -/

/-- A value that can stand without quotes. -/
structure IsBare (v : Text) : Prop where
  ne_nil : v ≠ []
  not_blank : ∀ c ∈ v, isBlank c = false
  not_quote : ∀ c ∈ v.head?, isQuote c = false

instance (v : Text) : Decidable (IsBare v) :=
  decidable_of_iff (v ≠ [] ∧ v.all (!isBlank ·) = true ∧ v.head?.all (!isQuote ·) = true)
    ⟨fun ⟨hne, hblank, hquote⟩ => ⟨hne,
      fun c hc => Bool.not_eq_true' _ ▸ List.all_eq_true.1 hblank c hc,
      fun c hc => Bool.not_eq_true' _ ▸ (Option.all_eq_true _ _).1 hquote c hc⟩,
    fun ⟨hne, hblank, hquote⟩ => ⟨hne,
      List.all_eq_true.2 fun c hc => Bool.not_eq_true' _ ▸ hblank c hc,
      (Option.all_eq_true _ _).2 fun c hc => Bool.not_eq_true' _ ▸ hquote c hc⟩⟩

/-- The texts that spell a token. -/
inductive Spells : AttrToken → Text → Prop
  /-- A value in quotes. -/
  | quoted {q : Char} {v : Text} (hq : isQuote q = true) :
      Spells (positional v) (q :: (escape q v ++ [q]))
  /-- A bare value, which starts with no `=`, neither by itself nor behind a key. -/
  | bare {v : Text} (hv : IsBare v) (heq : '=' ∉ (v.dropWhile isKeyChar).head?) :
      Spells (positional v) v
  /-- A key and a value in quotes, with blanks around the `=`. -/
  | keyQuoted {k v before behind : Text} {q : Char} (hk : (named k v).HasKey)
      (hbefore : IsBlank before) (hbehind : IsBlank behind) (hq : isQuote q = true) :
      Spells (named k v) (k ++ (before ++ '=' :: (behind ++ q :: (escape q v ++ [q]))))
  /-- A key and a bare value, with blanks in front of the `=`. -/
  | keyBare {k v before : Text} (hk : (named k v).HasKey) (hbefore : IsBlank before)
      (hv : IsBare v) : Spells (named k v) (k ++ (before ++ '=' :: v))

/-- The texts that spell a row of tokens: behind each token there is a blank, or the end. -/
inductive SpellsList : List AttrToken → Text → Prop
  | nil {blanks : Text} (h : IsBlank blanks) : SpellsList [] blanks
  | cons {token : AttrToken} {tokens : List AttrToken} {blanks s t : Text}
      (hblanks : IsBlank blanks) (hs : Spells token s) (ht : SpellsList tokens t)
      (hend : ∀ c ∈ t.head?, isBlank c = true) : SpellsList (token :: tokens) (blanks ++ (s ++ t))

/-- A spelled token starts with no blank and with no `=`. -/
theorem Spells.exists_cons {token : AttrToken} {s : Text} (h : Spells token s) :
    ∃ c r, s = c :: r ∧ isBlank c = false ∧ c ≠ '=' := by
  have hkey {k v r : Text} (hk : (named k v).HasKey) :
      ∃ c r', k ++ r = c :: r' ∧ isBlank c = false ∧ c ≠ '=' := by
    obtain ⟨c, k, rfl⟩ := List.exists_cons_of_ne_nil hk.1
    have hc := hk.2 c List.mem_cons_self
    exact ⟨c, k ++ r, rfl, not_isBlank_of_isKeyChar hc, (of_isKeyChar hc).2.2.1⟩
  cases h with
  | @quoted q v hq =>
    refine ⟨q, _, rfl, (of_isQuote hq).2.2.2.1, ?_⟩
    rintro rfl
    exact absurd hq (by decide)
  | bare hv heq =>
    obtain ⟨c, v, rfl⟩ := List.exists_cons_of_ne_nil hv.ne_nil
    refine ⟨c, v, rfl, hv.not_blank c List.mem_cons_self, ?_⟩
    rintro rfl
    exact heq rfl
  | keyQuoted hk hbefore hbehind hq => exact hkey hk
  | keyBare hk hbefore hv => exact hkey hk

/-- A row of tokens starts with no `=` behind its blanks. -/
theorem SpellsList.head?_trimStart_ne {tokens : List AttrToken} {t : Text}
    (h : SpellsList tokens t) : '=' ∉ (Text.trimStart t).head? := by
  cases h with
  | nil hblank =>
    rw [← List.append_nil t, Text.trimStart_append_of_isBlank hblank]
    exact Option.not_mem_none _
  | cons hblanks hs ht hend =>
    obtain ⟨c, r, rfl, hc, hne⟩ := hs.exists_cons
    rw [Text.trimStart_append_of_isBlank hblanks, List.cons_append, Text.trimStart_eq_self hc]
    exact fun h => hne (Option.some.inj h)

/-! ## Spelled tokens are read back -/

section

variable {t : Text} (hend : ∀ c ∈ t.head?, isBlank c = true)

include hend

/-- A bare value is read up to the blank behind it. -/
theorem bare_append {v : Text} (hv : IsBare v) : bare (v ++ t) = (v, t) := by
  have hall : ∀ c ∈ v, (!isBlank c) = true := fun c hc => by rw [hv.not_blank c hc]; rfl
  have hstop : ∀ c ∈ t.head?, (!isBlank c) = false := fun c hc => by rw [hend c hc]; rfl
  obtain ⟨htake, hdrop⟩ := Text.takeWhile_append hall hstop
  rw [bare, htake, hdrop]

/-- A bare value without a key is read up to the blank behind it. -/
theorem value_of_isBare {v : Text} (hv : IsBare v) : value (v ++ t) = (v, t) := by
  obtain ⟨c, r, rfl⟩ := List.exists_cons_of_ne_nil hv.ne_nil
  rw [List.cons_append, value, hv.not_quote c rfl]
  exact bare_append hend hv

/-- A bare value behind a `=` is read up to the blank behind it. -/
theorem assigned_of_isBare {v : Text} (hv : IsBare v) : assigned (v ++ t) = (v, t) := by
  obtain ⟨c, r, rfl⟩ := List.exists_cons_of_ne_nil hv.ne_nil
  have hc := hv.not_blank c List.mem_cons_self
  unfold assigned
  rw [List.cons_append, Text.trimStart_eq_self hc]
  dsimp only
  rw [hv.not_quote c rfl, if_neg (by decide), hc, if_neg (by decide)]
  exact bare_append hend hv

/-- A bare value is no named token if no `=` stands behind the key that it starts with, nor
    behind the blanks behind it. -/
theorem named?_of_isBare {v : Text} (hv : IsBare v) (heq : '=' ∉ (v.dropWhile isKeyChar).head?)
    (ht : '=' ∉ (Text.trimStart t).head?) : named? (v ++ t) = none := by
  have hhead : '=' ∉ (Text.trimStart ((v ++ t).dropWhile isKeyChar)).head? := by
    cases hdrop : v.dropWhile isKeyChar with
    | nil =>
      -- the whole value is a key, and the blanks behind it belong to no token
      have hdrop' : (v ++ t).dropWhile isKeyChar = t.dropWhile isKeyChar :=
        List.dropWhile_append_of_pos (List.dropWhile_eq_nil_iff.1 hdrop)
      have ht' : t.dropWhile isKeyChar = t := by
        cases t with
        | nil => rfl
        | cons c t =>
          refine List.dropWhile_cons_of_neg fun hc => ?_
          exact absurd (hend c rfl) (by simp [not_isBlank_of_isKeyChar hc])
      rw [hdrop', ht']
      exact ht
    | cons c r =>
      have hdrop' : (v ++ t).dropWhile isKeyChar = c :: (r ++ t) := by
        rw [List.dropWhile_append, hdrop]
        rfl
      have hc : c ∈ v := (List.dropWhile_sublist isKeyChar).subset (hdrop ▸ List.mem_cons_self)
      rw [hdrop', Text.trimStart_eq_self (hv.not_blank c hc)]
      rw [hdrop] at heq
      exact heq
  rw [named?]
  dsimp only
  split
  · rfl
  split
  next rest htrim =>
    rw [htrim] at hhead
    exact absurd rfl hhead
  · rfl

end

/-- A spelled token is read back, where it ends and no `=` follows. -/
theorem read_of_spells {token : AttrToken} {s t : Text} (hs : Spells token s)
    (hend : ∀ c ∈ t.head?, isBlank c = true) (ht : '=' ∉ (Text.trimStart t).head?) :
    read (s ++ t) = (token, t) := by
  cases hs with
  | @quoted q v hq =>
    have happend : q :: (escape q v ++ [q]) ++ t = q :: (escape q v ++ q :: t) := by simp
    rw [happend, read, named?_of_quote hq, value, if_pos hq, quoted_escape (of_isQuote hq).1]
  | bare hv heq => rw [read, named?_of_isBare hend hv heq ht, value_of_isBare hend hv]
  | @keyQuoted k v before behind q hk hbefore hbehind hq =>
    have happend : k ++ (before ++ '=' :: (behind ++ q :: (escape q v ++ [q]))) ++ t =
        k ++ (before ++ '=' :: (behind ++ q :: (escape q v ++ q :: t))) := by simp
    rw [happend, read, named?_of_key_blanks hk.1 hk.2 hbefore, assigned_of_blanks_quote hbehind hq,
      quoted_escape (of_isQuote hq).1]
  | @keyBare k v before hk hbefore hv =>
    have happend : k ++ (before ++ '=' :: v) ++ t = k ++ (before ++ '=' :: (v ++ t)) := by simp
    rw [happend, read, named?_of_key_blanks hk.1 hk.2 hbefore, assigned_of_isBare hend hv]

/-- A row of spelled tokens is read back. -/
theorem list_of_spellsList {tokens : List AttrToken} {t : Text} (h : SpellsList tokens t) :
    list t = tokens := by
  induction h with
  | nil hblank => exact list_of_trimStart_eq_nil (Text.trimStart_eq_nil_iff.2 hblank)
  | @cons token tokens blanks s t hblanks hs ht hend ih =>
    have hread := read_of_spells hs hend ht.head?_trimStart_ne
    obtain ⟨c, r, rfl, hc, -⟩ := hs.exists_cons
    have htrim : Text.trimStart (blanks ++ (c :: r ++ t)) = c :: (r ++ t) := by
      rw [Text.trimStart_append_of_isBlank hblanks, List.cons_append, Text.trimStart_eq_self hc]
    rw [list_of_trimStart_eq_cons htrim, ← List.cons_append, hread, ih]

end AttrToken

/-! ## Storing tokens in order -/

namespace Attributes

/-- Tokens are stored by inserting their entries one by one. -/
theorem ofTokens_eq_foldl (next : Nat) (attrs : Attributes) (tokens : List AttrToken) :
    ofTokens next attrs tokens =
      (number next tokens).foldl (fun attrs entry => attrs.insert entry.1 entry.2) attrs := by
  induction tokens generalizing next attrs with
  | nil => rfl
  | cons token tokens ih =>
    cases token with
    | positional v => exact ih _ _
    | named k v => exact ih _ _

theorem ofList_append (entries : List (AttrKey × Text)) (key : AttrKey) (value : Text) :
    ofList (entries ++ [(key, value)]) = (ofList entries).insert key value :=
  List.foldl_append

/-- A key that is there keeps its place. -/
theorem map_fst_assign_of_mem {key : AttrKey} {entries : List (AttrKey × Text)}
    (h : key ∈ entries.map (·.1)) (value : Text) :
    (assign key value entries).map (·.1) = entries.map (·.1) := by
  induction entries with
  | nil => exact absurd h List.not_mem_nil
  | cons entry entries ih =>
    obtain ⟨k, v⟩ := entry
    rw [assign]
    split
    next hk => rw [List.map_cons, List.map_cons, hk]
    next hk =>
      rw [List.map_cons, List.mem_cons] at h
      rw [List.map_cons, List.map_cons, ih (h.resolve_left fun h => hk h.symm)]

/-- A key that is new stands behind the others. -/
theorem keys_insert (attrs : Attributes) (key : AttrKey) (value : Text) :
    (attrs.insert key value).keys =
      if key ∈ attrs.keys then attrs.keys else attrs.keys ++ [key] := by
  split
  next hkey => exact map_fst_assign_of_mem hkey value
  next hkey =>
    rw [keys, insert, assign_of_not_mem hkey, List.map_append]
    rfl

/-- The keys stand in the order of their first entries. -/
theorem keys_ofList (entries : List (AttrKey × Text)) :
    (ofList entries).keys = (entries.map (·.1)).eraseDups := by
  induction entries using List.reverseRecOn with
  | nil => rfl
  | append_singleton entries entry ih =>
    obtain ⟨key, value⟩ := entry
    have hsingle : [key].eraseDups = [key] := rfl
    rw [List.map_append, List.map_singleton, List.eraseDups_append, ← ih, ofList_append,
      keys_insert]
    by_cases hkey : key ∈ entries.map (·.1)
    · have hmem : key ∈ (ofList entries).keys := by rwa [ih, List.mem_eraseDups]
      rw [if_pos hmem]
      simp [List.removeAll, hkey]
    · have hmem : key ∉ (ofList entries).keys := by rwa [ih, List.mem_eraseDups]
      rw [if_neg hmem]
      simp [List.removeAll, hkey, hsingle]

/-- A key has the value of its last entry. -/
theorem lookup?_ofList (entries : List (AttrKey × Text)) (key : AttrKey) :
    (ofList entries).lookup? key = entries.reverse.lookup key := by
  induction entries using List.reverseRecOn with
  | nil => rfl
  | append_singleton entries entry ih =>
    obtain ⟨k, value⟩ := entry
    rw [ofList_append, List.reverse_append, List.reverse_singleton, List.singleton_append]
    by_cases hk : key = k
    · subst hk
      rw [List.lookup_cons_self]
      exact lookup_assign_self _ _ _
    · have hk' : (key == k) = false := by simpa using hk
      rw [List.lookup_cons, hk', ← ih]
      exact lookup_assign_of_ne _ _ hk

end Attributes

/-- Spelled attributes are read back, whatever spellings are chosen: the entries of the
    tokens are inserted in order, the positional ones under consecutive numbers. A name that
    is given again keeps its first place and has its last value. -/
theorem spelled_attributes_read_back {tokens : List AttrToken} {t : Text}
    (h : AttrToken.SpellsList tokens t) :
    let entries := Attributes.number 0 tokens
    Attributes.read t = Attributes.ofList entries ∧
      (Attributes.read t).keys = (entries.map (·.1)).eraseDups ∧
      ∀ key, (Attributes.read t).lookup? key = entries.reverse.lookup key := by
  intro entries
  have hread : Attributes.read t = Attributes.ofList entries := by
    rw [Attributes.read, AttrToken.list_of_spellsList h, Attributes.ofTokens_eq_foldl]
    rfl
  rw [hread]
  exact ⟨rfl, Attributes.keys_ofList entries, Attributes.lookup?_ofList entries⟩

/-- A row of tokens in each of the spellings, with a name that is given twice. -/
theorem spelled_attributes_mixed :
    let tokens : List AttrToken :=
      [.positional ['a'], .named ['k'] "it's".toList, .named ['k'] "=2".toList,
        .positional "= ".toList, .positional "/x=1".toList]
    let t : Text := "\ta k = 'it\\'s'\nk ==2 \"= \" /x=1 ".toList
    AttrToken.SpellsList tokens t ∧
      Attributes.read t = ⟨[(.position 0, ['a']), (.name ['k'], "=2".toList),
        (.position 1, "= ".toList), (.position 2, "/x=1".toList)]⟩ := by
  intro tokens t
  have hkey : ['k'] ≠ [] ∧ ∀ c ∈ ['k'], isKeyChar c = true :=
    ⟨by decide, List.all_eq_true.1 (by decide)⟩
  have hspace : IsBlank [' '] := by decide
  have hslash : AttrToken.Spells (.positional "/x=1".toList) "/x=1".toList :=
    .bare (by decide) (by decide)
  have hequals : AttrToken.Spells (.positional "= ".toList) "\"= \"".toList :=
    .quoted (by decide : isQuote '"' = true)
  have hagain : AttrToken.Spells (.named ['k'] "=2".toList) "k ==2".toList :=
    .keyBare hkey hspace (by decide)
  have hfirst : AttrToken.Spells (.named ['k'] "it's".toList) "k = 'it\\'s'".toList :=
    .keyQuoted hkey hspace hspace (by decide : isQuote '\'' = true)
  have ha : AttrToken.Spells (.positional ['a']) ['a'] :=
    .bare (by decide) (by decide)
  have hstop {c : Char} {r : Text} (hc : isBlank c = true) :
      ∀ d ∈ (c :: r).head?, isBlank d = true := fun d hd => Option.some.inj hd ▸ hc
  have hrow : AttrToken.SpellsList tokens t :=
    .cons (by decide : IsBlank ['\t']) ha
      (.cons hspace hfirst
        (.cons (by decide : IsBlank ['\n']) hagain
          (.cons hspace hequals
            (.cons hspace hslash (.nil hspace) (hstop rfl)) (hstop rfl)) (hstop rfl))
        (hstop rfl)) (hstop rfl)
  obtain ⟨hread, -⟩ := spelled_attributes_read_back hrow
  exact ⟨hrow, hread.trans (by decide)⟩

end Shortcode
