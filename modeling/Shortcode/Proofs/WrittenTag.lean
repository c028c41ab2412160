import Shortcode.Proofs.Quoting

/-!
# Writing tags

A tag with a written list of attributes ends where it was meant to end, whatever its
values hold: the strict reading passes each value up to the quote that ends it. So
the tag is read back with its attributes, and it is self-closing if it was written
with a `/`.

* `Opening.strict_written`: the strict reading goes on behind a written list.
* `Opening.read?_written`: a written tag is read back.
* `Opening.selfClosing_written`, `Opening.attrs_written`: and so is what it says.
-/

namespace Shortcode

namespace Opening

/-! ## Bodies -/

/-- A strict reading with a text in front of its body. -/
def Strict.prepend (s : Text) : Strict → Strict
  | ends body rest => ends (s ++ body) rest
  | refused => refused
  | unpaired => unpaired

theorem Strict.push_prepend (c : Char) (t : Text) (s : Strict) :
    (s.prepend t).push c = s.prepend (c :: t) := by
  cases s <;> rfl

theorem Strict.prepend_prepend (t u : Text) (s : Strict) :
    (s.prepend u).prepend t = s.prepend (t ++ u) := by
  cases s <;> simp [prepend]

theorem Strict.prepend_nil (s : Strict) : s.prepend [] = s := by
  cases s <;> rfl

theorem Strict.prepend_singleton (c : Char) (s : Strict) : s.prepend [c] = s.push c := by
  cases s <;> rfl

/-- Outside quotes a character that is no bracket and starts no value is passed. -/
theorem strict_pass {c : Char} {boundary : Bool} (hclose : c ≠ ']') (hopen : c ≠ '[')
    (hquote : (boundary && isQuote c) = false) (t : Text) :
    strict none boundary (c :: t) = (strict none (isBlank c || c == '=') t).push c := by
  simp [strict, hclose, hopen, hquote]

/-- A quote that starts a value opens it. -/
theorem strict_open {q : Char} (hq : isQuote q = true) (t : Text) :
    strict none true (q :: t) = (strict (some q) false t).push q := by
  obtain ⟨-, hclose, hopen, -⟩ := of_isQuote hq
  simp [strict, hclose, hopen, hq]

/-- An escaped value is passed up to the quote that ends it. -/
theorem strict_escaped {q : Char} (hq : q ≠ '\\') (boundary : Bool) (v : Text) {u : Text}
    (hend : endsToken u = true) :
    strict (some q) boundary (AttrToken.escape q v ++ q :: u) =
      (strict none boundary u).prepend (AttrToken.escape q v ++ [q]) := by
  induction v with
  | nil =>
    rw [AttrToken.escape, List.nil_append, List.nil_append, strict_quote hq, if_pos hend,
      Strict.prepend_singleton]
  | cons c v ih =>
    by_cases hc : c = q ∨ c = '\\'
    · rw [AttrToken.escape, if_pos hc, List.cons_append, List.cons_append, strict_escape, ih,
        Strict.push_prepend, Strict.push_prepend]
      rfl
    · rw [not_or] at hc
      rw [AttrToken.escape, if_neg (not_or.2 hc), List.cons_append, strict_inside hc.2 hc.1, ih,
        Strict.push_prepend]
      rfl

/-- A key is passed up to the `=` behind it, behind which a value starts. -/
theorem strict_key {k : Text} (h : ∀ c ∈ k, isKeyChar c = true) (boundary : Bool) (t : Text) :
    strict none boundary (k ++ '=' :: t) = (strict none true t).prepend (k ++ ['=']) := by
  induction k generalizing boundary with
  | nil =>
    have heq : (isBlank '=' || '=' == '=') = true := by decide
    rw [List.nil_append, strict_pass (by decide) (by decide) (by simp [isQuote]), heq,
      List.nil_append, Strict.prepend_singleton]
  | cons c k ih =>
    obtain ⟨hclose, hopen, -, hquote⟩ := of_isKeyChar (h c List.mem_cons_self)
    rw [List.cons_append, strict_pass hclose hopen (by rw [hquote, Bool.and_false]),
      ih fun c' hc' => h c' (List.mem_cons_of_mem _ hc'), Strict.push_prepend]
    rfl

/-- A written token is passed, where a token may end behind it. -/
theorem strict_token {q : Char} {token : AttrToken} (hq : isQuote q = true)
    (hkey : token.HasKey) {u : Text} (hend : endsToken u = true) :
    strict none true (token.written q ++ u) =
      (strict none false u).prepend (token.written q) := by
  obtain ⟨hbackslash, -⟩ := of_isQuote hq
  cases token with
  | positional v =>
    rw [AttrToken.written_positional_append, strict_open hq, strict_escaped hbackslash _ _ hend,
      Strict.push_prepend]
    rfl
  | named k v =>
    rw [AttrToken.written_named_append, strict_key hkey.2, strict_open hq,
      strict_escaped hbackslash _ _ hend, Strict.push_prepend, Strict.prepend_prepend]
    simp [AttrToken.written]

/-- A token may end in front of a written list. -/
theorem endsToken_written (tokens : List (Char × AttrToken)) {u : Text}
    (hend : endsToken u = true) : endsToken (AttrToken.writtenList tokens ++ u) = true := by
  cases tokens with
  | nil => exact hend
  | cons p tokens => rfl

/-- A written list is passed, where a token may end behind it. -/
theorem strict_written {tokens : List (Char × AttrToken)} (h : AttrToken.Writable tokens)
    {u : Text} {s : Strict} (hend : endsToken u = true)
    (hu : ∀ boundary, strict none boundary u = s) (boundary : Bool) :
    strict none boundary (AttrToken.writtenList tokens ++ u) =
      s.prepend (AttrToken.writtenList tokens) := by
  induction tokens generalizing boundary with
  | nil => rw [AttrToken.writtenList, List.nil_append, hu, Strict.prepend_nil]
  | cons p tokens ih =>
    obtain ⟨q, token⟩ := p
    obtain ⟨hq, hkey⟩ := h _ List.mem_cons_self
    -- the space makes a boundary, at which the quote of a value opens
    have hspace : (isBlank ' ' || ' ' == '=') = true := by decide
    rw [AttrToken.writtenList, List.cons_append, List.append_assoc,
      strict_pass (by decide) (by decide) (by simp [isQuote]), hspace,
      strict_token hq hkey (endsToken_written tokens hend),
      ih (fun p hp => h p (List.mem_cons_of_mem _ hp)), Strict.prepend_prepend,
      Strict.push_prepend]

/-! ## Written tags -/

/-- An opening tag with a written list of attributes, self-closing or not. -/
def written (name : Text) (tokens : List (Char × AttrToken)) (slash : Bool) : Opening :=
  ⟨name, AttrToken.writtenList tokens ++ if slash then ['/'] else []⟩

theorem body?_written {tokens : List (Char × AttrToken)} (h : AttrToken.Writable tokens)
    (name : Text) (slash : Bool) (rest : Text) :
    body? ((written name tokens slash).body ++ ']' :: rest) =
      some ((written name tokens slash).body, rest) := by
  cases slash with
  | false =>
    rw [body?, written, if_neg (by decide), List.append_nil,
      strict_written h (s := .ends [] rest) rfl fun _ => rfl]
    simp [Strict.prepend]
  | true =>
    have hstrict (boundary : Bool) :
        strict none boundary ('/' :: ']' :: rest) = .ends ['/'] rest := by
      rw [strict_pass (by decide) (by decide) (by simp [isQuote])]
      rfl
    rw [body?, written, if_pos rfl, List.append_assoc, List.singleton_append,
      strict_written h rfl hstrict]
    rfl

/-- A written tag is read back, whatever stands behind it. -/
theorem read?_written {name : Text} {tokens : List (Char × AttrToken)}
    (hname : isTagName name = true) (h : AttrToken.Writable tokens) (slash : Bool) (rest : Text) :
    read? ((written name tokens slash).source ++ rest) =
      some (written name tokens slash, rest) := by
  refine read?_eq_some_iff.2 ⟨by simp [source], hname, ?_, body?_written h name slash rest⟩
  rw [written, List.append_assoc]
  refine endsToken_written tokens ?_
  cases slash <;> rfl

variable {tokens : List (Char × AttrToken)}

theorem trim_written (name : Text) (h : AttrToken.Writable tokens) (slash : Bool) :
    Text.trim (written name tokens slash).body =
      Text.trimStart (AttrToken.writtenList tokens) ++ if slash then ['/'] else [] := by
  have hslash : Text.trimStart (if slash then ['/'] else []) = if slash then ['/'] else [] := by
    cases slash <;> rfl
  rw [Text.trim, written, AttrToken.trimStart_written_append h hslash]
  refine Text.trimEnd_eq_self fun c hc => ?_
  cases slash with
  | false =>
    rw [if_neg (by decide), List.append_nil] at hc
    exact (of_isQuote (AttrToken.isQuote_of_getLast?_trimStart h hc)).2.2.2.1
  | true =>
    rw [if_pos rfl, List.getLast?_concat, Option.some.injEq] at hc
    rw [← hc]
    decide

/-- A written tag is self-closing exactly if it is written so. -/
theorem selfClosing_written (name : Text) (h : AttrToken.Writable tokens) (slash : Bool) :
    (written name tokens slash).selfClosing = slash := by
  rw [selfClosing, trim_written name h]
  cases slash with
  | false =>
    rw [if_neg (by decide), List.append_nil, beq_eq_false_iff_ne]
    intro hc
    exact absurd (AttrToken.isQuote_of_getLast?_trimStart h hc) (by decide)
  | true => rw [if_pos rfl, List.getLast?_concat, beq_self_eq_true]

/-- A written tag has the attributes that are written in it. -/
theorem attrs_written (name : Text) (h : AttrToken.Writable tokens)
    (hnodup : ((tokens.map (·.2)).filterMap AttrToken.name?).Nodup) (slash : Bool) :
    (written name tokens slash).attrs = ⟨Attributes.number 0 (tokens.map (·.2))⟩ := by
  have htext : (written name tokens slash).attrText =
      Text.trimStart (AttrToken.writtenList tokens) := by
    rw [attrText, selfClosing_written name h, trim_written name h]
    cases slash with
    | false => rw [if_neg (by decide), if_neg (by decide), List.append_nil]
    | true =>
      rw [if_pos rfl, if_pos rfl, List.dropLast_concat]
      exact Text.trimEnd_eq_self fun c hc =>
        (of_isQuote (AttrToken.isQuote_of_getLast?_trimStart h hc)).2.2.2.1
  rw [attrs, htext, Attributes.read, AttrToken.list_trimStart, ← Attributes.read,
    Attributes.read_written h hnodup]

end Opening

end Shortcode
