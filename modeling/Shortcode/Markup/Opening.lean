import Shortcode.Text.Blank
import Shortcode.Attributes.Reader

/-!
# Opening tags

An opening tag is `[name`, a *body* and `]`. The name is a run of letters,
digits, `_` and `-`, and a blank, a `/`, a `]` or the end of the text stands
behind it. The body holds the attributes; a `/` at its end makes the tag
*self-closing*.

Where the body ends depends on its quotes. In the strict reading a quote at the
start of a value hides brackets up to the next such quote, which must end the
value. If a quote has no such partner, the lenient reading applies: the body ends
at the first `]`. An unquoted `[` makes the text no tag in either reading.

* `Opening.source_append_of_read`: an opening tag and what is left behind it make
  up the text they were read from.
* `Opening.length_lt_of_read`: what is left is shorter, so a scan advances.
-/

namespace Shortcode

/-- Whether `c` may occur in the name of a tag. -/
def isNameChar (c : Char) : Bool :=
  c.isAlphanum || c == '_' || c == '-'

/-- Whether `name` can be the name of a tag. -/
def isTagName (name : Text) : Bool :=
  !name.isEmpty && name.all isNameChar

/-- Whether a name or a quoted value may end in front of a text. -/
def endsToken : Text → Bool
  | [] => true
  | c :: _ => isBlank c || c == '/' || c == ']'

/-- An opening tag: its name and everything between the name and the `]`. -/
structure Opening where
  name : Text
  body : Text
  deriving DecidableEq, Repr

namespace Opening

/-- The opening tag as written. -/
def source (o : Opening) : Text :=
  '[' :: (o.name ++ o.body ++ [']'])

/-- Whether the body ends with a `/`. -/
def selfClosing (o : Opening) : Bool :=
  (Text.trim o.body).getLast? == some '/'

/-- The text of the attributes: the body without blanks around it and without
    the `/` of a self-closing tag. -/
def attrText (o : Opening) : Text :=
  if o.selfClosing then Text.trimEnd (Text.trim o.body).dropLast else Text.trim o.body

/-- The attributes of the tag. -/
def attrs (o : Opening) : Attributes :=
  Attributes.read o.attrText

/-- The name behind the `[` a text starts with, and the text behind the name. -/
def name? : Text → Option (Text × Text)
  | '[' :: t =>
    let name := t.takeWhile isNameChar
    let rest := t.dropWhile isNameChar
    if !name.isEmpty && endsToken rest then some (name, rest) else none
  | _ => none

/-- The outcome of the strict reading of a body. -/
inductive Strict
  /-- The body ends at a `]` outside quotes, with `rest` behind it. -/
  | ends (body rest : Text)
  /-- The text ends, or a `[` stands, outside quotes. -/
  | refused
  /-- A quote has no partner that ends its value. -/
  | unpaired
  deriving DecidableEq, Repr

/-- A strict reading with `c` in front of its body. -/
def Strict.push (c : Char) : Strict → Strict
  | ends body rest => ends (c :: body) rest
  | refused => refused
  | unpaired => unpaired

/-- Reads a body strictly. `quote` is the quote that is open, and `boundary` tells
    whether a quote would start a value here. -/
def strict (quote : Option Char) (boundary : Bool) : Text → Strict
  | [] => if quote.isSome then .unpaired else .refused
  | c :: t =>
    match quote with
    | some q =>
      if c = '\\' then
        -- the character behind a backslash is passed over, be it a quote
        match t with
        | [] => .unpaired
        | d :: t => ((strict quote boundary t).push d).push c
      else if c = q then
        if endsToken t then (strict none boundary t).push c else .unpaired
      else (strict quote boundary t).push c
    | none =>
      if c = ']' then .ends [] t
      else if c = '[' then .refused
      else if boundary && isQuote c then (strict (some c) false t).push c
      else (strict none (isBlank c || c == '=') t).push c

/-- Reads a body leniently: up to the first `]`, unless a `[` stands before it. -/
def lenient (t : Text) : Option (Text × Text) :=
  match Text.splitAt? ']' t with
  | some (body, rest) => if body.contains '[' then none else some (body, rest)
  | none => none

/-- Reads a body and the `]` behind it. -/
def body? (t : Text) : Option (Text × Text) :=
  match strict none true t with
  | .ends body rest => some (body, rest)
  | .refused => none
  | .unpaired => lenient t

/-- Reads the opening tag a text starts with: the tag, and the text behind it. -/
def read? (t : Text) : Option (Opening × Text) :=
  match name? t with
  | some (name, t) => (body? t).map fun (body, rest) => (⟨name, body⟩, rest)
  | none => none

theorem Strict.push_eq_ends_iff {c : Char} {s : Strict} {body rest : Text} :
    s.push c = .ends body rest ↔ ∃ b, body = c :: b ∧ s = .ends b rest := by
  cases s with
  | ends b r =>
    rw [Strict.push, Strict.ends.injEq]
    constructor
    · rintro ⟨rfl, rfl⟩
      exact ⟨b, rfl, rfl⟩
    · rintro ⟨b, rfl, h⟩
      obtain ⟨rfl, rfl⟩ := Strict.ends.inj h
      exact ⟨rfl, rfl⟩
  | refused => simp [Strict.push]
  | unpaired => simp [Strict.push]

theorem Strict.push_eq_ends_cons_iff {c : Char} {s : Strict} {body rest : Text} :
    s.push c = .ends (c :: body) rest ↔ s = .ends body rest := by
  cases s <;> simp [Strict.push]

theorem append_of_strict {quote : Option Char} {boundary : Bool} {t body rest : Text}
    (h : strict quote boundary t = .ends body rest) : body ++ ']' :: rest = t := by
  fun_induction strict quote boundary t generalizing body with
  | case1 => simp at h
  | case2 => simp at h
  | case3 => simp at h
  | case4 boundary q d t ih =>
    obtain ⟨b₁, rfl, h₁⟩ := Strict.push_eq_ends_iff.1 h
    obtain ⟨b₂, rfl, h₂⟩ := Strict.push_eq_ends_iff.1 h₁
    simp [ih h₂]
  | case5 boundary t c he hc ih =>
    obtain ⟨b, rfl, hb⟩ := Strict.push_eq_ends_iff.1 h
    simp [ih hb]
  | case6 => simp at h
  | case7 boundary c t q hc hq ih =>
    obtain ⟨b, rfl, hb⟩ := Strict.push_eq_ends_iff.1 h
    simp [ih hb]
  | case8 =>
    simp only [Strict.ends.injEq] at h
    obtain ⟨rfl, rfl⟩ := h
    rfl
  | case9 => simp at h
  | case10 boundary c t h1 h2 hq ih =>
    obtain ⟨b, rfl, hb⟩ := Strict.push_eq_ends_iff.1 h
    simp [ih hb]
  | case11 boundary c t h1 h2 hq ih =>
    obtain ⟨b, rfl, hb⟩ := Strict.push_eq_ends_iff.1 h
    simp [ih hb]

theorem append_of_body {t body rest : Text} (h : body? t = some (body, rest)) :
    body ++ ']' :: rest = t := by
  unfold body? at h
  split at h
  next hs =>
    simp only [Option.some.injEq, Prod.mk.injEq] at h
    obtain ⟨rfl, rfl⟩ := h
    exact append_of_strict hs
  · simp at h
  next =>
    unfold lenient at h
    split at h
    next hs =>
      split at h
      · simp at h
      · simp only [Option.some.injEq, Prod.mk.injEq] at h
        obtain ⟨rfl, rfl⟩ := h
        exact (Text.splitAt?_eq_some_iff.1 hs).1.symm
    · simp at h

theorem append_of_name {t name rest : Text} (h : name? t = some (name, rest)) :
    '[' :: (name ++ rest) = t := by
  unfold name? at h
  split at h
  · simp only at h
    split at h
    · simp only [Option.some.injEq, Prod.mk.injEq] at h
      obtain ⟨rfl, rfl⟩ := h
      rw [List.takeWhile_append_dropWhile]
    · simp at h
  · simp at h

/-- An opening tag and what is left behind it make up the text. -/
theorem source_append_of_read {t rest : Text} {o : Opening} (h : read? t = some (o, rest)) :
    o.source ++ rest = t := by
  unfold read? at h
  split at h
  next name t' hn =>
    simp only [Option.map_eq_some_iff, Prod.exists] at h
    obtain ⟨body, rest', hb, he⟩ := h
    simp only [Prod.mk.injEq] at he
    obtain ⟨rfl, rfl⟩ := he
    have h1 := append_of_name hn
    have h2 := append_of_body hb
    rw [← h1, ← h2]
    simp [source]
  · simp at h

theorem length_lt_of_read {t rest : Text} {o : Opening} (h : read? t = some (o, rest)) :
    rest.length < t.length := by
  have := congrArg List.length (source_append_of_read h)
  simp only [source, List.length_append, List.length_cons] at this
  omega

end Opening

end Shortcode
