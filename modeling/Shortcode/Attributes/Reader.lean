import Shortcode.Attributes.Basic
import Shortcode.Text.Blank

/-!
# Reading attributes

An attribute list is a row of *tokens* separated by blanks. A token is `key=value`
or a value alone, and a value is quoted by `"` or `'`, or bare. In quotes a
backslash protects the quote and itself; before any other character it stands for
itself. A quote without its end runs to the end of the list, so that reading
never fails.

Blanks behind `=` are passed over only if a quoted value follows them: `alt= class=x`
has an empty `alt` and a separate `class`.

* `length_token_lt`: a token takes at least one character, so `tokens` ends.
-/

namespace Shortcode

/-- A token of an attribute list. -/
inductive AttrToken
  | positional (value : Text)
  | named (key value : Text)
  deriving DecidableEq, Repr

/-- Whether `c` is one of the two quotes. -/
def isQuote (c : Char) : Bool :=
  c == '"' || c == '\''

/-- Whether `c` may occur in the name of an attribute. -/
def isKeyChar (c : Char) : Bool :=
  c.isAlphanum || c == '_' || c == '-' || c == '.'

namespace AttrToken

/-- Reads a value behind its opening `quote`: the value, and the text behind the
    closing quote. -/
def quoted (quote : Char) : Text → Text × Text
  | [] => ([], [])
  | '\\' :: c :: t =>
    let (value, rest) := quoted quote t
    if c = quote ∨ c = '\\' then (c :: value, rest) else ('\\' :: c :: value, rest)
  | c :: t =>
    if c = quote then ([], t)
    else
      let (value, rest) := quoted quote t
      (c :: value, rest)

/-- Reads a bare value: everything up to the next blank. -/
def bare (t : Text) : Text × Text :=
  (t.takeWhile (!isBlank ·), t.dropWhile (!isBlank ·))

/-- Reads a value without a key. -/
def value : Text → Text × Text
  | [] => ([], [])
  | c :: t => if isQuote c then quoted c t else bare (c :: t)

/-- Reads the value behind a `=`. -/
def assigned (t : Text) : Text × Text :=
  match Text.trimStart t with
  | c :: rest =>
    if isQuote c then quoted c rest
    else match t with
      | [] => ([], [])
      | d :: _ => if isBlank d then ([], t) else bare t
  | [] => ([], t)

/-- Reads `key=value`, if that is what stands in front. -/
def named? (t : Text) : Option (AttrToken × Text) :=
  let key := t.takeWhile isKeyChar
  if key.isEmpty then none
  else match Text.trimStart (t.dropWhile isKeyChar) with
    | '=' :: rest => let (value, rest) := assigned rest; some (named key value, rest)
    | _ => none

/-- Reads one token of a text that starts with no blank. -/
def read (t : Text) : AttrToken × Text :=
  match named? t with
  | some found => found
  | none => let (value, rest) := value t; (positional value, rest)

theorem length_quoted_le (quote : Char) (t : Text) : (quoted quote t).2.length ≤ t.length := by
  fun_induction quoted quote t with
  | case1 => simp
  | case2 c t v r h hc ih => simp_all; omega
  | case3 c t v r h hc ih => simp_all; omega
  | case4 c t => simp
  | case5 c t _ hc v r h ih => simp_all; omega

theorem length_bare_le (t : Text) : (bare t).2.length ≤ t.length :=
  (List.dropWhile_sublist _).length_le

theorem length_assigned_le (t : Text) : (assigned t).2.length ≤ t.length := by
  have htrim := Text.length_trimStart_le t
  unfold assigned
  split
  next c rest h =>
    rw [h] at htrim
    simp only [List.length_cons] at htrim
    split
    · have := length_quoted_le c rest
      omega
    · split
      · simp
      · split
        · simp
        · exact length_bare_le _
  next => simp

theorem length_named_lt {t rest : Text} {token : AttrToken} (h : named? t = some (token, rest)) :
    rest.length < t.length := by
  unfold named? at h
  simp only at h
  split at h
  · simp at h
  next hkey =>
    split at h
    next tail htail =>
      simp only [Option.some.injEq, Prod.mk.injEq] at h
      obtain ⟨-, rfl⟩ := h
      have h1 := length_assigned_le tail
      have h2 := Text.length_trimStart_le (t.dropWhile isKeyChar)
      have h3 : (t.dropWhile isKeyChar).length ≤ t.length :=
        (List.dropWhile_sublist _).length_le
      rw [htail, List.length_cons] at h2
      omega
    · simp at h

theorem length_value_lt {c : Char} {t : Text} (hc : isBlank c = false) :
    (value (c :: t)).2.length < (c :: t).length := by
  show (if isQuote c then quoted c t else bare (c :: t)).2.length < (c :: t).length
  rw [List.length_cons]
  split
  · have := length_quoted_le c t
    omega
  · have : (t.dropWhile (!isBlank ·)).length ≤ t.length := (List.dropWhile_sublist _).length_le
    simp only [bare, List.dropWhile_cons, hc, Bool.not_false, if_true]
    omega

theorem length_token_lt {c : Char} {t : Text} (hc : isBlank c = false) :
    (read (c :: t)).2.length < (c :: t).length := by
  unfold read
  split
  next found h => exact length_named_lt h
  next => exact length_value_lt hc

end AttrToken

theorem isBlank_head_trimStart {s t : Text} {c : Char} (h : Text.trimStart s = c :: t) :
    isBlank c = false := by
  have := List.head?_dropWhile_not isBlank s
  unfold Text.trimStart at h
  simpa [h] using this

/-- The tokens of an attribute list, in order. -/
def AttrToken.list (t : Text) : List AttrToken :=
  match _h : Text.trimStart t with
  | [] => []
  | c :: r => (read (c :: r)).1 :: AttrToken.list (read (c :: r)).2
termination_by t.length
decreasing_by
  have h1 := length_token_lt (t := r) (isBlank_head_trimStart _h)
  have h2 := Text.length_trimStart_le t
  rw [_h] at h2
  omega

namespace Attributes

/-- Stores tokens in order, the positional ones under consecutive numbers from
    `next` on. -/
def ofTokens (next : Nat) (attrs : Attributes) : List AttrToken → Attributes
  | [] => attrs
  | .positional value :: rest => ofTokens (next + 1) (attrs.insert (.position next) value) rest
  | .named key value :: rest => ofTokens next (attrs.insert (.name key) value) rest

/-- The attributes written in a text. -/
def read (t : Text) : Attributes :=
  ofTokens 0 empty (AttrToken.list t)

end Attributes

end Shortcode
