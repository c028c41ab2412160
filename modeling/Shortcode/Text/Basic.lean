/-!
# Text

Documents, names and values are texts: lists of characters, read from the left.
Where a place in a document is reported, it is counted in bytes of UTF-8, so
every text has a *size* beside its length.

* `size_append`: sizes add up under concatenation.
* `takeSize_append_dropSize`: cutting a text at a size loses nothing.
* `dropSize_size_append`: the first part of a text can be cut off by its size.
* `splitAt?_eq_some_iff`: a text is split at the first separator.
* `after?_eq_some_iff`: what `after?` leaves makes up the text with what it removed.
-/

namespace Shortcode

/-- A piece of text: its characters, in order. -/
abbrev Text := List Char

namespace Text

/-- The number of bytes a text takes in UTF-8. -/
def size : Text → Nat
  | [] => 0
  | c :: t => c.utf8Size + size t

@[simp] theorem size_nil : size [] = 0 := rfl

@[simp] theorem size_cons (c : Char) (t : Text) : size (c :: t) = c.utf8Size + size t := rfl

@[simp] theorem size_append (s t : Text) : size (s ++ t) = size s + size t := by
  induction s with
  | nil => simp
  | cons c s ih => simp only [List.cons_append, size_cons, ih]; omega

/-- The longest start of a text that takes at most `n` bytes. -/
def takeSize (n : Nat) : Text → Text
  | [] => []
  | c :: t => if c.utf8Size ≤ n then c :: takeSize (n - c.utf8Size) t else []

/-- What is left of a text behind `takeSize n`. -/
def dropSize (n : Nat) : Text → Text
  | [] => []
  | c :: t => if c.utf8Size ≤ n then dropSize (n - c.utf8Size) t else c :: t

theorem takeSize_append_dropSize (n : Nat) (t : Text) : takeSize n t ++ dropSize n t = t := by
  induction t generalizing n with
  | nil => rfl
  | cons c t ih =>
    by_cases h : c.utf8Size ≤ n
    · simp [takeSize, dropSize, h, ih]
    · simp [takeSize, dropSize, h]

theorem dropSize_size_append (s t : Text) : dropSize s.size (s ++ t) = t := by
  induction s with
  | nil =>
    cases t with
    | nil => rfl
    | cons c t => simp [dropSize, Nat.not_le.mpr c.utf8Size_pos]
  | cons c s ih => simp [dropSize, ih]

theorem takeSize_size_append (s t : Text) : takeSize s.size (s ++ t) = s := by
  induction s with
  | nil =>
    cases t with
    | nil => rfl
    | cons c t => simp [takeSize, Nat.not_le.mpr c.utf8Size_pos]
  | cons c s ih => simp [takeSize, ih]

theorem length_dropSize_le (n : Nat) (t : Text) : (dropSize n t).length ≤ t.length := by
  induction t generalizing n with
  | nil => simp [dropSize]
  | cons c t ih =>
    by_cases h : c.utf8Size ≤ n
    · simpa [dropSize, h] using Nat.le_succ_of_le (ih _)
    · simp [dropSize, h]

/-- The text from the byte offset `n` on; `none` beyond the end or inside a
    character. -/
def from? (n : Nat) (t : Text) : Option Text :=
  if (takeSize n t).size = n then some (dropSize n t) else none

/-- The parts of a text before and behind the first `c`; `none` without one. -/
def splitAt? (c : Char) : Text → Option (Text × Text)
  | [] => none
  | d :: t => if d = c then some ([], t) else (splitAt? c t).map fun (s, r) => (d :: s, r)

/-- The parts of a text between the separators `c`; a text without one is a
    single part. -/
def splitOn (c : Char) : Text → List Text
  | [] => [[]]
  | d :: t =>
    if d = c then [] :: splitOn c t
    else match splitOn c t with
      | [] => [[d]]
      | p :: ps => (d :: p) :: ps

/-- The texts in order, with `sep` between each two. -/
def join (sep : Text) : List Text → Text
  | [] => []
  | [t] => t
  | t :: ts => t ++ sep ++ join sep ts

/-- What is left of a text without the copies of `c` it starts with. -/
def dropLeading (c : Char) (t : Text) : Text :=
  t.dropWhile (· = c)

/-- What is left of a text without the copies of `c` it ends with. -/
def dropTrailing (c : Char) (t : Text) : Text :=
  (t.reverse.dropWhile (· = c)).reverse

/-- A text whose ASCII letters are lower case. -/
def lowerAscii (t : Text) : Text :=
  t.map Char.toLower

/-- `none` for the empty text. -/
def nonEmpty? (t : Text) : Option Text :=
  if t.isEmpty then none else some t

/-- What is left of a text that starts with `start`, without it. -/
def after? : (start : Text) → Text → Option Text
  | [], t => some t
  | _ :: _, [] => none
  | s :: start, c :: t => if s = c then after? start t else none

/-- Texts are joined as lists are. -/
theorem join_eq_intercalate (sep : Text) (ts : List Text) : join sep ts = sep.intercalate ts := by
  fun_induction join sep ts with
  | case1 => rfl
  | case2 t => rw [List.intercalate_singleton]
  | case3 t ts hne ih =>
    obtain ⟨u, ts, rfl⟩ := List.exists_cons_of_ne_nil hne
    rw [List.intercalate_cons_cons, ih]

theorem splitAt?_eq_some_iff {c : Char} {t s r : Text} :
    splitAt? c t = some (s, r) ↔ t = s ++ c :: r ∧ c ∉ s := by
  induction t generalizing s with
  | nil => simp [splitAt?]
  | cons d t ih =>
    by_cases hd : d = c
    · subst hd
      cases s with
      | nil => simp [splitAt?]
      | cons e s => simp +contextual [splitAt?]
    · cases s with
      | nil => simp [splitAt?, hd]
      | cons e s =>
        simp only [splitAt?, hd, if_false, Option.map_eq_some_iff, Prod.exists, Prod.mk.injEq,
          List.cons.injEq, List.cons_append, List.mem_cons, not_or]
        constructor
        · rintro ⟨s', r', h, ⟨rfl, rfl⟩, rfl⟩
          exact ⟨⟨rfl, (ih.1 h).1⟩, Ne.symm hd, (ih.1 h).2⟩
        · rintro ⟨⟨rfl, h⟩, -, hs⟩
          exact ⟨s, r, ih.2 ⟨h, hs⟩, ⟨rfl, rfl⟩, rfl⟩

theorem splitAt?_eq_none_iff {c : Char} {t : Text} : splitAt? c t = none ↔ c ∉ t := by
  induction t with
  | nil => simp [splitAt?]
  | cons d t ih =>
    by_cases hd : d = c
    · simp [splitAt?, hd]
    · simp [splitAt?, hd, ih, Ne.symm hd]

theorem nonEmpty?_eq_some_iff {s t : Text} : nonEmpty? s = some t ↔ s = t ∧ t ≠ [] := by
  cases s with
  | nil => exact ⟨nofun, fun h => absurd h.1.symm h.2⟩
  | cons c s =>
    constructor
    · rintro ⟨⟩
      exact ⟨rfl, List.cons_ne_nil c s⟩
    · rintro ⟨rfl, -⟩
      rfl

theorem nonEmpty?_eq_none_iff {t : Text} : nonEmpty? t = none ↔ t = [] := by
  cases t with
  | nil => exact ⟨fun _ => rfl, fun _ => rfl⟩
  | cons c t => exact ⟨nofun, nofun⟩

/-- A text that has to be there and not empty. -/
theorem bind_nonEmpty?_eq_some_iff {o : Option Text} {t : Text} :
    o.bind nonEmpty? = some t ↔ o = some t ∧ t ≠ [] := by
  rw [Option.bind_eq_some_iff]
  simp only [nonEmpty?_eq_some_iff]
  constructor
  · rintro ⟨s, rfl, rfl, hne⟩
    exact ⟨rfl, hne⟩
  · rintro ⟨rfl, hne⟩
    exact ⟨t, rfl, rfl, hne⟩

theorem bind_nonEmpty?_eq_none_iff {o : Option Text} :
    o.bind nonEmpty? = none ↔ ∀ t, o = some t → t = [] := by
  simp only [Option.bind_eq_none_iff, nonEmpty?_eq_none_iff]

theorem length_of_splitAt {c : Char} {t s r : Text} (h : splitAt? c t = some (s, r)) :
    t.length = s.length + r.length + 1 := by
  rw [(splitAt?_eq_some_iff.1 h).1, List.length_append, List.length_cons, Nat.add_assoc]

theorem after?_eq_some_iff {start t rest : Text} :
    after? start t = some rest ↔ t = start ++ rest := by
  induction start generalizing t with
  | nil => simp [after?, eq_comm]
  | cons s start ih =>
    cases t with
    | nil => simp [after?]
    | cons c t =>
      by_cases h : s = c
      · simp [after?, h, ih]
      · simp [after?, h, eq_comm]

/-- Whether a text starts with `start`. -/
def startsWith (t start : Text) : Bool :=
  (after? start t).isSome

/-- Whether a text comes before another one in the order of code points, or is the
    same. -/
def le (s t : Text) : Bool :=
  !decide (t < s)

/-- Whether `part` occurs in a text. -/
def includes (part : Text) : Text → Bool
  | [] => part.isEmpty
  | c :: t => startsWith (c :: t) part || includes part t

end Text

end Shortcode
