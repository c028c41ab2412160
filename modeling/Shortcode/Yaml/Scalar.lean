import Shortcode.Text.Natural
import Shortcode.Yaml.Glyph

/-!
# Scalars

A scalar is written plain, in quotes, or as a block of lines. In the first two forms
it may run over several lines: the blanks around a line end do not count, one line
end becomes a space, and of several ones the first is dropped. A block keeps its line
ends, or folds them in the same way between lines that begin with no blank.

* `length_escape_lt`: an escape takes at least one character.
-/

namespace Shortcode.Yaml

/-- What stands between two words of a scalar. -/
inductive Gap
  | none
  /-- Blanks inside a line. -/
  | blanks (run : Text)
  /-- Line ends; the first one is missing if it was escaped. -/
  | breaks (first : Option Char) (more : Text)
  deriving DecidableEq, Repr

namespace Gap

/-- A gap followed by a blank. Behind a line end blanks do not count. -/
def addBlank (c : Char) : Gap → Gap
  | none => blanks [c]
  | blanks run => blanks (run ++ [c])
  | breaks first more => breaks first more

/-- A gap followed by a line end. Blanks in front of it do not count. -/
def addBreak (c : Char) : Gap → Gap
  | none => breaks (some c) []
  | blanks _ => breaks (some c) []
  | breaks first more => breaks first (more ++ [c])

/-- Whether a gap holds a line end. -/
def isBroken : Gap → Bool
  | breaks _ _ => true
  | _ => false

/-- The text that a gap stands for. -/
def text : Gap → Text
  | none => []
  | blanks run => run
  | breaks (some '\n') [] => [' ']
  | breaks (some '\n') more => more
  | breaks (some c) more => c :: more
  | breaks Option.none more => more

end Gap

/-- Whether `c` closes or separates items inside brackets. -/
def isFlowMark (c : Char) : Bool :=
  c == ',' || c == '[' || c == ']' || c == '\x7b' || c == '\x7d'

/-- A plain scalar, its text, the gap behind it, and the rest. -/
structure PlainScalar where
  text : Text
  gap : Gap
  rest : Glyphs

/-- Reads a plain scalar behind the text `done`, in reverse, and a gap. Outside of
    brackets its lines have to be indented by `indent`. -/
def plain? (flow : Bool) (indent : Int) (done : Text) (gap : Gap) :
    Glyphs → Option PlainScalar
  | [] => some ⟨done.reverse, gap, []⟩
  | g :: rest =>
    if isGap g.char then
      -- a tab cannot indent a line
      if gap.isBroken && g.char == '\t' && g.column < indent then none
      else plain? flow indent done (gap.addBlank g.char) rest
    else if isBreak g.char then plain? flow indent done (gap.addBreak g.char) rest
    else if gap ≠ .none ∧ ((!flow && g.column < indent) ∨ g.char = '#' ∨
        Glyphs.startsMark (g :: rest)) then
      some ⟨done.reverse, gap, g :: rest⟩
    else if flow && g.char == ':' && (Glyphs.char? rest).any (fun c => isFlowMark c || c == '?') then
      none
    else if (g.char = ':' ∧ Glyphs.endsWord rest) ∨ (flow ∧ isFlowMark g.char) then
      some ⟨done.reverse, gap, g :: rest⟩
    else plain? flow indent (g.char :: (gap.text.reverse ++ done)) .none rest

/-- Reads a scalar in single quotes behind the opening one. A quote is written
    twice. -/
def single? (done : Text) (gap : Gap) : Glyphs → Option (Text × Glyphs)
  | [] => none
  | g :: rest =>
    if isGap g.char then single? done (gap.addBlank g.char) rest
    else if isBreak g.char then single? done (gap.addBreak g.char) rest
    else if Glyphs.startsMark (g :: rest) then none
    else if g.char = '\'' then
      match rest with
      | h :: rest' =>
        if h.char = '\'' then single? ('\'' :: (gap.text.reverse ++ done)) .none rest'
        else some ((gap.text.reverse ++ done).reverse, h :: rest')
      | [] => some ((gap.text.reverse ++ done).reverse, [])
    else single? (g.char :: (gap.text.reverse ++ done)) .none rest

/-- The character that a letter behind a backslash stands for. -/
def escaped? : Char → Option Char
  | '0' => some '\x00'
  | 'a' => some '\x07'
  | 'b' => some '\x08'
  | 't' => some '\t'
  | '\t' => some '\t'
  | 'n' => some '\n'
  | 'v' => some '\x0b'
  | 'f' => some '\x0c'
  | 'r' => some '\r'
  | 'e' => some '\x1b'
  | ' ' => some ' '
  | '"' => some '"'
  | '/' => some '/'
  | '\\' => some '\\'
  | 'N' => some '\u0085'
  | '_' => some '\u00a0'
  | 'L' => some '\u2028'
  | 'P' => some '\u2029'
  | _ => none

/-- The number of hexadecimal digits behind a letter behind a backslash. -/
def hexLength? : Char → Option Nat
  | 'x' => some 2
  | 'u' => some 4
  | 'U' => some 8
  | _ => none

/-- Reads exactly `count` hexadecimal digits. -/
def hex? (count value : Nat) (gs : Glyphs) : Option (Nat × Glyphs) :=
  match count, gs with
  | 0, gs => some (value, gs)
  | _ + 1, [] => none
  | count + 1, g :: gs => (hexDigit? g.char).bind fun d => hex? count (value * 16 + d) gs

/-- Reads an escape behind its backslash. -/
def escape? : Glyphs → Option (Char × Glyphs)
  | [] => none
  | g :: rest =>
    match hexLength? g.char with
    | some count => (hex? count 0 rest).bind fun (n, rest) => (char? n).map (·, rest)
    | none => (escaped? g.char).map (·, rest)

theorem length_hex_le {count value n : Nat} {gs rest : Glyphs}
    (h : hex? count value gs = some (n, rest)) : rest.length ≤ gs.length := by
  induction count generalizing value gs with
  | zero =>
    simp only [hex?, Option.some.injEq, Prod.mk.injEq] at h
    simp [h.2]
  | succ count ih =>
    cases gs with
    | nil => simp [hex?] at h
    | cons g gs =>
      simp only [hex?, Option.bind_eq_some_iff] at h
      obtain ⟨d, -, h⟩ := h
      have := ih h
      simp only [List.length_cons]
      omega

theorem length_escape_lt {gs rest : Glyphs} {c : Char} (h : escape? gs = some (c, rest)) :
    rest.length < gs.length := by
  cases gs with
  | nil => simp [escape?] at h
  | cons g gs =>
    simp only [escape?] at h
    split at h
    · simp only [Option.bind_eq_some_iff, Option.map_eq_some_iff, Prod.exists,
        Prod.mk.injEq] at h
      obtain ⟨n, r, hr, _, -, -, rfl⟩ := h
      have := length_hex_le hr
      simp only [List.length_cons]
      omega
    · simp only [Option.map_eq_some_iff, Prod.mk.injEq] at h
      obtain ⟨_, -, -, rfl⟩ := h
      simp

/-- Reads a scalar in double quotes behind the opening one. A backslash begins an
    escape, or hides the end of a line. -/
def double? (done : Text) (gap : Gap) (gs : Glyphs) : Option (Text × Glyphs) :=
  match gs with
  | [] => none
  | g :: rest =>
    if isGap g.char then double? done (gap.addBlank g.char) rest
    else if isBreak g.char then double? done (gap.addBreak g.char) rest
    else if Glyphs.startsMark (g :: rest) then none
    else if g.char = '"' then some ((gap.text.reverse ++ done).reverse, rest)
    else if g.char = '\\' then
      match rest with
      | [] => none
      | h :: rest' =>
        if isBreak h.char then double? (gap.text.reverse ++ done) (.breaks none []) rest'
        else
          match _h : escape? (h :: rest') with
          | some (c, rest'') => double? (c :: (gap.text.reverse ++ done)) .none rest''
          | none => none
    else double? (g.char :: (gap.text.reverse ++ done)) .none rest
termination_by gs.length
decreasing_by
  · simp
  · simp
  · simp only [List.length_cons]; omega
  · have := length_escape_lt _h
    simp only [List.length_cons] at this ⊢
    omega
  · simp

/-- What happens to the line ends at the end of a block. -/
inductive Chomping
  /-- None is kept. -/
  | strip
  /-- One is kept. -/
  | clip
  /-- All are kept. -/
  | keep
  deriving DecidableEq, Repr

/-- The sign of a chomping. -/
def chomping? : Glyphs → Option (Chomping × Glyphs)
  | g :: rest =>
    if g.char = '+' then some (.keep, rest)
    else if g.char = '-' then some (.strip, rest)
    else none
  | [] => none

/-- The digit that gives the indentation of a block, `0` if there is none; not the
    digit zero itself. -/
def increment? : Glyphs → Option (Nat × Glyphs)
  | g :: rest =>
    if g.char = '0' then none
    else if g.char.isDigit then some (g.char.toNat - 48, rest)
    else some (0, g :: rest)
  | [] => some (0, [])

/-- Reads the signs behind the indicator of a block, in any order. -/
def blockSigns? (gs : Glyphs) : Option (Chomping × Nat × Glyphs) :=
  match chomping? gs with
  | some (chomping, rest) => (increment? rest).map fun (n, rest) => (chomping, n, rest)
  | none => do
    let (n, rest) ← increment? gs
    if n = 0 then pure (.clip, 0, rest)
    else match chomping? rest with
      | some (chomping, rest) => pure (chomping, n, rest)
      | none => pure (.clip, n, rest)

/-- Passes over the rest of the line of an indicator: blanks and a comment. -/
def blockHead? (gs : Glyphs) : Option Glyphs :=
  match gs.dropWhile fun g => isGap g.char with
  | [] => some []
  | g :: rest =>
    if isBreak g.char then some rest
    else if g.char = '#' then some ((rest.dropWhile fun h => !isBreak h.char).drop 1)
    else none

/-- Passes over blank lines and the indentation of the next line: the widest column
    that was reached, the line ends, in reverse, and the rest. The indentation is not
    known yet if `indent` is `0`. -/
def blockBreaks? (indent : Nat) (widest : Nat) (breaks : Text) :
    Glyphs → Option (Nat × Text × Glyphs)
  | [] => some (widest, breaks, [])
  | g :: rest =>
    let inside := indent = 0 ∨ g.column < indent
    if inside ∧ g.char = ' ' then blockBreaks? indent widest breaks rest
    else if inside ∧ g.char = '\t' then none
    else if isBreak g.char then
      blockBreaks? indent (max widest g.column) (g.char :: breaks) rest
    else some (max widest g.column, breaks, g :: rest)

theorem length_blockBreaks_le {indent widest w : Nat} {breaks b : Text} {gs rest : Glyphs}
    (h : blockBreaks? indent widest breaks gs = some (w, b, rest)) :
    rest.length ≤ gs.length := by
  induction gs generalizing widest breaks with
  | nil =>
    simp only [blockBreaks?, Option.some.injEq, Prod.mk.injEq] at h
    simp [← h.2.2]
  | cons g gs ih =>
    simp only [blockBreaks?] at h
    split at h
    · exact Nat.le_succ_of_le (ih h)
    · split at h
      · simp at h
      · split at h
        · exact Nat.le_succ_of_le (ih h)
        · simp only [Option.some.injEq, Prod.mk.injEq] at h
          simp [← h.2.2]

/-- The end of a block: the text, with the line ends that chomping leaves. -/
def chomp (chomping : Chomping) (done leading trailing : Text) : Text :=
  match chomping with
  | .strip => done
  | .clip => done ++ leading
  | .keep => done ++ leading ++ trailing

/-- Reads the lines of a block that is indented by `indent`, behind the text `done`,
    a line end `leading` and further ones `trailing`. The flag tells whether the line
    in front begins with a blank. -/
def blockLines? (literal : Bool) (chomping : Chomping) (indent : Nat) (done : Text)
    (blank : Bool) (leading trailing : Text) (gs : Glyphs) : Option (Text × Glyphs) :=
  match gs with
  | [] => some (chomp chomping done leading trailing, [])
  | g :: rest =>
    if g.column = indent then
      -- two lines are joined by a space if neither begins with a blank
      let blankHere := isGap g.char
      let joint :=
        if !literal && leading.head? == some '\n' && !blank && !blankHere then
          if trailing.isEmpty then [' '] else []
        else leading
      let done := done ++ joint ++ trailing ++
        Glyphs.text ((g :: rest).takeWhile fun h => !isBreak h.char)
      match _h : rest.dropWhile fun h => !isBreak h.char with
      | [] => some (chomp chomping done [] [], [])
      | b :: after =>
        match _h' : blockBreaks? indent 0 [] after with
        | some (_, breaks, after) =>
          blockLines? literal chomping indent done blankHere [b.char] breaks.reverse after
        | none => none
    else some (chomp chomping done leading trailing, g :: rest)
termination_by gs.length
decreasing_by
  have h₁ := length_blockBreaks_le _h'
  have h₂ : (rest.dropWhile fun h => !isBreak h.char).length ≤ rest.length :=
    (List.dropWhile_sublist _).length_le
  rw [_h] at h₂
  simp only [List.length_cons] at h₂ ⊢
  omega

/-- Reads a block behind its indicator, where `outer` is the indentation of what it
    stands in. -/
def block? (literal : Bool) (outer : Int) (gs : Glyphs) : Option (Text × Glyphs) := do
  let (chomping, increment, gs) ← blockSigns? gs
  let gs ← blockHead? gs
  let given := if increment = 0 then 0 else (max outer 0).toNat + increment
  let (widest, breaks, gs) ← blockBreaks? given 0 [] gs
  let indent := if given = 0 then max (max widest (outer + 1).toNat) 1 else given
  blockLines? literal chomping indent [] false [] breaks.reverse gs

end Shortcode.Yaml
