import Shortcode.Toml.Value
import Shortcode.Toml.Quoted
import Shortcode.Text.Natural

/-!
# Plain values of a TOML document

Truth values, numbers, dates and times are runs of letters, digits and signs. An
integer is decimal, or hexadecimal, octal or binary behind `0x`, `0o` or `0b`; an
underscore may stand between two digits. Of numbers with a fraction and of moments
only the form is checked.
-/

namespace Shortcode.Toml

/-- Whether `c` may occur in a plain value. -/
def isPlainValueChar (c : Char) : Bool :=
  c.isAlphanum || c == '_' || c == '+' || c == '-' || c == '.' || c == ':'

/-- The value of a digit of a base. -/
def digit? (base : Nat) (c : Char) : Option Nat :=
  (hexDigit? c).filter (· < base)

/-- The number that digits of a base stand for, behind a digit; an underscore has to
    stand between two digits. -/
def moreDigits? (base value : Nat) : Text → Option Nat
  | [] => some value
  | '_' :: c :: t => (digit? base c).bind fun d => moreDigits? base (value * base + d) t
  | c :: t => (digit? base c).bind fun d => moreDigits? base (value * base + d) t

/-- The number that digits of a base stand for. -/
def digitRun? (base : Nat) : Text → Option Nat
  | [] => none
  | c :: t => (digit? base c).bind fun d => moreDigits? base d t

/-- The number that decimal digits stand for, of which the first is no needless
    zero. -/
def wholeNumber? (t : Text) : Option Nat :=
  match t with
  | '0' :: _ :: _ => none
  | t => digitRun? 10 t

/-- A text without a sign in front, and whether the sign was a minus. -/
def splitSign : Text → Bool × Text
  | '-' :: t => (true, t)
  | '+' :: t => (false, t)
  | t => (false, t)

/-- The integer a text stands for. -/
def integer? (t : Text) : Option Int :=
  let found : Option Int := match t with
    | '0' :: 'x' :: t => (digitRun? 16 t).map Int.ofNat
    | '0' :: 'o' :: t => (digitRun? 8 t).map Int.ofNat
    | '0' :: 'b' :: t => (digitRun? 2 t).map Int.ofNat
    | t =>
      let (minus, digits) := splitSign t
      (wholeNumber? digits).map fun n => if minus then -Int.ofNat n else Int.ofNat n
  found.filter fun n => -Int.pow 2 127 ≤ n && n < Int.pow 2 128

/-- Whether a text is an exponent behind its letter. -/
def isExponent (t : Text) : Bool :=
  (digitRun? 10 (splitSign t).2).isSome

/-- Whether a text is a floating point number. -/
def isFloat (t : Text) : Bool :=
  let t := (splitSign t).2
  if t = "inf".toList || t = "nan".toList then true
  else
    let whole := t.takeWhile fun c => c.isDigit || c == '_'
    let rest := t.dropWhile fun c => c.isDigit || c == '_'
    (wholeNumber? whole).isSome &&
      match rest with
      | '.' :: t =>
        let places := t.takeWhile fun c => c.isDigit || c == '_'
        (digitRun? 10 places).isSome &&
          match t.dropWhile fun c => c.isDigit || c == '_' with
          | [] => true
          | c :: t => (c == 'e' || c == 'E') && isExponent t
      | c :: t => (c == 'e' || c == 'E') && isExponent t
      | [] => false

/-- Reads a number of exactly `count` decimal digits, between two bounds. -/
def field? (count low high : Nat) (t : Text) : Option (Nat × Text) :=
  let digits := t.take count
  if digits.length = count && digits.all Char.isDigit then
    ((digits? 0 digits).filter fun n => low ≤ n && n ≤ high).map (·, t.drop count)
  else none

/-- The number of days of a month. -/
def monthDays (year month : Nat) : Nat :=
  if month = 2 then
    if year % 4 = 0 && (year % 100 != 0 || year % 400 == 0) then 29 else 28
  else if month = 4 || month = 6 || month = 9 || month = 11 then 30
  else 31

/-- Reads a date. -/
def date? (t : Text) : Option Text :=
  match field? 4 0 9999 t with
  | some (year, '-' :: t) =>
    match field? 2 1 12 t with
    | some (month, '-' :: t) => (field? 2 1 (monthDays year month) t).map (·.2)
    | _ => none
  | _ => none

/-- Reads the seconds of a time with their fraction, which may be missing. -/
def seconds? : Text → Option Text
  | ':' :: t =>
    match field? 2 0 60 t with
    | some (_, '.' :: t) =>
      if (t.takeWhile Char.isDigit).isEmpty then none else some (t.dropWhile Char.isDigit)
    | some (_, t) => some t
    | none => none
  | t => some t

/-- Reads a time of day. -/
def time? (t : Text) : Option Text :=
  match field? 2 0 23 t with
  | some (_, ':' :: t) => (field? 2 0 59 t).bind fun (_, t) => seconds? t
  | _ => none

/-- Whether a text is an offset from universal time, or empty. -/
def isZone : Text → Bool
  | [] => true
  | ['Z'] => true
  | ['z'] => true
  | c :: t =>
    (c == '+' || c == '-') &&
      match field? 2 0 23 t with
      | some (_, ':' :: t) => ((field? 2 0 59 t).map (·.2.isEmpty)).getD false
      | _ => false

/-- Whether a text is a date, a time or both. -/
def isMoment (t : Text) : Bool :=
  match date? t with
  | some [] => true
  | some (c :: t) =>
    (c == 'T' || c == 't' || c == ' ') && ((time? t).map isZone).getD false
  | none => time? t == some []

/-- The plain value that a text stands for. -/
def plainValue? (t : Text) : Option Value :=
  if t = "true".toList then some (.boolean true)
  else if t = "false".toList then some (.boolean false)
  else match integer? t with
    | some n => some (.integer n)
    | none => if isFloat t then some .float else if isMoment t then some .moment else none

/-- The run of characters of a plain value, which may go on behind a space if it is
    a date. -/
def plainRun (t : Text) : Text × Text :=
  let run := t.takeWhile isPlainValueChar
  match t.dropWhile isPlainValueChar with
  | ' ' :: c :: rest =>
    if date? run == some [] && c.isDigit then
      (run ++ ' ' :: (c :: rest).takeWhile isPlainValueChar, (c :: rest).dropWhile isPlainValueChar)
    else (run, ' ' :: c :: rest)
  | rest => (run, rest)

/-- Reads the plain value a text begins with. -/
def plain? (t : Text) : Option (Value × Text) :=
  let (run, rest) := plainRun t
  (plainValue? run).map (·, rest)

end Shortcode.Toml
