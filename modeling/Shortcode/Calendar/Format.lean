import Shortcode.Calendar.DateTime
import Shortcode.Calendar.Locale
import Shortcode.Text.Natural

/-!
# Formats of dates and times

A format is a text with specifiers: `%` and a letter, such as `%Y` for the year.
Behind `%` a flag may choose how a number is filled up: `-` not at all, `_` with
spaces, `0` with zeros. A specifier can stand for several items; `%c`, `%x`, `%X`
and `%r` stand for a format of the locale. A flag belongs to a specifier that is a
single number; on a format of the locale it applies to its first specifier.

* `items_append_of_no_percent`: a text without `%` is copied.
-/

namespace Shortcode.Calendar

/-- How a number is filled up to its width. -/
inductive Padding
  | none
  | zero
  | space
  deriving DecidableEq, Repr

/-- A number that a moment has. -/
inductive Numeric
  | year
  | century
  | yearOfCentury
  | isoYear
  | isoYearOfCentury
  | quarter
  | month
  | day
  | weekFromSunday
  | weekFromMonday
  | isoWeek
  | weekday
  | isoWeekday
  | ordinal
  | hour
  | hour12
  | minute
  | second
  | nanosecond
  | timestamp
  deriving DecidableEq, Repr

/-- The way an offset from universal time is written. -/
inductive ZoneStyle
  | hours
  | compact
  | minutes
  | seconds
  deriving DecidableEq, Repr

/-- An item of a format. -/
inductive Item
  | literal (text : Text)
  | number (kind : Numeric) (padding : Padding)
  | shortMonth
  | month
  | shortDay
  | day
  | half
  | smallHalf
  /-- The fraction of the second, as long as need be. -/
  | fraction
  /-- The fraction of the second in a number of digits, behind the decimal point
      or without it. -/
  | digits (count : Nat) (point : Bool)
  | zone (style : ZoneStyle)
  /-- The moment as protocols write it. -/
  | stamp
  deriving DecidableEq, Repr

namespace Format

/-- The padding that a flag chooses. -/
def flag? : Char → Option Padding
  | '-' => some .none
  | '_' => some .space
  | '0' => some .zero
  | _ => none

/-- A number filled up with zeros. -/
def zeros (kind : Numeric) : Item :=
  .number kind .zero

/-- A single character. -/
def char (c : Char) : Item :=
  .literal [c]

/-- The items of a letter that means the same in every locale. -/
def letter? : Char → Option (List Item)
  | 'a' => some [.shortDay]
  | 'A' => some [.day]
  | 'b' => some [.shortMonth]
  | 'B' => some [.month]
  | 'h' => some [.shortMonth]
  | 'C' => some [zeros .century]
  | 'd' => some [zeros .day]
  | 'D' => some [zeros .month, char '/', zeros .day, char '/', zeros .yearOfCentury]
  | 'e' => some [.number .day .space]
  | 'F' => some [zeros .year, char '-', zeros .month, char '-', zeros .day]
  | 'f' => some [zeros .nanosecond]
  | 'g' => some [zeros .isoYearOfCentury]
  | 'G' => some [zeros .isoYear]
  | 'H' => some [zeros .hour]
  | 'I' => some [zeros .hour12]
  | 'j' => some [zeros .ordinal]
  | 'k' => some [.number .hour .space]
  | 'l' => some [.number .hour12 .space]
  | 'm' => some [zeros .month]
  | 'M' => some [zeros .minute]
  | 'n' => some [char '\n']
  | 'p' => some [.half]
  | 'P' => some [.smallHalf]
  | 'q' => some [.number .quarter .none]
  | 'R' => some [zeros .hour, char ':', zeros .minute]
  | 's' => some [.number .timestamp .none]
  | 'S' => some [zeros .second]
  | 't' => some [char '\t']
  | 'T' => some [zeros .hour, char ':', zeros .minute, char ':', zeros .second]
  | 'u' => some [.number .isoWeekday .none]
  | 'U' => some [zeros .weekFromSunday]
  | 'v' => some [.number .day .space, char '-', .shortMonth, char '-', zeros .year]
  | 'V' => some [zeros .isoWeek]
  | 'w' => some [.number .weekday .none]
  | 'W' => some [zeros .weekFromMonday]
  | 'y' => some [zeros .yearOfCentury]
  | 'Y' => some [zeros .year]
  | 'z' => some [.zone .compact]
  | 'Z' => some [.zone .minutes]
  | '+' => some [.stamp]
  | '%' => some [char '%']
  | _ => none

/-- Reads the rest of a specifier behind `%` and a flag: its items, and the text
    behind it. -/
def specifier? : Text → Option (List Item × Text)
  | ':' :: 'z' :: t => some ([.zone .minutes], t)
  | ':' :: ':' :: 'z' :: t => some ([.zone .seconds], t)
  | ':' :: ':' :: ':' :: 'z' :: t => some ([.zone .hours], t)
  | '.' :: 'f' :: t => some ([.fraction], t)
  | '.' :: '3' :: 'f' :: t => some ([.digits 3 true], t)
  | '.' :: '6' :: 'f' :: t => some ([.digits 6 true], t)
  | '.' :: '9' :: 'f' :: t => some ([.digits 9 true], t)
  | '3' :: 'f' :: t => some ([.digits 3 false], t)
  | '6' :: 'f' :: t => some ([.digits 6 false], t)
  | '9' :: 'f' :: t => some ([.digits 9 false], t)
  | c :: t => (letter? c).map fun items => (items, t)
  | [] => none

/-- The items of a specifier under a flag: it has to be a single number. -/
def flagged? (padding : Padding) : List Item → Option (List Item)
  | [.number kind _] => some [.number kind padding]
  | _ => none

/-- The items of a specifier under a flag that may be missing. -/
def underFlag? : Option Padding → List Item → Option (List Item)
  | none, items => some items
  | some padding, items => flagged? padding items

/-- Reads the flag in front of a specifier, if there is one. -/
def splitFlag (t : Text) : Option Padding × Text :=
  match t with
  | [] => (none, [])
  | c :: r =>
    match flag? c with
    | some padding => (some padding, r)
    | none => (none, c :: r)

/-- Reads a specifier behind its `%`, with the flag in front of it. -/
def flaggedSpecifier? (t : Text) : Option (List Item × Text) :=
  let (flag, r) := splitFlag t
  match specifier? r with
  | none => none
  | some (items, rest) => (underFlag? flag items).map fun items => (items, rest)

theorem length_specifier_lt {t rest : Text} {items : List Item}
    (h : specifier? t = some (items, rest)) : rest.length < t.length := by
  unfold specifier? at h
  split at h
  case h_11 =>
    simp only [Option.map_eq_some_iff, Prod.mk.injEq] at h
    obtain ⟨_, -, -, rfl⟩ := h
    simp
  case h_12 => simp at h
  all_goals
    simp only [Option.some.injEq, Prod.mk.injEq] at h
    obtain ⟨-, rfl⟩ := h
    simp only [List.length_cons]
    omega

theorem length_splitFlag_le (t : Text) : (splitFlag t).2.length ≤ t.length := by
  unfold splitFlag
  split
  · simp
  · split <;> simp

theorem length_flaggedSpecifier_lt {t rest : Text} {items : List Item}
    (h : flaggedSpecifier? t = some (items, rest)) : rest.length < t.length := by
  have hflag := length_splitFlag_le t
  unfold flaggedSpecifier? at h
  dsimp only at h
  split at h
  · simp at h
  next hs =>
    simp only [Option.map_eq_some_iff, Prod.mk.injEq] at h
    obtain ⟨_, -, -, rfl⟩ := h
    have := length_specifier_lt hs
    omega

/-- The items of a format of a locale, under a flag for its first specifier. -/
def localItems? (flag : Option Padding) (t : Text) : Option (List Item) :=
  match t with
  | [] => some []
  | '%' :: r =>
    match _h : flaggedSpecifier? r with
    | none => none
    | some (items, rest) => do
      let first ← underFlag? flag items
      let others ← localItems? none rest
      pure (first ++ others)
  | c :: r =>
    match flag with
    | none => (localItems? none r).map (char c :: ·)
    | some _ => none
termination_by t.length
decreasing_by
  · have := length_flaggedSpecifier_lt _h
    simp only [List.length_cons]
    omega
  · simp

/-- The format of a locale that a letter stands for. -/
def localFormat? (locale : Locale) : Char → Option String
  | 'c' => some locale.dateTimeFormat
  | 'x' => some locale.dateFormat
  | 'X' => some locale.timeFormat
  | 'r' => some (if locale.halfDayFormat.isEmpty then locale.timeFormat else locale.halfDayFormat)
  | _ => none

/-- Reads a specifier behind its `%`, with the flag in front of it. It may stand for
    a format of the locale. -/
def directive? (locale : Locale) (t : Text) : Option (List Item × Text) :=
  match splitFlag t with
  | (_, []) => none
  | (flag, c :: r) =>
    match localFormat? locale c with
    | some format => (localItems? flag format.toList).map fun items => (items, r)
    | none => flaggedSpecifier? t

theorem length_directive_lt {locale : Locale} {t rest : Text} {items : List Item}
    (h : directive? locale t = some (items, rest)) : rest.length < t.length := by
  have hflag := length_splitFlag_le t
  unfold directive? at h
  split at h
  · simp at h
  next hs =>
    split at h
    · simp only [Option.map_eq_some_iff, Prod.mk.injEq] at h
      obtain ⟨_, -, -, rfl⟩ := h
      simp only [hs, List.length_cons] at hflag
      omega
    · exact length_flaggedSpecifier_lt h

/-- The items of a format; `none` if one of its specifiers is no specifier. -/
def items? (locale : Locale) (t : Text) : Option (List Item) :=
  match t with
  | [] => some []
  | '%' :: r =>
    match _h : directive? locale r with
    | none => none
    | some (items, rest) => (items? locale rest).map (items ++ ·)
  | c :: r => (items? locale r).map (char c :: ·)
termination_by t.length
decreasing_by
  · have := length_directive_lt _h
    simp only [List.length_cons]
    omega
  · simp

/-- A text filled up in front to a width. -/
def fill (c : Char) (width : Nat) (t : Text) : Text :=
  List.replicate (width - t.length) c ++ t

/-- A number in a width that counts its sign; zeros follow the sign. -/
def padded (width : Nat) (padding : Padding) (sign : Text) (value : Nat) : Text :=
  match padding with
  | .none => sign ++ decimal value
  | .zero => sign ++ fill '0' (width - sign.length) (decimal value)
  | .space => fill ' ' width (sign ++ decimal value)

/-- A number with a minus sign if it is negative. -/
def signed (width : Nat) (padding : Padding) (value : Int) : Text :=
  padded width padding (if value < 0 then ['-'] else []) value.natAbs

/-- A year: four digits, or a sign and four digits where four do not suffice. -/
def year (padding : Padding) (value : Int) : Text :=
  if 0 ≤ value && value < 10000 then padded 4 padding [] value.natAbs
  else padded 5 padding [if value < 0 then '-' else '+'] value.natAbs

/-- A number of a moment. -/
def numeric (t : DateTime) (padding : Padding) : Numeric → Text
  | .year => year padding t.year
  | .century => padded 2 padding [] (t.year / 100).natAbs
  | .yearOfCentury => padded 2 padding [] (t.year % 100).natAbs
  | .isoYear => year padding t.isoWeek.1
  | .isoYearOfCentury => padded 2 padding [] (t.isoWeek.1 % 100).natAbs
  | .quarter => decimal t.quarter
  | .month => padded 2 padding [] t.month
  | .day => padded 2 padding [] t.day
  | .weekFromSunday => padded 2 padding [] t.weekFromSunday
  | .weekFromMonday => padded 2 padding [] t.weekFromMonday
  | .isoWeek => padded 2 padding [] t.isoWeek.2
  | .weekday => decimal t.weekday
  | .isoWeekday => decimal t.isoWeekday
  | .ordinal => padded 3 padding [] t.ordinal
  | .hour => padded 2 padding [] t.hour
  | .hour12 => padded 2 padding [] t.hour12
  | .minute => padded 2 padding [] t.minute
  | .second => padded 2 padding [] t.second
  | .nanosecond => padded 9 padding [] t.nanosecond
  | .timestamp => signed 9 padding t.timestamp

/-- A number in two digits. -/
def two (n : Nat) : Text :=
  fill '0' 2 (decimal n)

/-- An offset from universal time. -/
def zone (offset : Int) (style : ZoneStyle) : Text :=
  let sign := if offset < 0 then '-' else '+'
  let hours := offset.natAbs / 60
  let minutes := offset.natAbs % 60
  sign :: match style with
    | .hours => two hours
    | .compact => two hours ++ two minutes
    | .minutes => two hours ++ ':' :: two minutes
    | .seconds => two hours ++ ':' :: two minutes ++ ":00".toList

/-- The fraction of a second in 3, 6 or 9 digits behind `point`; nothing if it is
    zero. -/
def fraction (point : Text) (nanosecond : Nat) : Text :=
  if nanosecond = 0 then []
  else if nanosecond % 1000000 = 0 then point ++ fill '0' 3 (decimal (nanosecond / 1000000))
  else if nanosecond % 1000 = 0 then point ++ fill '0' 6 (decimal (nanosecond / 1000))
  else point ++ fill '0' 9 (decimal nanosecond)

/-- A moment as protocols write it. -/
def stamp (t : DateTime) : Text :=
  year .zero t.year ++ '-' :: two t.month ++ '-' :: two t.day ++ 'T' :: two t.hour ++
    ':' :: two t.minute ++ ':' :: two t.second ++ fraction ['.'] t.nanosecond ++
    zone t.offset .minutes

/-- The name with a number in a list of names. -/
def nameAt (names : List String) (index : Nat) : Text :=
  (names.getD index "").toList

/-- An item of a format for a moment. -/
def render (locale : Locale) (t : DateTime) : Item → Text
  | .literal text => text
  | .number kind padding => numeric t padding kind
  | .shortMonth => nameAt locale.shortMonths (t.month - 1)
  | .month => nameAt locale.months (t.month - 1)
  | .shortDay => nameAt locale.shortDays t.weekday
  | .day => nameAt locale.days t.weekday
  | .half => (if t.hour < 12 then locale.halves.1 else locale.halves.2).toList
  | .smallHalf => (if t.hour < 12 then locale.smallHalves.1 else locale.smallHalves.2).toList
  | .fraction => fraction locale.decimalPoint.toList t.nanosecond
  | .digits count point =>
    (if point then locale.decimalPoint.toList else []) ++
      fill '0' count (decimal (t.nanosecond / Nat.pow 10 (9 - count)))
  | .zone style => zone t.offset style
  | .stamp => stamp t

/-- A moment in a format; `none` if the format is faulty. -/
def write? (locale : Locale) (format : Text) (t : DateTime) : Option Text :=
  (items? locale format).map (·.flatMap (render locale t))

theorem items_append_of_no_percent (locale : Locale) {s : Text} (h : '%' ∉ s) (t : Text) :
    items? locale (s ++ t) = (items? locale t).map (s.map char ++ ·) := by
  induction s with
  | nil => simp
  | cons c s ih =>
    simp only [List.mem_cons, not_or] at h
    rw [List.cons_append, items?, ih h.2]
    · simp [Option.map_map, Function.comp_def]
    · exact fun e => h.1 e.symm

end Format

end Shortcode.Calendar
