import Shortcode.Decimal.Binary64
import Shortcode.Yaml.Node

/-!
# Values of a YAML document

A plain scalar is a null, a truth value, an integer, a floating point number, or a text
if it looks like none of these; a scalar in another form is a text. A tag can ask for
another type. The keys of a mapping differ.
-/

namespace Shortcode.Yaml

/-- A number. -/
inductive Number
  | integer (value : Int)
  | finite (negative : Bool) (magnitude : Binary64)
  | infinite (negative : Bool)
  | notANumber
  deriving Repr

/-- Whether two numbers are the same. Zero has no sign here. -/
def Number.same : Number → Number → Bool
  | integer a, integer b => a == b
  | finite s a, finite t b => a == b && (s == t || a.mantissa == 0)
  | infinite s, infinite t => s == t
  | notANumber, notANumber => true
  | _, _ => false

/-- A number as a text. -/
def Number.text : Number → Text
  | integer n => signed n
  | finite negative x => (if negative then ['-'] else []) ++ x.text
  | infinite negative => if negative then "-.inf".toList else ".inf".toList
  | notANumber => ".nan".toList

/-- A value. -/
inductive Value
  | null
  | flag (value : Bool)
  | number (value : Number)
  | text (value : Text)
  | sequence (items : List Value)
  | mapping (entries : List (Value × Value))
  | tagged (tag : Text) (value : Value)

namespace Value

mutual

/-- Whether two values are the same. The order of a mapping does not matter. -/
def same : Value → Value → Bool
  | null, null => true
  | flag a, flag b => a == b
  | number a, number b => a.same b
  | text a, text b => a == b
  | sequence as, sequence bs => sameItems as bs
  | mapping as, mapping bs => as.length == bs.length && sameEntries as bs
  | tagged s a, tagged t b => s == t && same a b
  | _, _ => false

/-- Whether two lists of values are the same. -/
def sameItems : List Value → List Value → Bool
  | [], [] => true
  | a :: as, b :: bs => same a b && sameItems as bs
  | _, _ => false

/-- Whether each entry of one mapping is one of another. -/
def sameEntries : List (Value × Value) → List (Value × Value) → Bool
  | [], _ => true
  | (k, v) :: as, bs => bs.any (fun (k', v') => same k k' && same v v') && sameEntries as bs

end

/-- The number that digits of a base stand for, if there are any. -/
def digitsOf? (base : Nat) (t : Text) : Option Nat :=
  if t.isEmpty then none
  else t.foldl (fun n c => n.bind fun n =>
    ((hexDigit? c).filter (· < base)).map fun d => n * base + d) (some 0)

/-- The integer that a text without a sign stands for: decimal, or behind `0x`, `0o` or
    `0b` in another base. -/
def unsignedInteger? : Text → Option Nat
  | '0' :: 'x' :: t => digitsOf? 16 t
  | '0' :: 'o' :: t => digitsOf? 8 t
  | '0' :: 'b' :: t => digitsOf? 2 t
  | t => digitsOf? 10 t

/-- The integer that a text stands for. -/
def integer? : Text → Option Int
  | '-' :: t => (unsignedInteger? t).map fun n => -Int.ofNat n
  | '+' :: t => (unsignedInteger? t).map Int.ofNat
  | t => (unsignedInteger? t).map Int.ofNat

/-- A text without a sign in front, and whether the sign was a minus. -/
def splitSign : Text → Bool × Text
  | '-' :: t => (true, t)
  | '+' :: t => (false, t)
  | t => (false, t)

/-- Whether a text is a number only for people: digits behind a zero that is not
    needed. -/
def isPadded (t : Text) : Bool :=
  match (splitSign t).2 with
  | '0' :: c :: t => (c :: t).all Char.isDigit
  | _ => false

/-- The exponent that a text stands for behind its letter. -/
def exponent? (t : Text) : Option Int :=
  let (minus, digits) := splitSign t
  (digitsOf? 10 digits).map fun n => if minus then -Int.ofNat n else Int.ofNat n

/-- The digits of a decimal fraction and the power of ten of the last one. -/
def decimalFraction? (t : Text) : Option (Nat × Int) := do
  let whole := t.takeWhile Char.isDigit
  let rest := t.dropWhile Char.isDigit
  let (places, rest) := match rest with
    | '.' :: r => (r.takeWhile Char.isDigit, r.dropWhile Char.isDigit)
    | r => ([], r)
  let digits ← digitsOf? 10 (whole ++ places)
  let power ← match rest with
    | [] => some 0
    | c :: r => if c = 'e' ∨ c = 'E' then exponent? r else none
  pure (digits, power - places.length)

/-- The floating point number that a text stands for; none if it is too large. -/
def float? (t : Text) : Option Number :=
  let (negative, digits) := splitSign t
  if [".inf", ".Inf", ".INF"].contains (String.ofList digits) then some (.infinite negative)
  else if [".nan", ".NaN", ".NAN"].contains (String.ofList t) then some .notANumber
  else do
    let (digits, power) ← decimalFraction? digits
    return .finite negative (← Binary64.ofDecimal? digits power)

/-- Whether an integer fits into 64 bits, with or without a sign. -/
def isNarrow (n : Int) : Bool :=
  -Int.pow 2 63 ≤ n && n < Int.pow 2 64

/-- Whether an integer fits into 128 bits, with or without a sign. -/
def isWide (n : Int) : Bool :=
  -Int.pow 2 127 ≤ n && n < Int.pow 2 128

/-- The truth value that a text stands for. -/
def flag? (t : Text) : Option Bool :=
  let s := String.ofList t
  if ["true", "True", "TRUE"].contains s then some true
  else if ["false", "False", "FALSE"].contains s then some false
  else none

/-- Whether a text stands for a null. -/
def isNull (t : Text) : Bool :=
  ["", "~", "null", "Null", "NULL"].contains (String.ofList t)

/-- The number that a text stands for, `some none` if it is none. Integers that fit into
    128 bits but not into 64 are refused. -/
def number? (t : Text) : Option (Option Number) :=
  if isPadded t then some none
  else
    match (integer? t).filter isWide with
    | some n => if isNarrow n then some (some (.integer n)) else none
    | none => some (float? t)

/-- The value of a plain scalar. -/
def ofPlain? (t : Text) : Option Value :=
  if isNull t then some null
  else match flag? t with
    | some b => some (flag b)
    | none => (number? t).map fun found => (found.map number).getD (text t)

/-- The value of a scalar whose tag asks for a type. -/
def ofTagged? (type : String) (t : Text) : Option Value :=
  match type with
  | "bool" => (flag? t).map flag
  | "int" => do
    let n ← (integer? t).filter isNarrow
    if isPadded t then none else pure (number (.integer n))
  | "float" => (float? t).map number
  | "null" => if isNull t && !t.isEmpty then some null else none
  | _ => some (text t)

/-- The start of the tags that ask for a type. -/
def typePrefix : Text := "tag:yaml.org,2002:".toList

/-- The value of a scalar. -/
def ofScalar? (tag : Option Text) (plain : Bool) (t : Text) : Option Value :=
  match tag with
  | none => if plain then ofPlain? t else some (text t)
  | some ('!' :: name) => ((if plain then ofPlain? t else some (text t)).map (tagged name))
  | some tag => ofTagged? (String.ofList ((Text.after? typePrefix tag).getD [])) t

/-- The value of a collection with a tag. -/
def withTag (tag : Option Text) (v : Value) : Value :=
  match tag with
  | some ('!' :: name) => tagged name v
  | _ => v

/-- Whether no key of a mapping occurs twice. -/
def keysDiffer : List (Value × Value) → Bool
  | [] => true
  | (k, _) :: rest => !rest.any (fun (k', _) => same k k') && keysDiffer rest

mutual

/-- The value of a node; `none` if a scalar cannot have the type that is asked for, or
    a key occurs twice. -/
def ofNode? : Node → Option Value
  | .scalar tag plain t => ofScalar? tag plain t
  | .sequence tag items => (ofItems? items).map fun vs => withTag tag (sequence vs)
  | .mapping tag entries => do
    let vs ← ofEntries? entries
    if keysDiffer vs then some (withTag tag (mapping vs)) else none

/-- The values of nodes. -/
def ofItems? : List Node → Option (List Value)
  | [] => some []
  | n :: items => do
    let v ← ofNode? n
    return v :: (← ofItems? items)

/-- The values of keys and values. -/
def ofEntries? : List (Node × Node) → Option (List (Value × Value))
  | [] => some []
  | (k, v) :: entries => do
    let k ← ofNode? k
    let v ← ofNode? v
    return (k, v) :: (← ofEntries? entries)

end

/-- A value without its tags. -/
def untagged : Value → Value
  | tagged _ v => untagged v
  | v => v

/-- The entries of a document that is a mapping. A document that holds only space has
    none. -/
def readMapping? (t : Text) : Option (List (Value × Value)) := do
  match ← Node.read? t with
  | none => pure []
  | some (.mapping _ entries) =>
    let vs ← ofEntries? entries
    if keysDiffer vs then pure vs else none
  | some (.scalar _ true []) => pure []
  | some _ => none

end Value

end Shortcode.Yaml
