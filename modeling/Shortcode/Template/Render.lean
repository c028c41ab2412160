import Shortcode.Html.Attributes
import Shortcode.Template.Syntax
import Shortcode.Text.Quoted
import Shortcode.Text.Upper

/-!
# Filling in templates

A template is filled in with values under names. A value that is not there is shown as
nothing and counts as false, but nothing can be looked up in it. Templates come from a
library, where a template finds those that it includes. In a template whose name ends
like a document of HTML or XML what is shown is escaped.
-/

namespace Shortcode.Template

/-- What goes wrong with a template. -/
inductive Fault
  | malformed
  /-- There is no such template. -/
  | missing (name : Text)
  /-- There is no such template to include. -/
  | missingInclusion (name : Text)
  /-- The file of the template cannot be read. -/
  | unreadable
  /-- Something is looked up in a value that is not there. -/
  | undefined
  | unknownFilter (name : Text)
  | invalid (reason : String)
  /-- A template that is included fails. -/
  | inclusion (name : Text)
  deriving DecidableEq, Repr

/-- A fault, and the name of the template and the line where it arises. -/
structure Failure where
  fault : Fault
  place : Option (Text × Nat) := none
  deriving DecidableEq, Repr

/-- The message about a fault. -/
def Fault.message : Fault → String
  | malformed => "syntax error"
  | missing name => "template not found: template \"" ++ String.ofList name ++ "\" does not exist"
  | missingInclusion name =>
    "template not found: tried to include non-existing template " ++
      String.ofList (Text.quoted name)
  | unreadable => "invalid operation: could not read template"
  | undefined => "undefined value"
  | unknownFilter name => "unknown filter: filter " ++ String.ofList name ++ " is unknown"
  | invalid reason => "invalid operation: " ++ reason
  | inclusion name => "could not render include: error in \"" ++ String.ofList name ++ "\""

/-- The message about a failure. -/
def Failure.message (e : Failure) : String :=
  match e.place with
  | some (name, line) => s!"{e.fault.message} (in {String.ofList name}:{line})"
  | none => e.fault.message

/-- A value, or that there is none. -/
abbrev Value :=
  Option Data

mutual

/-- Whether two values are the same. -/
def same : Data → Data → Bool
  | .null, .null => true
  | .flag a, .flag b => a == b
  | .number a, .number b => a == b
  | .text a, .text b => a == b
  | .list as, .list bs => sameItems as bs
  | .record as, .record bs => sameEntries as bs
  | _, _ => false

/-- Whether two lists of values are the same. -/
def sameItems : List Data → List Data → Bool
  | [], [] => true
  | a :: as, b :: bs => same a b && sameItems as bs
  | _, _ => false

/-- Whether two records are the same. -/
def sameEntries : List (Text × Data) → List (Text × Data) → Bool
  | [], [] => true
  | (m, a) :: as, (n, b) :: bs => m == n && same a b && sameEntries as bs
  | _, _ => false

end

mutual

/-- A value inside of another one, as a text. -/
def shown : Data → Text
  | .null => "none".toList
  | .flag b => if b then "true".toList else "false".toList
  | .number n => signed n
  | .text t => Text.quoted t
  | .list items => '[' :: (shownItems items ++ [']'])
  | .record entries => '\x7b' :: (shownEntries entries ++ ['\x7d'])

/-- The items of a list, as a text. -/
def shownItems : List Data → Text
  | [] => []
  | [item] => shown item
  | item :: items => shown item ++ ',' :: ' ' :: shownItems items

/-- The entries of a record, as a text. -/
def shownEntries : List (Text × Data) → Text
  | [] => []
  | [(name, value)] => Text.quoted name ++ ':' :: ' ' :: shown value
  | (name, value) :: entries =>
    Text.quoted name ++ ':' :: ' ' :: (shown value ++ ',' :: ' ' :: shownEntries entries)

end

namespace Value

/-- A value as a text. -/
def text : Value → Text
  | some (.text t) => t
  | some d => shown d
  | none => []

/-- Whether a value counts as true. -/
def isTrue : Value → Bool
  | none => false
  | some .null => false
  | some (.flag b) => b
  | some (.number n) => n != 0
  | some (.text t) => !t.isEmpty
  | some (.list items) => !items.isEmpty
  | some (.record entries) => !entries.isEmpty

/-- The attribute of a value. -/
def lookup (name : Text) : Value → Except Fault Value
  | none => .error .undefined
  | some (.record entries) => .ok (entries.lookup name)
  | some _ => .ok none

/-- The item of a value at an index or under a name. A negative index counts from the
    end. -/
def item (v index : Value) : Except Fault Value :=
  match v, index with
  | none, _ => .error .undefined
  | some (.record entries), some (.text name) => .ok (entries.lookup name)
  | some (.list items), some (.number n) =>
    let place := if n < 0 then n + items.length else n
    .ok (if place < 0 then none else items[place.toNat]?)
  | _, _ => .ok none

/-- The items that a loop goes over. -/
def items : Value → Except Fault (List Data)
  | none => .ok []
  | some .null => .ok []
  | some (.list items) => .ok items
  | some (.text t) => .ok (t.map fun c => .text [c])
  | some (.record entries) => .ok (entries.map fun (name, _) => .text name)
  | some (.flag _) => .error (.invalid "bool is not iterable")
  | some (.number _) => .error (.invalid "number is not iterable")

/-- The number of items of a value. -/
def length (v : Value) : Except Fault Value :=
  match v with
  | some (.list items) => .ok (some (.number items.length))
  | some (.text t) => .ok (some (.number t.length))
  | some (.record entries) => .ok (some (.number entries.length))
  | _ => .error (.invalid "cannot calculate length of value")

/-- The value that a filter makes of a value. -/
def filter (name : Text) (args : List Value) (v : Value) : Except Fault Value :=
  match String.ofList name with
  | "upper" => .ok (some (.text (Text.upper v.text)))
  | "trim" => .ok (some (.text (Text.trim v.text)))
  | "length" => v.length
  | "count" => v.length
  | "first" => v.items.map (·.head?)
  | "last" => v.items.map (·.getLast?)
  | "join" => do
    let delimiter := (args.head?.getD none).text
    return some (.text (Text.join delimiter ((← v.items).map fun d => text (some d))))
  | "default" => .ok (v.or ((args.head?.getD none).or (some (.text []))))
  | "d" => .ok (v.or ((args.head?.getD none).or (some (.text []))))
  | _ => .error (.unknownFilter name)

/-- Whether `part` occurs in a value. -/
def contains (v part : Value) : Except Fault Bool :=
  match v, part with
  | some (.list items), some d => .ok (items.any (same d))
  | some (.text t), some d => .ok (Text.includes (text (some d)) t)
  | some (.record entries), some (.text name) => .ok (entries.any (·.1 = name))
  | some (.record _), _ => .ok false
  | none, _ => .error .undefined
  | _, _ => .error (.invalid "cannot perform a containment check on this value")

/-- Whether two values are the same; two that are not there are. -/
def equal : Value → Value → Bool
  | some a, some b => same a b
  | none, none => true
  | _, _ => false

/-- Whether a value comes before another one, or is the same if `orEqual` is set. -/
def precedes (orEqual : Bool) : Value → Value → Bool
  | some (.number a), some (.number b) => if orEqual then a ≤ b else a < b
  | some (.text a), some (.text b) => if orEqual then Text.le a b else a < b
  | a, b => orEqual && equal a b

/-- What an operator makes of two values. -/
def combine (op : Operator) (a b : Value) : Except Fault Value :=
  let flag := fun (b : Bool) => Except.ok (some (Data.flag b))
  match op with
  | .equal => flag (equal a b)
  | .unequal => flag (!equal a b)
  | .less => flag (precedes false a b)
  | .lessEqual => flag (precedes true a b)
  | .greater => flag (precedes false b a)
  | .greaterEqual => flag (precedes true b a)
  | .member => (contains b a).map fun found => some (.flag found)
  | .concat => .ok (some (.text (a.text ++ b.text)))
  | .plus =>
    match a, b with
    | some (.number m), some (.number n) => .ok (some (.number (m + n)))
    | some (.text s), some (.text t) => .ok (some (.text (s ++ t)))
    | some (.list s), some (.list t) => .ok (some (.list (s ++ t)))
    | _, _ => .error (.invalid "tried to use + operator on unsupported types")
  | .minus =>
    match a, b with
    | some (.number m), some (.number n) => .ok (some (.number (m - n)))
    | _, _ => .error (.invalid "tried to use - operator on unsupported types")

end Value

/-- Values under names, the innermost ones first. -/
abbrev Scope :=
  List (Text × Data)

/-- Names a fault's place. -/
def located {α : Type} (template : Text) (line : Nat) (result : Except Fault α) :
    Except Failure α :=
  result.mapError fun fault => ⟨fault, some (template, line)⟩

section

variable (template : Text)

mutual

/-- The value of an expression in a scope. -/
def evaluate (scope : Scope) : Expr → Except Failure Value
  | .literal value => .ok (some value)
  | .name n => .ok (scope.lookup n)
  | .list items => (evaluateAll scope items).map fun values =>
      some (.list (values.map (·.getD .null)))
  | .attribute line of n => do
    let value ← evaluate scope of
    located template line (value.lookup n)
  | .item line of index => do
    let value ← evaluate scope of
    let index ← evaluate scope index
    located template line (value.item index)
  | .filter line n of args => do
    let value ← evaluate scope of
    let args ← evaluateAll scope args
    located template line (value.filter n args)
  | .defined of => (evaluate scope of).map fun value => some (.flag value.isSome)
  | .not of => (evaluate scope of).map fun value => some (.flag !value.isTrue)
  | .and first second => do
    let value ← evaluate scope first
    if value.isTrue then evaluate scope second else pure value
  | .or first second => do
    let value ← evaluate scope first
    if value.isTrue then pure value else evaluate scope second
  | .binary line op first second => do
    let a ← evaluate scope first
    let b ← evaluate scope second
    located template line (Value.combine op a b)
  | .choice condition yes no => do
    let c ← evaluate scope condition
    if c.isTrue then evaluate scope yes
    else match no with
      | some no => evaluate scope no
      | none => pure none

/-- The values of expressions in a scope. -/
def evaluateAll (scope : Scope) : List Expr → Except Failure (List Value)
  | [] => .ok []
  | e :: es => do
    let value ← evaluate scope e
    let values ← evaluateAll scope es
    pure (value :: values)

end

/-- The values of the names of a loop for an item. Several names share out a list. -/
def bindNames (names : List Text) (value : Data) : Except Fault Scope :=
  match names, value with
  | [n], value => .ok [(n, value)]
  | names, .list items =>
    if names.length = items.length then .ok (names.zip items)
    else .error (.invalid "sequence of wrong length")
  | _, _ => .error (.invalid "not a sequence")

/-- What a loop tells about itself at the item with a number. -/
def loopData (items : List Data) (index depth : Nat) : Data :=
  let length := items.length
  let neighbour := fun (name : String) (d : Option Data) =>
    (d.map fun d => (name.toList, d)).toList
  .record ([
    ("index".toList, .number (index + 1)),
    ("index0".toList, .number index),
    ("revindex".toList, .number (length - index : Nat)),
    ("revindex0".toList, .number (length - index - 1 : Nat)),
    ("first".toList, .flag (index == 0)),
    ("last".toList, .flag (index + 1 == length)),
    ("length".toList, .number length),
    ("depth".toList, .number (depth + 1)),
    ("depth0".toList, .number depth)] ++
    neighbour "previtem" (if index = 0 then none else items[index - 1]?) ++
    neighbour "nextitem" items[index + 1]?)

/-- The results of a function on the items of a list and their numbers, put together. -/
def joinResults (f : Nat → Data → Except Failure Text) (index : Nat) :
    List Data → Except Failure Text
  | [] => .ok []
  | d :: rest => do
    let out ← f index d
    let more ← joinResults f (index + 1) rest
    pure (out ++ more)

/-- The items that meet a condition. -/
def selectItems (scope : Scope) (names : List Text) (line : Nat) (condition : Expr) :
    List Data → Except Failure (List Data)
  | [] => .ok []
  | d :: rest => do
    let bound ← located template line (bindNames names d)
    let keep ← evaluate template (bound ++ scope) condition
    let more ← selectItems scope names line condition rest
    pure (if keep.isTrue then d :: more else more)

variable (escaped : Bool) (embed : Scope → Text → Bool → Nat → Except Failure Text)

mutual

/-- What an item shows in a scope inside of loops. The function `embed` fills in a template
    that is included on a line. -/
def renderItem (depth : Nat) (scope : Scope) : Item → Except Failure Text
  | .text run => .ok run
  | .«show» _ e => (evaluate template scope e).map fun value =>
      if escaped then Html.escape value.text else value.text
  | .loop line names subject condition body otherwise => do
    let value ← evaluate template scope subject
    let items ← located template line value.items
    let items ← match condition with
      | some c => selectItems template scope names line c items
      | none => pure items
    if items.isEmpty then renderItems depth scope otherwise
    else
      joinResults (fun index d => do
        let bound ← located template line (bindNames names d)
        renderItems (depth + 1)
          (bound ++ ("loop".toList, loopData items index depth) :: scope) body) 0 items
  | .branch condition yes no => do
    let value ← evaluate template scope condition
    if value.isTrue then renderItems depth scope yes else renderItems depth scope no
  | .inclusion line e optional => do
    match ← evaluate template scope e with
    | some (.text name) => embed scope name optional line
    | _ => .error ⟨.invalid "template name was not a string", some (template, line)⟩

/-- What items show in a scope inside of loops. -/
def renderItems (depth : Nat) (scope : Scope) : List Item → Except Failure Text
  | [] => .ok []
  | item :: rest => do
    let out ← renderItem depth scope item
    let more ← renderItems depth scope rest
    pure (out ++ more)

end

end

/-- A library of templates: the source under a name. -/
abbrev Library :=
  Text → Except Fault Text

/-- Whether what a template shows is escaped: the last part of its name is that of a
    document of HTML or XML, an ending `.j2` apart. -/
def isEscaped (name : Text) : Bool :=
  let name := match Text.after? "2j.".toList name.reverse with
    | some front => front.reverse
    | none => name
  ["html", "htm", "xml"].contains
    (String.ofList ((Text.splitOn '.' name).getLast?.getD []))

/-- The items of the template with a name. -/
def Library.items (library : Library) (name : Text) : Except Fault (List Item) :=
  match library name with
  | .ok source =>
    match Item.read? source with
    | some items => .ok items
    | none => .error .malformed
  | .error fault => .error fault

/-- The greatest number of templates that include each other. -/
def maxInclusions : Nat := 50

/-- The items of a template filled in, where templates may be included down to a
    depth. -/
def renderWith (library : Library) (inclusions : Nat) (template : Text) (scope : Scope)
    (items : List Item) : Except Failure Text :=
  renderItems template (isEscaped template)
    (fun scope name optional line =>
      let place := some (template, line)
      match inclusions with
      | 0 => .error ⟨.invalid "recursion limit exceeded", place⟩
      | inclusions + 1 =>
        match library.items name with
        | .ok items =>
          match renderWith library inclusions name scope items with
          | .ok out => .ok out
          | .error _ => .error ⟨.inclusion name, place⟩
        | .error (.missing name) =>
          if optional then .ok [] else .error ⟨.missingInclusion name, place⟩
        | .error fault => .error ⟨fault, place⟩)
    0 scope items
termination_by inclusions

/-- The template with a name, filled in. -/
def Library.render (library : Library) (name : Text) (scope : Scope) : Except Failure Text :=
  match library.items name with
  | .ok items => renderWith library maxInclusions name scope items
  | .error fault => .error ⟨fault, none⟩

/-- The name of a template that is no file. -/
def inlineName : Text := "<string>".toList

/-- A text that is itself a template, filled in. -/
def Library.renderInline (library : Library) (source : Text) (scope : Scope) :
    Except Failure Text :=
  match Item.read? source with
  | some items => renderWith library maxInclusions inlineName scope items
  | none => .error ⟨.malformed, none⟩

end Shortcode.Template
