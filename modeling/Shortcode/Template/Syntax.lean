import Shortcode.Data
import Shortcode.Template.Token

/-!
# The syntax of templates

A template is written in the language Jinja. Its items are copied text, expressions that
are shown, loops over the items of a value, choices between alternatives, and other
templates that are included. The readers of nested syntax count down a bound on the
number of steps, which the number of tokens suffices for.
-/

namespace Shortcode.Template

/-- An operator between two values. -/
inductive Operator
  | equal
  | unequal
  | less
  | lessEqual
  | greater
  | greaterEqual
  | member
  | concat
  | plus
  | minus
  deriving DecidableEq, Repr

/-- An expression. Where looking something up can fail, it knows its line. -/
inductive Expr
  | literal (value : Data)
  | name (name : Text)
  | list (items : List Expr)
  | attribute (line : Nat) (of : Expr) (name : Text)
  | item (line : Nat) (of index : Expr)
  | filter (line : Nat) (name : Text) (of : Expr) (args : List Expr)
  | defined (of : Expr)
  | not (of : Expr)
  | and (first second : Expr)
  | or (first second : Expr)
  | binary (line : Nat) (op : Operator) (first second : Expr)
  | choice (condition yes : Expr) (no : Option Expr)

/-- An item of a template. -/
inductive Item
  | text (run : Text)
  | «show» (line : Nat) (value : Expr)
  /-- A loop over the items of a value that meet a condition, or else what is shown
      instead. -/
  | loop (line : Nat) (names : List Text) (subject : Expr) (condition : Option Expr)
      (body otherwise : List Item)
  | branch (condition : Expr) (yes no : List Item)
  | inclusion (line : Nat) (name : Expr) (optional : Bool)

/-- A reader of syntax. -/
abbrev Parse :=
  StateT (List Located) Option

namespace Parse

/-- The next token. -/
def next : Parse (Option Token) :=
  return (← get).head?.map (·.token)

/-- The line of the next token. -/
def line : Parse Nat :=
  return ((← get).head?.map (·.line)).getD 0

/-- Passes over a token. -/
def skip : Parse Unit :=
  modify List.tail

/-- Passes over the next token, if it is `token`. -/
def accept (token : Token) : Parse Bool := do
  if (← next) == some token then
    skip
    pure true
  else pure false

/-- Passes over the next token, which has to be `token`. -/
def expect (token : Token) : Parse Unit := do
  if !(← accept token) then failure

/-- The token of a word. -/
def word (s : String) : Token :=
  .name s.toList

/-- The token of an operator or a bracket. -/
def sign (s : String) : Token :=
  .sign s.toList

/-- Reads a name. -/
def name : Parse Text := do
  match ← next with
  | some (.name n) =>
    skip
    pure n
  | _ => failure

/-- The operator of a comparison that a token stands for. -/
def comparison? (token : Token) : Option Operator :=
  [(sign "==", Operator.equal), (sign "!=", .unequal), (sign "<", .less), (sign "<=", .lessEqual),
    (sign ">", .greater), (sign ">=", .greaterEqual), (word "in", .member)].lookup token

/-- The value of a word that stands for a constant. -/
def constant? (name : Text) : Option Data :=
  match String.ofList name with
  | "true" => some (.flag true)
  | "True" => some (.flag true)
  | "false" => some (.flag false)
  | "False" => some (.flag false)
  | "none" => some .null
  | "None" => some .null
  | _ => none

mutual

/-- Reads an expression. -/
def expression (steps : Nat) : Parse Expr :=
  match steps with
  | 0 => failure
  | steps + 1 => do
    let value ← disjunction steps
    if ← accept (word "if") then
      let condition ← disjunction steps
      if ← accept (word "else") then
        return .choice condition value (some (← expression steps))
      else return .choice condition value none
    else pure value

/-- Reads alternatives. -/
def disjunction (steps : Nat) : Parse Expr :=
  match steps with
  | 0 => failure
  | steps + 1 => do
    let first ← conjunction steps
    if ← accept (word "or") then return .or first (← disjunction steps) else pure first

/-- Reads conditions that hold together. -/
def conjunction (steps : Nat) : Parse Expr :=
  match steps with
  | 0 => failure
  | steps + 1 => do
    let first ← negation steps
    if ← accept (word "and") then return .and first (← conjunction steps) else pure first

/-- Reads a condition. -/
def negation (steps : Nat) : Parse Expr :=
  match steps with
  | 0 => failure
  | steps + 1 => do
    if ← accept (word "not") then return .not (← negation steps)
    else
      let first ← sum steps
      comparisons steps first

/-- Reads comparisons behind a value. -/
def comparisons (steps : Nat) (first : Expr) : Parse Expr :=
  match steps with
  | 0 => failure
  | steps + 1 => do
    let here ← line
    match (← next).bind comparison? with
    | some op =>
      skip
      comparisons steps (.binary here op first (← sum steps))
    | none =>
      let tokens ← get
      if tokens.take 2 |>.map (·.token) |> (· == [word "not", word "in"]) then
        skip
        skip
        comparisons steps (.not (.binary here .member first (← sum steps)))
      else pure first

/-- Reads a sum. -/
def sum (steps : Nat) : Parse Expr :=
  match steps with
  | 0 => failure
  | steps + 1 => do
    let first ← text steps
    terms steps first

/-- Reads the terms of a sum behind a value. -/
def terms (steps : Nat) (first : Expr) : Parse Expr :=
  match steps with
  | 0 => failure
  | steps + 1 => do
    let here ← line
    if ← accept (sign "+") then terms steps (.binary here .plus first (← text steps))
    else if ← accept (sign "-") then terms steps (.binary here .minus first (← text steps))
    else pure first

/-- Reads texts that are put together. -/
def text (steps : Nat) : Parse Expr :=
  match steps with
  | 0 => failure
  | steps + 1 => do
    let first ← operand steps
    let here ← line
    if ← accept (sign "~") then return .binary here .concat first (← text steps) else pure first

/-- Reads a value with what is looked up in it and the filters it goes through. -/
def operand (steps : Nat) : Parse Expr :=
  match steps with
  | 0 => failure
  | steps + 1 => do
    let here ← line
    if ← accept (sign "-") then
      let value ← operand steps
      pure (.binary here .minus (.literal (.number 0)) value)
    else
      let value ← primary steps
      suffixes steps here value

/-- Reads what follows a value: attributes, items, filters and tests. -/
def suffixes (steps : Nat) (here : Nat) (value : Expr) : Parse Expr :=
  match steps with
  | 0 => failure
  | steps + 1 => do
    if ← accept (sign ".") then
      let n ← name
      suffixes steps here (.attribute here value n)
    else if ← accept (sign "[") then
      let index ← expression steps
      expect (sign "]")
      suffixes steps here (.item here value index)
    else if ← accept (sign "|") then
      let n ← name
      let args ← if ← accept (sign "(") then arguments steps (sign ")") else pure []
      suffixes steps here (.filter here n value args)
    else if ← accept (word "is") then
      let negated ← accept (word "not")
      let n ← name
      let test ← match String.ofList n with
        | "defined" => pure (Expr.defined value)
        | "undefined" => pure (Expr.not (.defined value))
        | _ => failure
      suffixes steps here (if negated then .not test else test)
    else pure value

/-- Reads a literal, a name, a list or an expression in parentheses. -/
def primary (steps : Nat) : Parse Expr :=
  match steps with
  | 0 => failure
  | steps + 1 => do
    match ← next with
    | some (.string s) =>
      skip
      pure (.literal (.text s))
    | some (.number n) =>
      skip
      pure (.literal (.number n))
    | some (.name n) =>
      skip
      pure (match constant? n with
        | some value => .literal value
        | none => .name n)
    | some (.sign ['(']) =>
      skip
      let value ← expression steps
      expect (sign ")")
      pure value
    | some (.sign ['[']) =>
      skip
      return .list (← arguments steps (sign "]"))
    | _ => failure

/-- Reads expressions with commas between them, up to a closing bracket. -/
def arguments (steps : Nat) (close : Token) : Parse (List Expr) :=
  match steps with
  | 0 => failure
  | steps + 1 => do
    if ← accept close then pure []
    else
      let value ← expression steps
      if ← accept (sign ",") then return value :: (← arguments steps close)
      else
        expect close
        pure [value]

end

/-- Reads the names of a loop, up to the word behind them. -/
def loopNames (steps : Nat) : Parse (List Text) :=
  match steps with
  | 0 => failure
  | steps + 1 => do
    let n ← name
    if ← accept (sign ",") then
      if ← accept (word "in") then pure [n] else return n :: (← loopNames steps)
    else
      expect (word "in")
      pure [n]

/-- Reads the word of a statement that ends a part, and the end of the statement. -/
def ending (s : String) : Parse Unit := do
  expect (word s)
  expect .closeBlock

mutual

/-- Reads items up to a statement that begins with one of the words `ends`, whose opening
    mark is passed over; without any, up to the end. -/
def items (steps : Nat) (ends : List String) : Parse (List Item) :=
  match steps with
  | 0 => failure
  | steps + 1 => do
    let here ← line
    match ← next with
    | none => if ends.isEmpty then pure [] else failure
    | some (.text run) =>
      skip
      return .text run :: (← items steps ends)
    | some .openShow =>
      skip
      let value ← expression steps
      expect .closeShow
      return .«show» here value :: (← items steps ends)
    | some .openBlock =>
      skip
      if (← next).any fun token => ends.any (token == word ·) then pure []
      else
        let item ← statement steps
        return item :: (← items steps ends)
    | some _ => failure

/-- Reads a statement behind its opening mark. -/
def statement (steps : Nat) : Parse Item :=
  match steps with
  | 0 => failure
  | steps + 1 => do
    let here ← line
    match String.ofList (← name) with
    | "for" =>
      let names ← loopNames steps
      let subject ← disjunction steps
      let condition ← if ← accept (word "if") then some <$> expression steps else pure none
      expect .closeBlock
      let body ← items steps ["else", "endfor"]
      let otherwise ←
        if ← accept (word "else") then
          expect .closeBlock
          items steps ["endfor"]
        else pure []
      ending "endfor"
      pure (.loop here names subject condition body otherwise)
    | "if" => alternatives steps
    | "include" =>
      let value ← expression steps
      let optional ← accept (word "ignore")
      if optional then expect (word "missing")
      expect .closeBlock
      pure (.inclusion here value optional)
    | _ => failure

/-- Reads a condition, what is shown if it holds, and the alternatives. -/
def alternatives (steps : Nat) : Parse Item :=
  match steps with
  | 0 => failure
  | steps + 1 => do
    let condition ← expression steps
    expect .closeBlock
    let yes ← items steps ["elif", "else", "endif"]
    if ← accept (word "elif") then return .branch condition yes [← alternatives steps]
    else
      let no ←
        if ← accept (word "else") then
          expect .closeBlock
          items steps ["endif"]
        else pure []
      ending "endif"
      pure (.branch condition yes no)

end

end Parse

/-- The items of a template; `none` if it is malformed. -/
def Item.read? (source : Text) : Option (List Item) := do
  let tokens ← Token.read? source
  return (← (Parse.items (16 * tokens.length + 16) []).run tokens).1

end Shortcode.Template
