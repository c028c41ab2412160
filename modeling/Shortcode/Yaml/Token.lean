import Shortcode.Yaml.Scalar

/-!
# Tokens of a YAML document

A document is cut into tokens. Indentation becomes brackets of its own: a sequence or a
mapping begins where an item or a key stands further right than what is around it, and
ends in front of the first token that stands further left. What a key is shows only at
the colon behind it, so the place where one may begin is remembered, and its tokens are
put there later. A key stands on one line and takes at most 1024 characters.
-/

namespace Shortcode.Yaml

/-- A token. -/
inductive Token
  /-- The line `---`. -/
  | documentStart
  /-- The line `...`. -/
  | documentEnd
  /-- The indentation where the items of a sequence begin. -/
  | blockSequence
  /-- The indentation where the keys of a mapping begin. -/
  | blockMapping
  /-- The end of either. -/
  | blockEnd
  /-- An opening square bracket. -/
  | openSequence
  /-- A closing square bracket. -/
  | closeSequence
  /-- An opening brace. -/
  | openMapping
  /-- A closing brace. -/
  | closeMapping
  /-- The dash in front of an item. -/
  | item
  | comma
  /-- What stands in front of a key: a question mark, or nothing. -/
  | key
  /-- The colon in front of a value. -/
  | value
  | anchor (name : Text)
  | alias (name : Text)
  | tag (name : Text)
  | scalar (plain : Bool) (text : Text)
  deriving DecidableEq, Repr

/-- A place where a key may begin. -/
structure KeyPlace where
  /-- Whether nothing but a key can stand there. -/
  required : Bool
  /-- The number of tokens in front of it. -/
  index : Nat
  line : Nat
  column : Nat

/-- What was read of a document. -/
structure Scan where
  /-- The tokens, the last one first. -/
  tokens : List Token := []
  /-- The column of the innermost block; `-1` outside of all. -/
  indent : Int := -1
  /-- The columns of the blocks around it. -/
  indents : List Int := []
  /-- Where a key may begin inside the innermost brackets. -/
  place : Option KeyPlace := none
  /-- Where keys may begin inside the brackets around them. -/
  places : List (Option KeyPlace) := []
  /-- Whether a key may begin at the next token. -/
  keyAllowed : Bool := true

namespace Scan

variable (s : Scan)

/-- Whether the next token stands in brackets. -/
def inBrackets : Bool :=
  !s.places.isEmpty

/-- Adds a token. -/
def add (token : Token) : Scan :=
  { s with tokens := token :: s.tokens }

/-- Tokens, the last one first, with `token` behind the first `index` ones. -/
def insertAt (index : Nat) (token : Token) (tokens : List Token) : List Token :=
  let behind := tokens.length - index
  tokens.take behind ++ token :: tokens.drop behind

/-- Begins a block at a column, if it is further right than the innermost one; its
    token is put behind the first `index` ones. -/
def openBlock (column : Nat) (index : Nat) (token : Token) : Scan :=
  if s.inBrackets || column ≤ s.indent then s
  else { s with
    tokens := insertAt index token s.tokens
    indent := column
    indents := s.indent :: s.indents }

/-- Ends the blocks that are further right than a column. -/
def closeBlocksTo (column : Int) (indent : Int) (indents : List Int) (tokens : List Token) :
    Int × List Int × List Token :=
  match indents with
  | [] => (indent, [], tokens)
  | outer :: rest =>
    if column < indent then closeBlocksTo column outer rest (.blockEnd :: tokens)
    else (indent, outer :: rest, tokens)

/-- Ends the blocks that are further right than a column. -/
def closeBlocks (column : Int) : Scan :=
  if s.inBrackets then s
  else
    let (indent, indents, tokens) := closeBlocksTo column s.indent s.indents s.tokens
    { s with indent, indents, tokens }

/-- Gives up the place where a key may begin; `none` if a key has to. -/
def dropKey : Option Scan :=
  if s.place.any (·.required) then none else some { s with place := none }

/-- Remembers that a key may begin at a character. -/
def saveKey (g : Glyph) : Option Scan :=
  if s.keyAllowed then
    s.dropKey.map fun s =>
      { s with place := some {
          required := !s.inBrackets && s.indent == g.column
          index := s.tokens.length, line := g.line, column := g.column } }
  else some s

/-- An opening bracket. -/
def openBracket (g : Glyph) (token : Token) : Option Scan :=
  (s.saveKey g).map fun s =>
    { s.add token with place := none, places := s.place :: s.places, keyAllowed := true }

/-- A closing bracket. -/
def closeBracket (token : Token) : Option Scan :=
  s.dropKey.map fun s =>
    let s := match s.places with
      | [] => s
      | place :: places => { s with place, places }
    { s.add token with keyAllowed := false }

/-- A comma. -/
def comma : Option Scan :=
  s.dropKey.map fun s => { s.add .comma with keyAllowed := true }

/-- The dash of an item. -/
def item (g : Glyph) : Option Scan :=
  if !s.inBrackets && !s.keyAllowed then none
  else
    ((s.openBlock g.column s.tokens.length .blockSequence).dropKey).map fun s =>
      { s.add .item with keyAllowed := true }

/-- The question mark of a key. -/
def key (g : Glyph) : Option Scan :=
  if !s.inBrackets && !s.keyAllowed then none
  else
    ((s.openBlock g.column s.tokens.length .blockMapping).dropKey).map fun s =>
      { s.add .key with keyAllowed := !s.inBrackets }

/-- Whether a key that may begin at a place can end at a character. -/
def reaches (place : KeyPlace) (g : Glyph) : Bool :=
  place.line == g.line && g.column ≤ place.column + 1024

/-- A colon whose key does not begin at a place that was remembered. -/
def bareValue (g : Glyph) : Option Scan :=
  if s.inBrackets then some { s.add .value with keyAllowed := false }
  else if s.keyAllowed then
    some { (s.openBlock g.column s.tokens.length .blockMapping).add .value with
      keyAllowed := true }
  else none

/-- A colon. -/
def value (g : Glyph) : Option Scan :=
  match s.place with
  | some place =>
    if reaches place g then
      -- the token of the key goes in front of it, and that of the mapping before both
      let s := { s with tokens := insertAt place.index .key s.tokens }
      let s := s.openBlock place.column place.index .blockMapping
      some { s.add .value with place := none, keyAllowed := false }
    else if place.required then none
    else bareValue { s with place := none } g
  | none => s.bareValue g

/-- A line that separates documents. -/
def mark (token : Token) : Option Scan :=
  (s.closeBlocks (-1)).dropKey.map fun s => { s.add token with keyAllowed := false }

/-- A token that may begin a key, and behind which none can begin. -/
def word (g : Glyph) (token : Token) : Option Scan :=
  (s.saveKey g).map fun s => { s.add token with keyAllowed := false }

/-- The end of the document. -/
def finish : Option (List Token) :=
  (s.closeBlocks (-1)).dropKey.map fun s => s.tokens.reverse

end Scan

/-- Passes over blanks, comments and line ends, and tells whether a key may begin
    behind them. In front of a key a tab is no blank. -/
def skipGaps (brackets : Bool) (keyAllowed : Bool) (comment : Bool) : Glyphs → Bool × Glyphs
  | [] => (keyAllowed, [])
  | g :: rest =>
    if isBreak g.char then skipGaps brackets (keyAllowed || !brackets) false rest
    else if comment then skipGaps brackets keyAllowed true rest
    else if g.char = ' ' ∨ (g.char = '\t' ∧ (brackets ∨ !keyAllowed)) then
      skipGaps brackets keyAllowed false rest
    else if g.char = '#' then skipGaps brackets keyAllowed true rest
    else (keyAllowed, g :: rest)

/-- Whether `c` may occur in the name of an anchor. -/
def isNameChar (c : Char) : Bool :=
  c.isAlphanum || c == '_' || c == '-'

/-- Whether the name of an anchor may end here. -/
def endsName (gs : Glyphs) : Bool :=
  Glyphs.endsWord gs ||
    (Glyphs.char? gs).any (['?', ':', ',', ']', '\x7d', '%', '@', '\x60'].contains ·)

/-- Reads the name of an anchor. -/
def name? (gs : Glyphs) : Option (Text × Glyphs) :=
  let name := gs.takeWhile fun g => isNameChar g.char
  let rest := gs.dropWhile fun g => isNameChar g.char
  if !name.isEmpty && endsName rest then some (Glyphs.text name, rest) else none

/-- Whether `c` may occur in a tag. -/
def isTagChar (c : Char) : Bool :=
  isNameChar c || [';', '/', '?', ':', '@', '&', '=', '+', '$', '.', '!', '~', '*', '\'', '(',
    ')'].contains c

/-- The name that a tag stands for: behind two marks the name of a type, behind one a
    name of the document. Between the marks nothing may stand. -/
def tagName? : Text → Option Text
  | ['!'] => none
  | '!' :: name => some ("tag:yaml.org,2002:".toList ++ name)
  | name => if (name.dropWhile isNameChar).head? == some '!' then none else some ('!' :: name)

/-- Reads a tag behind its mark. -/
def tag? (brackets : Bool) (gs : Glyphs) : Option (Text × Glyphs) := do
  let name := gs.takeWhile fun g => isTagChar g.char
  let rest := gs.dropWhile fun g => isTagChar g.char
  let found ← tagName? (Glyphs.text name)
  if Glyphs.endsWord rest || (brackets && Glyphs.char? rest == some ',') then pure (found, rest)
  else none

/-- Whether a plain scalar may begin with `c`, whatever comes next. -/
def beginsPlain (c : Char) : Bool :=
  let indicators := ['-', '?', ':', ',', '[', ']', '\x7b', '\x7d', '#', '&', '*', '!', '|', '>',
    '\'', '"', '%', '@', '\x60']
  !isGap c && !isBreak c && !indicators.contains c

/-- Reads the token that begins with `g`. -/
def Scan.token? (s : Scan) (g : Glyph) (rest : Glyphs) : Option (Scan × Glyphs) :=
  let c := g.char
  let brackets := s.inBrackets
  let lone := Glyphs.endsWord rest
  -- no directives, and the lines that separate documents, all at the left margin
  if g.column = 0 ∧ c = '%' then none
  else if Glyphs.isMark '-' (g :: rest) then (s.mark .documentStart).map (·, rest.drop 2)
  else if Glyphs.isMark '.' (g :: rest) then (s.mark .documentEnd).map (·, rest.drop 2)
  -- what means something wherever it stands
  else if c = '[' then (s.openBracket g .openSequence).map (·, rest)
  else if c = '\x7b' then (s.openBracket g .openMapping).map (·, rest)
  else if c = ']' then (s.closeBracket .closeSequence).map (·, rest)
  else if c = '\x7d' then (s.closeBracket .closeMapping).map (·, rest)
  else if c = ',' then s.comma.map (·, rest)
  -- what means something only in front of a gap, or in brackets
  else if c = '-' ∧ lone then (s.item g).map (·, rest)
  else if c = '?' ∧ (brackets ∨ lone) then (s.key g).map (·, rest)
  else if c = ':' ∧ (brackets ∨ lone) then (s.value g).map (·, rest)
  -- what may begin a key
  else if c = '*' then do
    let (name, rest) ← name? rest
    (s.word g (.alias name)).map (·, rest)
  else if c = '&' then do
    let (name, rest) ← name? rest
    (s.word g (.anchor name)).map (·, rest)
  else if c = '!' then do
    let (name, rest) ← tag? brackets rest
    (s.word g (.tag name)).map (·, rest)
  else if (c = '|' ∨ c = '>') ∧ !brackets then do
    let s ← s.dropKey
    let (text, rest) ← block? (c == '|') s.indent rest
    pure ({ s.add (.scalar false text) with keyAllowed := true }, rest)
  else if c = '\'' then do
    let (text, rest) ← single? [] .none rest
    (s.word g (.scalar false text)).map (·, rest)
  else if c = '"' then do
    let (text, rest) ← double? [] .none rest
    (s.word g (.scalar false text)).map (·, rest)
  else if beginsPlain c || (c == '-' && !(Glyphs.char? rest).any isGap) ||
      (!brackets && (c == '?' || c == ':') && !lone) then do
    -- a key may begin here, so its place is saved before its text is known
    let s ← s.word g (.scalar true [])
    let p ← plain? brackets (s.indent + 1) [] .none (g :: rest)
    pure ({ s with
      tokens := .scalar true p.text :: s.tokens.drop 1
      keyAllowed := p.gap.isBroken }, p.rest)
  else none

/-- Reads the tokens of a document behind those read so far. Each token takes a
    character, so the number of steps is bounded by the length. -/
def Scan.run (steps : Nat) (s : Scan) (gs : Glyphs) : Option (List Token) :=
  match steps with
  | 0 => none
  | steps + 1 =>
    let (keyAllowed, gs) := skipGaps s.inBrackets s.keyAllowed false gs
    let s := { s with keyAllowed }
    match gs with
    | [] => s.finish
    | g :: rest => do
      let (s, rest) ← (s.closeBlocks g.column).token? g rest
      run steps s rest

/-- The tokens of a text; `none` if it is no YAML document. -/
def Token.read? (t : Text) : Option (List Token) :=
  if t.all isPermitted then
    let gs := locate (unifyBreaks t)
    let gs := match gs with
      | g :: rest => if g.char = '\uFEFF' then rest else g :: rest
      | [] => []
    ({} : Scan).run (gs.length + 1) gs
  else none

end Shortcode.Yaml
