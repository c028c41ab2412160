import Shortcode.Yaml.Token

/-!
# Nodes of a YAML document

A document is a tree of scalars, sequences and mappings. An anchor names a node, and an
alias stands for the node that was named so last; a node does not stand inside itself.
How often aliases are followed, and how deeply nodes nest, is limited.

The readers of nested nodes count down a bound on the number of steps, which the number
of tokens suffices for.
-/

namespace Shortcode.Yaml

/-- A node. -/
inductive Node
  | scalar (tag : Option Text) (plain : Bool) (text : Text)
  | sequence (tag : Option Text) (items : List Node)
  | mapping (tag : Option Text) (entries : List (Node × Node))

namespace Node

/-- What stands where nothing is written. -/
def empty : Node :=
  .scalar none true []

mutual

/-- The number of sequences and mappings around the deepest node, itself included. -/
def height : Node → Nat
  | scalar _ _ _ => 0
  | sequence _ items => heightItems items + 1
  | mapping _ entries => heightEntries entries + 1

/-- The greatest height of nodes. -/
def heightItems : List Node → Nat
  | [] => 0
  | n :: items => max n.height (heightItems items)

/-- The greatest height of keys and values. -/
def heightEntries : List (Node × Node) → Nat
  | [] => 0
  | (k, v) :: entries => max (max k.height v.height) (heightEntries entries)

end

end Node

/-- A node with an anchor. -/
structure Anchored where
  /-- The number of the anchor. -/
  number : Nat
  node : Node
  /-- The number of aliases that are followed inside the node. -/
  aliases : Nat

/-- The state of reading nodes. -/
structure Reading where
  /-- The tokens that are left. -/
  tokens : List Token
  /-- The names of the anchors, the last one first. -/
  names : List (Text × Nat) := []
  /-- The anchored nodes that are complete. -/
  complete : List Anchored := []
  /-- The number of aliases that were followed, those inside of other ones included. -/
  aliases : Nat := 0
  /-- The number of nodes that were read, and of their ends. -/
  events : Nat := 0

/-- A reader of nodes. -/
abbrev Parse :=
  StateT Reading Option

namespace Parse

/-- The next token. -/
def next : Parse (Option Token) :=
  return (← get).tokens.head?

/-- Passes over a token. -/
def skip : Parse Unit :=
  modify fun r => { r with tokens := r.tokens.tail }

/-- Counts a node or an end of one. -/
def count : Parse Unit :=
  modify fun r => { r with events := r.events + 1 }

/-- Whether the next token is one of some. -/
def atAny (tokens : List Token) : Parse Bool :=
  return (← next).any tokens.contains

/-- Passes over the next token, which has to be `token`. -/
def expect (token : Token) : Parse Unit := do
  if (← next) == some token then skip else failure

/-- The node that an alias stands for. -/
def follow (name : Text) : Parse Node := do
  let r ← get
  let some number := r.names.lookup name | failure
  let some found := r.complete.find? (·.number = number) | failure
  set { r with aliases := r.aliases + 1 + found.aliases, events := r.events + 1 }
  pure found.node

/-- The anchor and the tag in front of a node, in any order. -/
def properties : (steps : Nat) → Option Text → Option Text → Parse (Option Text × Option Text)
  | 0, anchor, tag => pure (anchor, tag)
  | steps + 1, anchor, tag => do
    match ← next, anchor, tag with
    | some (.anchor name), none, tag =>
      skip
      properties steps (some name) tag
    | some (.tag name), anchor, none =>
      skip
      properties steps anchor (some name)
    | _, anchor, tag => pure (anchor, tag)

/-- Gives a node, which is read by `read`, the name of an anchor. The name counts from
    the start of the node on, the node itself once it is complete. -/
def anchored (anchor : Option Text) (read : Parse Node) : Parse Node := do
  match anchor with
  | none => read
  | some name =>
    let r ← get
    let number := r.names.length
    set { r with names := (name, number) :: r.names }
    let node ← read
    modify fun after =>
      { after with complete := ⟨number, node, after.aliases - r.aliases⟩ :: after.complete }
    pure node

/-- The tag of a scalar; the mark alone is none. -/
def scalarTag (tag : Option Text) : Option Text :=
  tag.filter (· ≠ ['!'])

mutual

/-- Reads a node. In brackets no block may begin; in front of a key and a value of a
    block the items of a sequence may stand without indentation. -/
def node (steps : Nat) (block loose : Bool) : Parse Node :=
  match steps with
  | 0 => failure
  | steps + 1 => do
    match ← next with
    | some (.alias name) =>
      skip
      follow name
    | _ =>
      let (anchor, tag) ← properties 2 none none
      anchored anchor do
        count
        match ← next with
        | some (.scalar plain text) =>
          skip
          pure (.scalar (scalarTag tag) (plain || tag == some ['!']) text)
        | some .openSequence =>
          skip
          return .sequence tag (← flowItems steps true)
        | some .openMapping =>
          skip
          return .mapping tag (← flowEntries steps true)
        | some .item =>
          if loose then return .sequence tag (← looseItems steps)
          else if anchor.isSome || tag.isSome then pure (.scalar (scalarTag tag) true [])
          else failure
        | some .blockSequence =>
          if block then
            skip
            return .sequence tag (← blockItems steps)
          else if anchor.isSome || tag.isSome then pure (.scalar (scalarTag tag) true [])
          else failure
        | some .blockMapping =>
          if block then
            skip
            return .mapping tag (← blockEntries steps)
          else if anchor.isSome || tag.isSome then pure (.scalar (scalarTag tag) true [])
          else failure
        | _ =>
          if anchor.isSome || tag.isSome then pure (.scalar (scalarTag tag) true [])
          else failure

/-- Reads a node unless one of the tokens `ends` comes next. -/
def nodeOrEmpty (steps : Nat) (block loose : Bool) (ends : List Token) : Parse Node :=
  match steps with
  | 0 => failure
  | steps + 1 => do
    if ← atAny ends then
      count
      pure .empty
    else node steps block loose

/-- Reads the items of an indented sequence, and its end. -/
def blockItems (steps : Nat) : Parse (List Node) :=
  match steps with
  | 0 => failure
  | steps + 1 => do
    match ← next with
    | some .item =>
      skip
      let item ← nodeOrEmpty steps true false [.item, .blockEnd]
      return item :: (← blockItems steps)
    | some .blockEnd =>
      skip
      count
      pure []
    | _ => failure

/-- Reads the items of a sequence without indentation. -/
def looseItems (steps : Nat) : Parse (List Node) :=
  match steps with
  | 0 => failure
  | steps + 1 => do
    match ← next with
    | some .item =>
      skip
      let item ← nodeOrEmpty steps true false [.item, .key, .value, .blockEnd]
      return item :: (← looseItems steps)
    | _ =>
      count
      pure []

/-- Reads the entries of an indented mapping, and its end. -/
def blockEntries (steps : Nat) : Parse (List (Node × Node)) :=
  match steps with
  | 0 => failure
  | steps + 1 => do
    match ← next with
    | some .key =>
      skip
      let key ← nodeOrEmpty steps true true [.key, .value, .blockEnd]
      if (← next) == some .value then
        skip
        let value ← nodeOrEmpty steps true true [.key, .value, .blockEnd]
        return (key, value) :: (← blockEntries steps)
      else
        count
        return (key, .empty) :: (← blockEntries steps)
    | some .blockEnd =>
      skip
      count
      pure []
    | _ => failure

/-- Reads the items of a sequence in brackets, and the closing one. An item may be a
    single entry of a mapping. -/
def flowItems (steps : Nat) (first : Bool) : Parse (List Node) :=
  match steps with
  | 0 => failure
  | steps + 1 => do
    if ← atAny [.closeSequence] then
      skip
      count
      pure []
    else
      if !first then expect .comma
      match ← next with
      | some .key =>
        skip
        count
        let item ← flowPair steps
        return item :: (← flowItems steps false)
      | some .closeSequence =>
        skip
        count
        pure []
      | _ =>
        let item ← node steps false false
        return item :: (← flowItems steps false)

/-- Reads the single entry of a mapping that is an item in brackets. Where the key is
    missing, the token behind it is passed over. -/
def flowPair (steps : Nat) : Parse Node :=
  match steps with
  | 0 => failure
  | steps + 1 => do
    let key ←
      if ← atAny [.value, .comma, .closeSequence] then
        skip
        count
        pure Node.empty
      else node steps false false
    let value ←
      if (← next) == some .value then
        skip
        nodeOrEmpty steps false false [.comma, .closeSequence]
      else
        count
        pure Node.empty
    count
    pure (.mapping none [(key, value)])

/-- Reads the entries of a mapping in braces, and the closing one. -/
def flowEntries (steps : Nat) (first : Bool) : Parse (List (Node × Node)) :=
  match steps with
  | 0 => failure
  | steps + 1 => do
    if ← atAny [.closeMapping] then
      skip
      count
      pure []
    else
      if !first then expect .comma
      match ← next with
      | some .key =>
        skip
        let key ← nodeOrEmpty steps false false [.value, .comma, .closeMapping]
        if (← next) == some .value then
          skip
          let value ← nodeOrEmpty steps false false [.comma, .closeMapping]
          return (key, value) :: (← flowEntries steps false)
        else
          count
          return (key, .empty) :: (← flowEntries steps false)
      | some .closeMapping =>
        skip
        count
        pure []
      | _ =>
        let key ← node steps false false
        count
        return (key, .empty) :: (← flowEntries steps false)

end

/-- Reads a document up to its end; `none` if there is only space. -/
def document (steps : Nat) : Parse (Option Node) := do
  match ← next with
  | none => pure none
  | some .documentStart =>
    skip
    if ((← next).all [.documentStart, .documentEnd].contains) then
      count
      pure (some .empty)
    else some <$> node steps true false
  | some _ => some <$> node steps true false

end Parse

/-- The greatest height of a document. -/
def maxHeight : Nat := 128

/-- How many aliases may be followed for each node. -/
def maxAliases : Nat := 100

/-- The node of a document, `some none` if there is only space, and `none` if the text is
    no document, or more than one. -/
def Node.read? (t : Text) : Option (Option Node) := do
  let tokens ← Token.read? t
  let (found, r) ← (Parse.document (3 * tokens.length + 3)).run { tokens }
  if r.tokens.all (· == .documentEnd) && r.aliases ≤ maxAliases * r.events &&
      found.all (·.height ≤ maxHeight) then
    pure found
  else none

end Shortcode.Yaml
