import Shortcode.Field
import Shortcode.Text.Blank
import Shortcode.Yaml.Value

/-!
# Front matter

A page may begin with a block of fields between two lines `---`. What stands behind the
second one is its body. Only texts, numbers, truth values and lists of these are fields.
-/

namespace Shortcode.FrontMatter

/-- The first line of a text, with its end, and the rest. -/
def firstLine : Text → Text × Text
  | [] => ([], [])
  | c :: t =>
    if c = '\n' then ([c], t)
    else
      let (line, rest) := firstLine t
      (c :: line, rest)

theorem firstLine_append (t : Text) : (firstLine t).1 ++ (firstLine t).2 = t := by
  induction t with
  | nil => rfl
  | cons c t ih => by_cases h : c = '\n' <;> simp [firstLine, h, ih]

theorem length_firstLine_lt {c : Char} {t : Text} :
    (firstLine (c :: t)).2.length < (c :: t).length := by
  have h := congrArg List.length (firstLine_append t)
  simp only [List.length_append] at h
  by_cases hc : c = '\n'
  · simp [firstLine, hc]
  · simp only [firstLine, hc, if_false, List.length_cons]
    omega

/-- Whether a line closes the block, blanks behind it apart. -/
def isFence (line : Text) : Bool :=
  Text.trimEnd line == "---".toList

/-- The parts of a text in front of its first fence and behind it. -/
def splitLines (t : Text) : Option (Text × Text) :=
  match t with
  | [] => none
  | c :: r =>
    let (line, rest) := firstLine (c :: r)
    if isFence line then some ([], rest)
    else (splitLines (firstLine (c :: r)).2).map fun (block, body) => (line ++ block, body)
termination_by t.length
decreasing_by exact length_firstLine_lt

/-- A page cut into its block and its body; `none` without a block. -/
def split? (source : Text) : Option (Text × Text) :=
  match (Text.after? "---\n".toList source).or (Text.after? "---\r\n".toList source) with
  | some rest => splitLines rest
  | none => none

/-- A scalar as a text. -/
def scalar? : Yaml.Value → Option Text
  | .text t => some t
  | .number n => some n.text
  | .flag b => some (if b then "true".toList else "false".toList)
  | _ => none

/-- A value as the value of a field. -/
def field? : Yaml.Value → Option FieldValue
  | .sequence items => some (.list (items.filterMap scalar?))
  | v => (scalar? v).map .text

/-- An entry as a field. A key that is no text names none. -/
def entry? (key value : Yaml.Value) : Option (Text × FieldValue) :=
  match key.untagged with
  | .text name => (field? value).map (name, ·)
  | _ => none

/-- The fields that a block sets; `none` if it is malformed. -/
def fields? (block : Text) : Option Fields :=
  if (Text.trim block).isEmpty then some Table.empty
  else (Yaml.Value.readMapping? block).map fun entries =>
    Table.ofList (entries.filterMap fun (key, value) => entry? key value)

/-- The fields and the body of a page; `none` if its block is malformed. -/
def read? (source : Text) : Option (Fields × Text) :=
  match split? source with
  | some (block, body) => (fields? block).map (·, body)
  | none => some (Table.empty, source)

end Shortcode.FrontMatter
