import Shortcode.Text.Alphanumeric
import Shortcode.Text.Basic

/-!
# References to the environment

A setting may refer to variables of the environment: `${NAME}` stands for the value
of a variable, and `${NAME:-default}` for the default if the variable is not set. In a
setting with such a reference `$NAME` is one too, and `$$` stands for a dollar. What a
reference stands for is copied, never expanded again.

* `expand_of_not_includes`: a setting without a reference in braces stays as it is.
* `runInPlace_eq`: what stands in the place of a setting that is expanded.
-/

namespace Shortcode

/-- The values of the variables that are set. -/
abbrev Environment :=
  Text → Option Text

/-- A variable that is not set and has no default. -/
structure UnsetVariable where
  name : Text
  deriving DecidableEq, Repr

/-- The message about an unset variable. -/
def UnsetVariable.message (e : UnsetVariable) : String :=
  "$\x7b" ++ String.ofList e.name ++ "\x7d not set"

namespace Environment

/-- Whether `c` may occur in the name of a variable without braces. -/
def isNameChar (c : Char) : Bool :=
  isAlphanumeric c || c == '_'

/-- A text cut at the first `:-` in it. -/
def splitMark? : Text → Option (Text × Text)
  | [] => none
  | ':' :: '-' :: t => some ([], t)
  | c :: t => (splitMark? t).map fun (s, r) => (c :: s, r)

/-- The name and the default of the reference that stands between two braces. The
    mark of a default belongs to the name if nothing stands in front of it. -/
def reference (inner : Text) : Text × Option Text :=
  match splitMark? inner with
  | some ([], _) => (inner, none)
  | some (name, fallback) => (name, some fallback)
  | none => (inner, none)

/-- The value of a variable or else a default. -/
def value (env : Environment) (name : Text) (fallback : Option Text) :
    Except UnsetVariable Text :=
  match (env name).or fallback with
  | some value => .ok value
  | none => .error ⟨name⟩

/-- A text with its references replaced. -/
def replace (env : Environment) (t : Text) : Except UnsetVariable Text :=
  match t with
  | [] => .ok []
  | '$' :: '\x7b' :: r =>
    match _h : Text.splitAt? '\x7d' r with
    | some (inner, rest) => do
      let (name, fallback) := reference inner
      let value ← env.value name fallback
      let others ← replace env rest
      pure (value ++ others)
    | none => (replace env r).map ('$' :: '\x7b' :: ·)
  | '$' :: '$' :: r => (replace env r).map ('$' :: ·)
  | '$' :: c :: r =>
    if isNameChar c then do
      let value ← env.value (c :: r.takeWhile isNameChar) none
      let others ← replace env (r.dropWhile isNameChar)
      pure (value ++ others)
    else (replace env (c :: r)).map ('$' :: ·)
  | c :: r => (replace env r).map (c :: ·)
termination_by t.length
decreasing_by
  · have := Text.length_of_splitAt _h
    simp only [List.length_cons]
    omega
  · simp only [List.length_cons]; omega
  · simp only [List.length_cons]; omega
  · have : (r.dropWhile isNameChar).length ≤ r.length := (List.dropWhile_sublist _).length_le
    simp only [List.length_cons]
    omega
  · simp
  · simp

/-- A setting with its references replaced, if it has one in braces. -/
def expand (env : Environment) (t : Text) : Except UnsetVariable Text :=
  if Text.includes "$\x7b".toList t then env.replace t else .ok t

/-- A setting without a reference in braces stays as it is. -/
theorem expand_of_not_includes (env : Environment) {t : Text}
    (h : Text.includes "$\x7b".toList t = false) : env.expand t = .ok t := by
  simp only [expand, h]
  rfl

/-- Replaces the references in a setting where it stands. -/
def expandInPlace (env : Environment) : ExceptT UnsetVariable (StateM Text) Unit := do
  let expanded ← ExceptT.mk (pure (env.expand (← get)))
  set expanded

/-- How that ends for a setting, and what then stands in its place. -/
def runInPlace (env : Environment) (t : Text) : Except UnsetVariable Unit × Text :=
  Id.run (env.expandInPlace.run.run t)

/-- In the place of a setting stands what it expands to, or the setting if that fails. -/
theorem runInPlace_eq (env : Environment) (t : Text) :
    env.runInPlace t = match env.expand t with
      | .ok expanded => (.ok (), expanded)
      | .error unset => (.error unset, t) := by
  have hrun : env.runInPlace t = Id.run
      ((ExceptT.mk (pure (env.expand t)) >>= set : ExceptT UnsetVariable (StateM Text) Unit).run
        |>.run t) := rfl
  rw [hrun]
  cases env.expand t <;> rfl

end Environment

end Shortcode
