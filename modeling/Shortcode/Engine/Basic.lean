import Shortcode.Attributes.Basic
import Shortcode.Markup.Opening
import Shortcode.Text.Quoted

/-!
# Engines

An engine binds tag names to handlers. Its names are kept in the order in which
they were first bound; binding a name again replaces its handler and keeps its
place. A name that no tag can have is refused.

What a handler is does not matter here: an engine can be shown without running
it, and one handler can be bound to several names.

* `handler?_register`: a bound name has the handler it was bound to last, and
  binding a name changes no other one.
* `names_register`: a binding adds its name at the end, or nothing.
* `mem_names_iff`: the names of an engine are those that have a handler.
-/

namespace Shortcode

/-- What happens when a handler fails. -/
inductive ErrorPolicy
  /-- The whole document fails. -/
  | propagate
  /-- The tag stays in the document as it was written. -/
  | isolate
  deriving DecidableEq, Repr

/-- The policy as shown in messages. -/
def ErrorPolicy.label : ErrorPolicy → String
  | propagate => "Propagate"
  | isolate => "Isolate"

/-- The limits of an engine: the depth of nesting down to which content is
    expanded, and what happens on errors. -/
structure EngineConfig where
  maxDepth : Nat := 10
  onError : ErrorPolicy := .propagate
  deriving DecidableEq, Repr

/-- A tag name that was refused. -/
structure InvalidTagName where
  name : Text
  deriving DecidableEq, Repr

/-- The message about a refused name. -/
def InvalidTagName.message (e : InvalidTagName) : String :=
  s!"invalid tag name {String.ofList (Text.quoted e.name)}: expected letters, digits, '_' or '-'"

/-- An engine with handlers of type `η`. -/
structure Engine (η : Type) where
  config : EngineConfig
  bindings : List (Text × η)

namespace Engine

variable {η : Type}

/-- An engine without tags. -/
def empty (config : EngineConfig) : Engine η :=
  ⟨config, []⟩

/-- The tag names, in the order in which they were first bound. -/
def names (e : Engine η) : List Text :=
  e.bindings.map (·.1)

/-- The handler that a name is bound to. -/
def handler? (e : Engine η) (name : Text) : Option η :=
  e.bindings.lookup name

/-- Whether a name is bound. -/
def contains (e : Engine η) (name : Text) : Bool :=
  (e.handler? name).isSome

/-- Bindings where `name` is bound to `handler`, in its old place or else at the
    end. -/
def assign (name : Text) (handler : η) : List (Text × η) → List (Text × η)
  | [] => [(name, handler)]
  | (n, h) :: rest =>
    if n = name then (name, handler) :: rest else (n, h) :: assign name handler rest

/-- The engine with `name` bound to `handler`. -/
def register (e : Engine η) (name : Text) (handler : η) : Except InvalidTagName (Engine η) :=
  if isTagName name then .ok { e with bindings := assign name handler e.bindings }
  else .error ⟨name⟩

/-- The engine in short: its limits and its tag names. -/
def describe (e : Engine η) : String :=
  let names := ", ".intercalate (e.names.map fun n => String.ofList (Text.quoted n))
  s!"ShortcodeEngine \x7b config: EngineConfig \x7b max_depth: {e.config.maxDepth}, on_error: " ++
    s!"{e.config.onError.label} \x7d, tags: [{names}], .. \x7d"

theorem lookup_assign (name other : Text) (handler : η) (bindings : List (Text × η)) :
    (assign name handler bindings).lookup other =
      if other = name then some handler else bindings.lookup other := by
  induction bindings with
  | nil =>
    by_cases h : other = name
    · simp [assign, h]
    · have h' : (other == name) = false := by simpa using h
      simp [assign, List.lookup_cons, h, h']
  | cons b rest ih =>
    obtain ⟨n, k⟩ := b
    by_cases hn : n = name
    · subst hn
      by_cases h : other = n
      · simp [assign, h]
      · have h' : (other == n) = false := by simpa using h
        simp [assign, List.lookup_cons, h, h']
    · simp only [assign, hn, if_false, List.lookup_cons, ih]
      by_cases h : other = n
      · simp [h, hn]
      · have h' : (other == n) = false := by simpa using h
        simp [h']

theorem map_fst_assign (name : Text) (handler : η) (bindings : List (Text × η)) :
    (assign name handler bindings).map (·.1) =
      if name ∈ bindings.map (·.1) then bindings.map (·.1)
      else bindings.map (·.1) ++ [name] := by
  induction bindings with
  | nil => simp [assign]
  | cons b rest ih =>
    obtain ⟨n, k⟩ := b
    by_cases hn : n = name
    · simp [assign, hn]
    · have hn' : ¬ name = n := fun h => hn h.symm
      simp only [assign, hn, if_false, List.map_cons, ih, List.mem_cons, hn', false_or]
      split <;> simp

/-- A bound name has the handler it was bound to last; no other name changes. -/
theorem handler?_register {e e' : Engine η} {name : Text} {handler : η}
    (h : e.register name handler = .ok e') (other : Text) :
    e'.handler? other = if other = name then some handler else e.handler? other := by
  unfold register at h
  split at h
  · simp only [Except.ok.injEq] at h
    subst h
    exact lookup_assign _ _ _ _
  · simp at h

/-- A binding adds its name at the end if it is new. -/
theorem names_register {e e' : Engine η} {name : Text} {handler : η}
    (h : e.register name handler = .ok e') :
    e'.names = if name ∈ e.names then e.names else e.names ++ [name] := by
  unfold register at h
  split at h
  · simp only [Except.ok.injEq] at h
    subst h
    exact map_fst_assign _ _ _
  · simp at h

/-- Only a name that a tag can have is bound. -/
theorem isTagName_of_register {e e' : Engine η} {name : Text} {handler : η}
    (h : e.register name handler = .ok e') : isTagName name = true := by
  by_cases hname : isTagName name = true
  · exact hname
  · rw [register, if_neg hname] at h
    exact absurd h (by simp)

/-- The names of an engine are those that have a handler. -/
theorem mem_names_iff {e : Engine η} {name : Text} :
    name ∈ e.names ↔ e.contains name = true := by
  rw [names, contains, handler?, List.lookup_isSome_iff, List.mem_map]
  simp only [beq_iff_eq, @eq_comm _ name]

/-- A binding changes no limit. -/
theorem config_register {e e' : Engine η} {name : Text} {handler : η}
    (h : e.register name handler = .ok e') : e'.config = e.config := by
  rw [register] at h
  split at h
  · rw [← Except.ok.inj h]
  · exact absurd h (by simp)

end Engine

end Shortcode
