import Shortcode.Text.Natural

/-!
# Attributes

The attributes of a tag, in the order in which they were given. A value without
a name is *positional* and stored under its number; both kinds share one list.
Assigning a name again keeps its place and replaces its value.

* `get?_insert_self`: an inserted value is found under its key.
* `get?_insert_of_ne`: an insertion changes no other key.
* `lookup?_withDefaults`: a default is seen only where the key is absent.
-/

namespace Shortcode

/-- What an attribute value is stored under: its number, or its name. -/
inductive AttrKey
  | position (index : Nat)
  | name (text : Text)
  deriving DecidableEq, Repr

/-- A key as written in a message or as a template variable. -/
def AttrKey.text : AttrKey → Text
  | .position index => decimal index
  | .name text => text

/-- Attributes in the order of their first assignment. -/
structure Attributes where
  entries : List (AttrKey × Text)
  deriving DecidableEq, Repr

namespace Attributes

/-- No attributes. -/
def empty : Attributes :=
  ⟨[]⟩

/-- A list of entries where `key` has the value `value`, in its old place or
    else at the end. -/
def assign (key : AttrKey) (value : Text) : List (AttrKey × Text) → List (AttrKey × Text)
  | [] => [(key, value)]
  | (k, v) :: rest => if k = key then (key, value) :: rest else (k, v) :: assign key value rest

/-- The attributes with `key` set to `value`. -/
def insert (attrs : Attributes) (key : AttrKey) (value : Text) : Attributes :=
  ⟨assign key value attrs.entries⟩

/-- The value stored under `key`. -/
def lookup? (attrs : Attributes) (key : AttrKey) : Option Text :=
  attrs.entries.lookup key

/-- The value of the attribute called `name`. -/
def get? (attrs : Attributes) (name : Text) : Option Text :=
  attrs.lookup? (.name name)

/-- The positional value number `index`, counted from 0. -/
def positional? (attrs : Attributes) (index : Nat) : Option Text :=
  attrs.lookup? (.position index)

/-- The attribute called `name`, or else the positional value number `index`. -/
def value? (attrs : Attributes) (name : Text) (index : Nat) : Option Text :=
  (attrs.get? name).or (attrs.positional? index)

/-- The attribute called `name`, or else `default`. -/
def getD (attrs : Attributes) (name default : Text) : Text :=
  (attrs.get? name).getD default

/-- Whether there is an attribute called `name`. -/
def contains (attrs : Attributes) (name : Text) : Bool :=
  (attrs.get? name).isSome

/-- The named attributes, in order. -/
def named (attrs : Attributes) : List (Text × Text) :=
  attrs.entries.filterMap fun
    | (.name name, value) => some (name, value)
    | (.position _, _) => none

/-- The keys, in order. -/
def keys (attrs : Attributes) : List AttrKey :=
  attrs.entries.map (·.1)

/-- The attributes, followed by each entry of `defaults` whose key is absent. -/
def withDefaults (attrs defaults : Attributes) : Attributes :=
  ⟨defaults.entries.foldl
    (fun merged (key, value) =>
      if (merged.lookup key).isSome then merged else merged ++ [(key, value)])
    attrs.entries⟩

/-- The attributes given by keys and values in order, a later value replacing an
    earlier one. -/
def ofList (entries : List (AttrKey × Text)) : Attributes :=
  entries.foldl (fun attrs (key, value) => attrs.insert key value) empty

/-- The attributes given by names and values in order. -/
def ofNamed (pairs : List (Text × Text)) : Attributes :=
  ofList (pairs.map fun (name, value) => (.name name, value))

theorem lookup_assign_self (key : AttrKey) (value : Text) (entries : List (AttrKey × Text)) :
    (assign key value entries).lookup key = some value := by
  induction entries with
  | nil => simp [assign]
  | cons e rest ih =>
    obtain ⟨k, v⟩ := e
    by_cases h : k = key
    · simp [assign, h]
    · have h' : (key == k) = false := by simpa using fun e => h e.symm
      simp [assign, h, List.lookup_cons, h', ih]

theorem lookup_assign_of_ne {key other : AttrKey} (value : Text)
    (entries : List (AttrKey × Text)) (hne : other ≠ key) :
    (assign key value entries).lookup other = entries.lookup other := by
  induction entries with
  | nil =>
    have h' : (other == key) = false := by simpa using hne
    simp [assign, List.lookup_cons, h']
  | cons e rest ih =>
    obtain ⟨k, v⟩ := e
    by_cases h : k = key
    · subst h
      have h' : (other == k) = false := by simpa using hne
      simp [assign, List.lookup_cons, h']
    · simp only [assign, h, if_false, List.lookup_cons, ih]

theorem get?_insert_self (attrs : Attributes) (name value : Text) :
    (attrs.insert (.name name) value).get? name = some value :=
  lookup_assign_self _ _ _

theorem get?_insert_of_ne (attrs : Attributes) {name : Text} {key : AttrKey} (value : Text)
    (hne : .name name ≠ key) : (attrs.insert key value).get? name = attrs.get? name :=
  lookup_assign_of_ne _ _ hne

/-- A default is seen only where the key is absent. -/
theorem lookup?_withDefaults (attrs defaults : Attributes) (key : AttrKey) :
    (attrs.withDefaults defaults).lookup? key
      = (attrs.lookup? key).or (defaults.lookup? key) := by
  obtain ⟨entries⟩ := attrs
  obtain ⟨extra⟩ := defaults
  simp only [lookup?, withDefaults]
  induction extra generalizing entries with
  | nil => simp
  | cons e rest ih =>
    obtain ⟨k, v⟩ := e
    rw [List.foldl_cons, ih]
    by_cases hk : key = k
    · subst hk
      cases h : entries.lookup key with
      | none => simp [List.lookup_append, h]
      | some w => simp [h]
    · have hk' : (key == k) = false := by simpa using hk
      cases h : entries.lookup k with
      | none => simp [List.lookup_append, List.lookup_cons, hk']
      | some w => simp [List.lookup_cons, hk']

end Attributes

end Shortcode
