import Shortcode.Text.Basic

/-!
# Values of a TOML document

A document is a table of values that is filled line by line. Keys and table headers
name places by paths; a table that a path goes through is made if it is missing.
No key is set twice and no table is begun twice:

* a header may begin a table that was only passed through so far;
* a dotted key extends only tables that dotted keys have made;
* a table in braces is never extended;
* a header in double brackets adds a table to a list of such tables, and a path
  through such a list goes through its last table.

Main statements:

* `lookup_set`: setting a key changes no other one.
-/

namespace Shortcode.Toml

/-- How a table came to be. -/
inductive TableOrigin
  /-- A path of a header went through it. -/
  | passed
  /-- A dotted key made it. -/
  | dotted
  /-- A header began it. -/
  | begun
  /-- It was written in braces. -/
  | inline
  deriving DecidableEq, Repr

/-- A value. Dates, times and floating point numbers are not told apart: no setting
    is one. -/
inductive Value
  | text (value : Text)
  | integer (value : Int)
  | boolean (value : Bool)
  | float
  | moment
  | array (items : List Value)
  /-- The tables of one header in double brackets, the last one first. -/
  | tables (reversed : List (List (Text × Value)))
  | table (origin : TableOrigin) (entries : List (Text × Value))

/-- The entries of a table, in the order in which they were made. -/
abbrev Entries :=
  List (Text × Value)

namespace Entries

/-- The entries with `value` under `key`, in its old place or at the end. -/
def set (key : Text) (value : Value) : Entries → Entries
  | [] => [(key, value)]
  | (k, v) :: rest => if k = key then (key, value) :: rest else (k, v) :: set key value rest

theorem lookup_set (key other : Text) (value : Value) (entries : Entries) :
    (set key value entries).lookup other =
      if other = key then some value else entries.lookup other := by
  induction entries with
  | nil =>
    by_cases h : other = key
    · simp [set, h]
    · have h' : (other == key) = false := by simpa using h
      simp [set, List.lookup_cons, h, h']
  | cons e rest ih =>
    obtain ⟨k, v⟩ := e
    by_cases hk : k = key
    · subst hk
      by_cases h : other = k
      · simp [set, h]
      · have h' : (other == k) = false := by simpa using h
        simp [set, List.lookup_cons, h, h']
    · simp only [set, hk, if_false, List.lookup_cons, ih]
      by_cases h : other = k
      · simp [h, hk]
      · have h' : (other == k) = false := by simpa using h
        simp [h']

/-- Changes the table that the path of a header leads to by `f`. -/
def change (f : Entries → Option Entries) : (path : List Text) → Entries → Option Entries
  | [], entries => f entries
  | key :: path, entries =>
    match entries.lookup key with
    | none => (change f path []).map fun t => set key (.table .passed t) entries
    | some (.table .inline _) => none
    | some (.table origin t) =>
      (change f path t).map fun t => set key (.table origin t) entries
    | some (.tables (last :: others)) =>
      (change f path last).map fun t => set key (.tables (t :: others)) entries
    | some _ => none

/-- Begins the table at `key`. -/
def begin (key : Text) (entries : Entries) : Option Entries :=
  match entries.lookup key with
  | none => some (set key (.table .begun []) entries)
  | some (.table .passed t) => some (set key (.table .begun t) entries)
  | some _ => none

/-- Adds a table to the list of tables at `key`. -/
def append (key : Text) (entries : Entries) : Option Entries :=
  match entries.lookup key with
  | none => some (set key (.tables [[]]) entries)
  | some (.tables others) => some (set key (.tables ([] :: others)) entries)
  | some _ => none

/-- Sets a dotted key, whose last part is `key`. -/
def assign (key : Text) (value : Value) : (path : List Text) → Entries → Option Entries
  | [], entries =>
    match entries.lookup key with
    | none => some (set key value entries)
    | some _ => none
  | part :: path, entries =>
    match entries.lookup part with
    | none => (assign key value path []).map fun t => set part (.table .dotted t) entries
    | some (.table .dotted t) =>
      (assign key value path t).map fun t => set part (.table .dotted t) entries
    | some (.table .passed t) =>
      match path with
      | [] => none
      | _ => (assign key value path t).map fun t => set part (.table .passed t) entries
    | some (.tables (last :: others)) =>
      match path with
      | [] => none
      | _ => (assign key value path last).map fun t => set part (.tables (t :: others)) entries
    | some _ => none

end Entries

end Shortcode.Toml
