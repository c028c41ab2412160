import Shortcode.Text.Basic

/-!
# Tables

A table holds values under names, in ascending order of the names by code point.
The order belongs to the type: whatever is built from a table lists its entries in
the same order, however the table was filled.

* `get?_of_mem`: an entry is found under its name.
* `perm_ofList`: entries with different names all stand in the table of them.
* `get?_insert`: an insertion changes the value of its own name only.
* `pairwise_put`: an insertion keeps the order.
-/

namespace Shortcode

/-- Values under names, sorted by name. -/
structure Table (α : Type) where
  entries : List (Text × α)
  sorted : entries.Pairwise (·.1 < ·.1)

namespace Table

variable {α : Type}

/-- A list of entries with `value` under `name`. -/
def put (name : Text) (value : α) : List (Text × α) → List (Text × α)
  | [] => [(name, value)]
  | (n, v) :: rest =>
    if name = n then (name, value) :: rest
    else if name < n then (name, value) :: (n, v) :: rest
    else (n, v) :: put name value rest

theorem mem_put {name : Text} {value : α} {entries : List (Text × α)} {e : Text × α}
    (h : e ∈ put name value entries) : e = (name, value) ∨ e ∈ entries := by
  induction entries with
  | nil => simpa [put] using h
  | cons b rest ih =>
    obtain ⟨n, v⟩ := b
    simp only [put] at h
    split at h
    · simp only [List.mem_cons] at h ⊢
      exact h.imp id Or.inr
    · split at h
      · simpa using h
      · rcases List.mem_cons.mp h with h | h
        · exact .inr (by simp [h])
        · exact (ih h).imp id (List.mem_cons_of_mem _)

theorem pairwise_put (name : Text) (value : α) {entries : List (Text × α)}
    (h : entries.Pairwise (·.1 < ·.1)) : (put name value entries).Pairwise (·.1 < ·.1) := by
  induction entries with
  | nil => simp [put]
  | cons b rest ih =>
    obtain ⟨n, v⟩ := b
    obtain ⟨hb, hrest⟩ := List.pairwise_cons.mp h
    simp only [put]
    split
    next heq => exact List.pairwise_cons.mpr ⟨fun e he => heq ▸ hb e he, hrest⟩
    next hne =>
      split
      next hlt =>
        refine List.pairwise_cons.mpr ⟨fun e he => ?_, h⟩
        rcases List.mem_cons.mp he with rfl | he
        · exact hlt
        · exact List.lt_trans hlt (hb e he)
      next hge =>
        refine List.pairwise_cons.mpr ⟨fun e he => ?_, ih hrest⟩
        rcases mem_put he with rfl | he
        · rcases Std.lt_trichotomy n name with h | h | h
          · exact h
          · exact absurd h.symm hne
          · exact absurd h hge
        · exact hb e he

/-- The table without entries. -/
def empty : Table α :=
  ⟨[], .nil⟩

/-- The table with `value` under `name`. -/
def insert (table : Table α) (name : Text) (value : α) : Table α :=
  ⟨put name value table.entries, pairwise_put name value table.sorted⟩

/-- The value under `name`. -/
def get? (table : Table α) (name : Text) : Option α :=
  table.entries.lookup name

/-- The table of a list of entries, of which the last one under a name counts. -/
def ofList (entries : List (Text × α)) : Table α :=
  entries.foldl (fun table (name, value) => table.insert name value) empty

/-- The table with another value under each name. -/
def map {β : Type} (f : α → β) (table : Table α) : Table β :=
  ⟨table.entries.map fun (name, value) => (name, f value),
    List.pairwise_map.mpr table.sorted⟩

/-- The names, in ascending order. -/
def names (table : Table α) : List Text :=
  table.entries.map (·.1)

/-- The names come in ascending order. -/
theorem pairwise_names (table : Table α) : table.names.Pairwise (· < ·) :=
  List.pairwise_map.mpr table.sorted

/-- No name comes twice. -/
theorem nodup_names (table : Table α) : table.names.Nodup := by
  refine List.Pairwise.imp (fun hlt => ?_) table.pairwise_names
  rintro rfl
  exact List.lt_irrefl _ hlt

/-- An entry is found under its name. -/
theorem get?_of_mem {table : Table α} {name : Text} {value : α}
    (h : (name, value) ∈ table.entries) : table.get? name = some value := by
  obtain ⟨earlier, later, hentries⟩ := List.append_of_mem h
  rw [get?, List.lookup_eq_some_iff]
  refine ⟨earlier, later, hentries, fun entry hentry => ?_⟩
  -- what stands earlier has a smaller name
  have hsorted := table.sorted
  rw [hentries, List.pairwise_append] at hsorted
  have hlt := hsorted.2.2 entry hentry _ List.mem_cons_self
  simpa using fun heq => List.lt_irrefl _ (heq ▸ hlt)

/-- Nothing is found under what is no name of the table. -/
theorem get?_eq_none_iff {table : Table α} {name : Text} :
    table.get? name = none ↔ name ∉ table.names := by
  rw [get?, List.lookup_eq_none_iff, names, List.mem_map]
  constructor
  · rintro h ⟨entry, hentry, rfl⟩
    simpa using h entry hentry
  · intro h entry hentry
    simpa using fun heq => h ⟨entry, hentry, heq.symm⟩

/-- What is found under a name is an entry. -/
theorem mem_of_get? {table : Table α} {name : Text} {value : α}
    (h : table.get? name = some value) : (name, value) ∈ table.entries := by
  obtain ⟨earlier, later, hentries, -⟩ := List.lookup_eq_some_iff.1 h
  simp [hentries]

theorem lookup_put (name other : Text) (value : α) (entries : List (Text × α)) :
    (put name value entries).lookup other =
      if other = name then some value else entries.lookup other := by
  induction entries with
  | nil =>
    by_cases h : other = name
    · simp [put, h]
    · have h' : (other == name) = false := by simpa using h
      simp [put, List.lookup_cons, h, h']
  | cons b rest ih =>
    obtain ⟨n, v⟩ := b
    have at_front : ∀ tail : List (Text × α), ((name, value) :: tail).lookup other =
        if other = name then some value else tail.lookup other := by
      intro tail
      by_cases h : other = name
      · simp [h]
      · have h' : (other == name) = false := by simpa using h
        simp [List.lookup_cons, h, h']
    simp only [put]
    split
    next heq =>
      subst heq
      rw [at_front]
      by_cases h : other = name
      · simp [h]
      · have h' : (other == name) = false := by simpa using h
        simp [List.lookup_cons, h, h']
    next hne =>
      split
      · exact at_front _
      · simp only [List.lookup_cons, ih]
        by_cases h : other = n
        · have hn : ¬ n = name := fun e => hne e.symm
          simp [h, hn]
        · have h' : (other == n) = false := by simpa using h
          simp [h']

/-- A name that is new adds one entry. -/
theorem perm_put {name : Text} {entries : List (Text × α)} (h : name ∉ entries.map (·.1))
    (value : α) : (put name value entries).Perm ((name, value) :: entries) := by
  induction entries with
  | nil => exact .refl _
  | cons b rest ih =>
    obtain ⟨n, v⟩ := b
    rw [List.map_cons, List.mem_cons, not_or] at h
    rw [put, if_neg h.1]
    split
    · exact .refl _
    · exact ((ih h.2).cons (n, v)).trans (.swap _ _ _)

theorem length_put_le (name : Text) (value : α) (entries : List (Text × α)) :
    (put name value entries).length ≤ entries.length + 1 := by
  induction entries with
  | nil => exact Nat.le_refl 1
  | cons b rest ih =>
    rw [put]
    split
    · exact Nat.le_succ _
    · split
      · exact Nat.le_refl _
      · exact Nat.succ_le_succ ih

theorem length_foldl_insert_le (entries : List (Text × α)) (table : Table α) :
    (entries.foldl (fun table (name, value) => table.insert name value) table).entries.length ≤
      table.entries.length + entries.length := by
  induction entries generalizing table with
  | nil => exact Nat.le_refl _
  | cons entry entries ih =>
    have hstep := length_put_le entry.1 entry.2 table.entries
    have hrest := ih (table.insert entry.1 entry.2)
    rw [List.foldl_cons, List.length_cons]
    simp only [insert] at hrest ⊢
    omega

/-- A table has no more entries than the list that it is filled with. -/
theorem length_ofList_le (entries : List (Text × α)) :
    (ofList entries).entries.length ≤ entries.length := by
  have h := length_foldl_insert_le entries empty
  rwa [show (empty : Table α).entries.length = 0 from rfl, Nat.zero_add] at h

theorem perm_foldl_insert {entries : List (Text × α)} {table : Table α}
    (h : (table.names ++ entries.map (·.1)).Nodup) :
    (entries.foldl (fun table (name, value) => table.insert name value) table).entries.Perm
      (table.entries ++ entries) := by
  induction entries generalizing table with
  | nil =>
    rw [List.append_nil]
    exact .refl _
  | cons entry entries ih =>
    obtain ⟨name, value⟩ := entry
    have hmove : (name :: (table.names ++ entries.map (·.1))).Nodup :=
      List.perm_middle.nodup_iff.1 h
    have hnew : name ∉ table.names :=
      fun hmem => (List.nodup_cons.1 hmove).1 (List.mem_append_left _ hmem)
    have hput := perm_put hnew value
    have hnames : ((table.insert name value).names ++ entries.map (·.1)).Perm
        (name :: (table.names ++ entries.map (·.1))) :=
      (hput.map (·.1)).append_right _
    exact (ih (hnames.symm.nodup hmove)).trans
      ((hput.append_right entries).trans List.perm_middle.symm)

/-- Entries with different names are the entries of the table that is filled with them. -/
theorem perm_ofList {entries : List (Text × α)} (h : (entries.map (·.1)).Nodup) :
    (ofList entries).entries.Perm entries :=
  perm_foldl_insert h

/-- An insertion changes the value of its own name only. -/
theorem get?_insert (table : Table α) (name other : Text) (value : α) :
    (table.insert name value).get? other = if other = name then some value else table.get? other :=
  lookup_put name other value table.entries

end Table

end Shortcode
