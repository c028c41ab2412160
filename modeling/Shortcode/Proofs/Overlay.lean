import Shortcode.Proofs.AliasDefaults
import Shortcode.Proofs.IncludedParameters

/-!
# Defaults as an overlay

Attributes are a list of entries, and a look-up stops at the first entry with its key. That
is right only because no key comes twice: every attribute list is read, made from names,
assigned to or filled up with defaults, and none of these brings a key that is there already.

For such lists the merge with defaults is the list itself and, behind it, the defaults with
other keys. All laws of the merge follow from this one equation.

* `Attributes.Built`: the attribute lists that come up.
* `Attributes.positions_read`: the positions that are read are numbered in their order.
* `Attributes.entries_withDefaults`, `Attributes.entries_insert`: what a merge and an
  assignment do to the entries.
* `Attributes.withDefaults_assoc`: defaults of defaults are defaults.
* `defaults_are_lawful_overlay`: the laws of the merge and of the assignment.
-/

namespace Shortcode

/-- The number of a position. -/
def AttrKey.position? : AttrKey → Option Nat
  | .position index => some index
  | .name _ => none

namespace Attributes

/-- The attribute lists that come up. -/
inductive Built : Attributes → Prop
  /-- What is written in a text. -/
  | read (t : Text) : Built (read t)
  /-- Names with their values. -/
  | ofNamed (pairs : List (Text × Text)) : Built (ofNamed pairs)
  /-- An assignment. -/
  | insert {attrs : Attributes} (h : Built attrs) (key : AttrKey) (value : Text) :
      Built (attrs.insert key value)
  /-- A merge with defaults. -/
  | withDefaults {attrs defaults : Attributes} (h : Built attrs) (hdefaults : Built defaults) :
      Built (attrs.withDefaults defaults)

/-- No key comes twice. -/
theorem Built.nodup_keys {attrs : Attributes} (h : attrs.Built) : attrs.keys.Nodup := by
  induction h with
  | read t => exact nodup_keys_read t
  | ofNamed pairs => exact nodup_keys_foldl _ List.Pairwise.nil
  | insert _ key value ih => exact nodup_keys_insert ih key value
  | withDefaults _ _ ih _ => exact nodup_keys_withDefaults ih _

theorem Built.foldl_insert {attrs : Attributes} (h : attrs.Built)
    (entries : List (AttrKey × Text)) :
    (entries.foldl (fun attrs entry => attrs.insert entry.1 entry.2) attrs).Built := by
  induction entries generalizing attrs with
  | nil => exact h
  | cons entry entries ih => exact ih (h.insert entry.1 entry.2)

/-- The defaults of an alias come up in this way. -/
theorem built_defaultAttributes (table : Table Text) : (defaultAttributes table).Built :=
  (Built.ofNamed []).foldl_insert _

theorem eq_of_entries {a b : Attributes} (h : a.entries = b.entries) : a = b := by
  obtain ⟨entries⟩ := a
  exact congrArg Attributes.mk h

/-! ## Assignments -/

/-- A key that is there and comes but once has its own value replaced. -/
theorem assign_eq_map {key : AttrKey} (value : Text) {entries : List (AttrKey × Text)}
    (h : (entries.map (·.1)).Nodup) (hkey : key ∈ entries.map (·.1)) :
    assign key value entries =
      entries.map fun entry => if entry.1 = key then (key, value) else entry := by
  induction entries with
  | nil => exact absurd hkey List.not_mem_nil
  | cons entry entries ih =>
    obtain ⟨k, v⟩ := entry
    obtain ⟨hfirst, hrest⟩ := List.nodup_cons.1 h
    rw [assign, List.map_cons]
    by_cases hk : k = key
    · -- no other entry has the key, so the rest stays as it is
      have hkeep : ∀ entry ∈ entries,
          (if entry.1 = key then (key, value) else entry) = entry := by
        intro entry hentry
        refine if_neg fun heq => hfirst ?_
        exact List.mem_map.2 ⟨entry, hentry, heq.trans hk.symm⟩
      rw [if_pos hk, if_pos hk, List.map_congr_left hkeep, List.map_id']
    · rw [if_neg hk, if_neg hk, ih hrest ((List.mem_cons.1 hkey).resolve_left (Ne.symm hk))]

/-- An assignment changes the value of its own entry, or adds one behind all others. -/
theorem entries_insert {a : Attributes} (h : a.keys.Nodup) (key : AttrKey) (value : Text) :
    (a.insert key value).entries =
      if key ∈ a.keys then
        a.entries.map fun entry => if entry.1 = key then (key, value) else entry
      else a.entries ++ [(key, value)] := by
  split
  next hkey => exact assign_eq_map value h hkey
  next hkey => exact assign_of_not_mem hkey value

/-! ## Positions -/

/-- Tokens that are stored number their positions from the first free number on. -/
theorem positions_ofTokens {next : Nat} {attrs : Attributes}
    (h : attrs.keys.filterMap AttrKey.position? = List.range next) (tokens : List AttrToken) :
    ∃ k, (ofTokens next attrs tokens).keys.filterMap AttrKey.position? = List.range k := by
  induction tokens generalizing next attrs with
  | nil => exact ⟨next, h⟩
  | cons token tokens ih =>
    cases token with
    | positional value =>
      refine ih ?_
      have hnew : AttrKey.position next ∉ attrs.keys := by
        intro hmem
        have hrange : next ∈ List.range next := h ▸ List.mem_filterMap.2 ⟨_, hmem, rfl⟩
        exact absurd hrange (by simp)
      rw [keys_insert, if_neg hnew, List.filterMap_append, h, List.range_succ]
      rfl
    | named key value =>
      refine ih ?_
      rw [keys_insert]
      split
      · exact h
      · rw [List.filterMap_append, h]
        exact List.append_nil _

/-- The positions in a text are numbered in their order. -/
theorem positions_read (t : Text) :
    ∃ k, (read t).keys.filterMap AttrKey.position? = List.range k :=
  positions_ofTokens rfl _

/-! ## Merges -/

variable {d e : Attributes}

/-- Entries that are added one by one where their key is absent: those with other keys are
    added. -/
theorem foldl_defaults (entries : List (AttrKey × Text)) {extra : List (AttrKey × Text)}
    (h : (extra.map (·.1)).Nodup) :
    extra.foldl (fun merged entry =>
        if (merged.lookup entry.1).isSome then merged else merged ++ [entry]) entries =
      entries ++ extra.filter (·.1 ∉ entries.map (·.1)) := by
  induction extra generalizing entries with
  | nil => exact (List.append_nil entries).symm
  | cons entry extra ih =>
    obtain ⟨key, value⟩ := entry
    obtain ⟨hfirst, hrest⟩ := List.nodup_cons.1 h
    have hlookup : (entries.lookup key).isSome = true ↔ key ∈ entries.map (·.1) := by
      rw [Option.isSome_iff_ne_none, ← not_iff_not, not_not]
      exact @lookup?_eq_none_iff ⟨entries⟩ key
    rw [List.foldl_cons, ih _ hrest]
    by_cases hkey : key ∈ entries.map (·.1)
    · rw [if_pos (hlookup.2 hkey), List.filter_cons, if_neg (by simpa using not_not.2 hkey)]
    · -- no later default has the key of the one that is added
      have hlater : ∀ entry ∈ extra, decide (entry.1 ∉ (entries ++ [(key, value)]).map (·.1)) =
          decide (entry.1 ∉ entries.map (·.1)) := by
        intro entry hentry
        have hne : entry.1 ≠ key := fun heq => hfirst (List.mem_map.2 ⟨entry, hentry, heq⟩)
        simp [hne]
      rw [if_neg (mt hlookup.1 hkey), List.filter_cons, if_pos (decide_eq_true hkey),
        List.filter_congr hlater, List.append_assoc, List.singleton_append]

/-- A merge is the list itself and the defaults with other keys behind it. -/
theorem entries_withDefaults (a : Attributes) (h : d.keys.Nodup) :
    (a.withDefaults d).entries = a.entries ++ d.entries.filter (·.1 ∉ a.keys) :=
  foldl_defaults a.entries h

/-- The keys of a merge are those of the list and those of the defaults. -/
theorem mem_keys_withDefaults_iff (a d : Attributes) (key : AttrKey) :
    key ∈ (a.withDefaults d).keys ↔ key ∈ a.keys ∨ key ∈ d.keys := by
  rw [← not_iff_not, not_or, ← lookup?_eq_none_iff, ← lookup?_eq_none_iff,
    ← lookup?_eq_none_iff, lookup?_withDefaults, Option.or_eq_none_iff]

/-- Defaults without a new key add nothing. -/
theorem withDefaults_of_subset (a : Attributes) (h : d.keys.Nodup)
    (hsubset : ∀ key ∈ d.keys, key ∈ a.keys) : a.withDefaults d = a := by
  refine eq_of_entries ?_
  rw [entries_withDefaults a h, List.filter_eq_nil_iff.2, List.append_nil]
  intro entry hentry
  simpa using hsubset entry.1 (List.mem_map_of_mem hentry)

theorem empty_withDefaults (h : d.keys.Nodup) : empty.withDefaults d = d := by
  refine eq_of_entries ?_
  rw [entries_withDefaults empty h, List.filter_eq_self.2]
  · rfl
  · exact fun _ _ => decide_eq_true List.not_mem_nil

/-- Defaults of defaults are defaults, in the same order. -/
theorem withDefaults_assoc (a : Attributes) (hd : d.keys.Nodup) (he : e.keys.Nodup) :
    (a.withDefaults d).withDefaults e = a.withDefaults (d.withDefaults e) := by
  refine eq_of_entries ?_
  have hboth : ∀ entry ∈ e.entries, decide (entry.1 ∉ (a.withDefaults d).keys) =
      (decide (entry.1 ∉ a.keys) && decide (entry.1 ∉ d.keys)) := by
    intro entry _
    simp [mem_keys_withDefaults_iff]
  calc ((a.withDefaults d).withDefaults e).entries
      = a.entries ++ d.entries.filter (·.1 ∉ a.keys) ++
          e.entries.filter (·.1 ∉ (a.withDefaults d).keys) := by
        rw [entries_withDefaults _ he, entries_withDefaults a hd]
    _ = a.entries ++ (d.entries ++ e.entries.filter (·.1 ∉ d.keys)).filter (·.1 ∉ a.keys) := by
        rw [List.filter_congr hboth, List.filter_append, List.filter_filter, List.append_assoc]
    _ = (a.withDefaults (d.withDefaults e)).entries := by
        rw [entries_withDefaults a (nodup_keys_withDefaults hd e), entries_withDefaults d he]

/-- What a merge with defaults is: the list, and behind it entries with other keys. -/
structure IsOverlay (a d merged : Attributes) : Prop where
  starts : a.entries <+: merged.entries
  lookup : ∀ key, merged.lookup? key = (a.lookup? key).or (d.lookup? key)
  keys : ∀ key, key ∈ merged.keys ↔ key ∈ a.keys ∨ key ∈ d.keys

theorem isOverlay_withDefaults (a : Attributes) (h : d.keys.Nodup) :
    IsOverlay a d (a.withDefaults d) where
  starts := ⟨_, (entries_withDefaults a h).symm⟩
  lookup := lookup?_withDefaults a d
  keys := mem_keys_withDefaults_iff a d

/-- What an assignment is: the value under the key changes, in its place or behind all
    entries, and nothing else does. -/
structure IsAssignment (a : Attributes) (key : AttrKey) (value : Text) (assigned : Attributes) :
    Prop where
  entries : assigned.entries =
    if key ∈ a.keys then a.entries.map fun entry => if entry.1 = key then (key, value) else entry
    else a.entries ++ [(key, value)]
  own : assigned.lookup? key = some value
  others : ∀ other, other ≠ key → assigned.lookup? other = a.lookup? other

theorem isAssignment_insert {a : Attributes} (h : a.keys.Nodup) (key : AttrKey) (value : Text) :
    IsAssignment a key value (a.insert key value) where
  entries := entries_insert h key value
  own := lookup_assign_self key value a.entries
  others _ hne := lookup_assign_of_ne value a.entries hne

end Attributes

/-- In the attributes of a text no key comes twice and the positions are numbered in their
    order, and no key comes twice in any list that is built up from such ones. For these lists
    a merge with defaults is an overlay, it is associative and idempotent and has the empty
    list on both sides as its identity, and an assignment touches no other entry. -/
theorem defaults_are_lawful_overlay {a d e : Attributes} (ha : a.Built) (hd : d.Built)
    (he : e.Built) :
    (∀ t, (Attributes.read t).keys.Nodup ∧
      ∃ k, (Attributes.read t).keys.filterMap AttrKey.position? = List.range k) ∧
    (a.keys.Nodup ∧ ∀ table, (defaultAttributes table).Built) ∧
    Attributes.IsOverlay a d (a.withDefaults d) ∧
    ((a.withDefaults d).withDefaults e = a.withDefaults (d.withDefaults e) ∧
      a.withDefaults a = a ∧ (a.withDefaults d).withDefaults d = a.withDefaults d ∧
      a.withDefaults .empty = a ∧ Attributes.empty.withDefaults a = a) ∧
    ∀ key value, Attributes.IsAssignment a key value (a.insert key value) := by
  refine ⟨fun t => ⟨Attributes.nodup_keys_read t, Attributes.positions_read t⟩,
    ⟨ha.nodup_keys, Attributes.built_defaultAttributes⟩,
    Attributes.isOverlay_withDefaults a hd.nodup_keys, ⟨?_, ?_, ?_, ?_, ?_⟩,
    Attributes.isAssignment_insert ha.nodup_keys⟩
  · exact Attributes.withDefaults_assoc a hd.nodup_keys he.nodup_keys
  · exact Attributes.withDefaults_of_subset a ha.nodup_keys fun _ hkey => hkey
  · exact Attributes.withDefaults_of_subset (a.withDefaults d) hd.nodup_keys fun key hkey =>
      (Attributes.mem_keys_withDefaults_iff a d key).2 (.inr hkey)
  · rfl
  · exact Attributes.empty_withDefaults ha.nodup_keys

/-- Attributes with a name that is given twice, defaults of which one is there already, and
    defaults for those. -/
theorem defaults_are_lawful_overlay_alias :
    let a := Attributes.read "x k=1 k=2 'y z'".toList
    let d := (Attributes.ofNamed [("k".toList, "3".toList), ("m".toList, "4".toList)]).insert
      (.position 1) "w".toList
    let e := (Attributes.read "v m=5".toList).withDefaults d
    (a.Built ∧ d.Built ∧ e.Built) ∧
      (a.withDefaults d).entries =
        [(.position 0, "x".toList), (.name "k".toList, "2".toList), (.position 1, "y z".toList),
          (.name "m".toList, "4".toList)] ∧
      Attributes.IsOverlay a d (a.withDefaults d) ∧
      (a.withDefaults d).withDefaults e = a.withDefaults (d.withDefaults e) ∧
      Attributes.IsAssignment a (.name "k".toList) "6".toList
        (a.insert (.name "k".toList) "6".toList) := by
  intro a d e
  have ha : a.Built := .read _
  have hd : d.Built := (Attributes.Built.ofNamed _).insert _ _
  have he : e.Built := (Attributes.Built.read _).withDefaults hd
  obtain ⟨-, -, hoverlay, ⟨hassoc, -⟩, hassign⟩ := defaults_are_lawful_overlay ha hd he
  exact ⟨⟨ha, hd, he⟩, by decide +kernel, hoverlay, hassoc, hassign _ _⟩

end Shortcode
