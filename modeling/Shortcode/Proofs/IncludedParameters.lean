import Mathlib.Data.List.Nodup
import Shortcode.Proofs.Spelling
import Shortcode.Tag.Builtin

/-!
# What an included template gets

The parameters of an included template are the attributes of its tag besides the path, under
their keys as texts. Two things stand in the way of handing on every other attribute. The
path is looked for by name and then in the first position, but both places are left out
whichever of them it came from; and a number is the same text as a name that reads so.

* `Attributes.nodup_keys_read`, `Attributes.nodup_keys_withDefaults`: no key comes twice in the
  attributes of a tag, with the defaults of an alias or without.
* `Tag.perm_parameters_iff`: an attribute is lost exactly where it stands in the other place of
  the path, or where two keys are the same text.
* `include_hands_on_iff`: when all other attributes are handed on, each under its own key.
-/

namespace Shortcode

/-! ## Numbers and names as texts -/

/-- Two keys that are one text are the same, or a number and the name that reads like it. -/
theorem AttrKey.eq_or_of_text_eq {k k' : AttrKey} (h : k.text = k'.text) :
    k = k' ∨ (∃ i, k = .position i ∧ k' = .name (decimal i)) ∨
      ∃ i, k = .name (decimal i) ∧ k' = .position i := by
  cases k with
  | position i =>
    cases k' with
    | position j => exact .inl (congrArg _ (decimal_inj h))
    | name name => exact .inr (.inl ⟨i, rfl, congrArg _ h.symm⟩)
  | name name =>
    cases k' with
    | position j => exact .inr (.inr ⟨j, congrArg _ h, rfl⟩)
    | name name' => exact .inl (congrArg _ h)

/-! ## Keys -/

namespace Attributes

variable {attrs : Attributes}

theorem lookup?_eq_none_iff {key : AttrKey} : attrs.lookup? key = none ↔ key ∉ attrs.keys := by
  rw [lookup?, List.lookup_eq_none_iff, keys, List.mem_map]
  constructor
  · rintro h ⟨entry, hentry, rfl⟩
    simpa using h entry hentry
  · intro h entry hentry
    simpa using fun heq => h ⟨entry, hentry, heq.symm⟩

/-- An assignment makes no key come twice. -/
theorem nodup_keys_insert (h : attrs.keys.Nodup) (key : AttrKey) (value : Text) :
    (attrs.insert key value).keys.Nodup := by
  rw [keys_insert]
  split
  · exact h
  next hkey =>
    rw [List.nodup_append]
    refine ⟨h, List.pairwise_singleton _ key, fun a ha b hb heq => ?_⟩
    rw [heq, List.mem_singleton.1 hb] at ha
    exact hkey ha

theorem nodup_keys_foldl (entries : List (AttrKey × Text)) (h : attrs.keys.Nodup) :
    (entries.foldl (fun attrs entry => attrs.insert entry.1 entry.2) attrs).keys.Nodup := by
  induction entries generalizing attrs with
  | nil => exact h
  | cons entry entries ih => exact ih (nodup_keys_insert h entry.1 entry.2)

/-- Defaults make no key come twice. -/
theorem nodup_keys_withDefaults (h : attrs.keys.Nodup) (defaults : Attributes) :
    (attrs.withDefaults defaults).keys.Nodup := by
  obtain ⟨entries⟩ := attrs
  obtain ⟨extra⟩ := defaults
  simp only [withDefaults]
  induction extra generalizing entries with
  | nil => exact h
  | cons entry extra ih =>
    obtain ⟨key, value⟩ := entry
    rw [List.foldl_cons]
    refine ih _ ?_
    split
    · exact h
    next hkey =>
      have hnew : key ∉ keys ⟨entries⟩ := by
        rwa [← lookup?_eq_none_iff, ← Option.not_isSome_iff_eq_none]
      have hnodup := nodup_keys_insert h key value
      rwa [insert, assign_of_not_mem hnew] at hnodup

/-- No key comes twice in the attributes that are written in a text. -/
theorem nodup_keys_read (t : Text) : (read t).keys.Nodup := by
  rw [read, ofTokens_eq_foldl]
  exact nodup_keys_foldl (number 0 (AttrToken.list t)) List.Pairwise.nil

/-- The key under which the path of a template stands. -/
def pathKey (attrs : Attributes) : AttrKey :=
  if attrs.contains "path".toList then .name "path".toList else .position 0

theorem pathKey_of_isSome (h : attrs.get? "path".toList ≠ none) :
    attrs.pathKey = .name "path".toList :=
  if_pos (Option.isSome_iff_ne_none.2 h)

theorem pathKey_of_eq_none (h : attrs.get? "path".toList = none) : attrs.pathKey = .position 0 := by
  rw [pathKey, contains, h]
  rfl

/-- The entries besides the path of a template. -/
def others (attrs : Attributes) : List (AttrKey × Text) :=
  attrs.entries.filter (·.1 != attrs.pathKey)

theorem mem_map_fst_others_iff {key : AttrKey} :
    key ∈ attrs.others.map (·.1) ↔ key ∈ attrs.keys ∧ key ≠ attrs.pathKey := by
  simp only [others, keys, List.mem_map, List.mem_filter, bne_iff_ne]
  constructor
  · rintro ⟨entry, ⟨hmem, hne⟩, rfl⟩
    exact ⟨⟨entry, hmem, rfl⟩, hne⟩
  · rintro ⟨⟨entry, hmem, rfl⟩, hne⟩
    exact ⟨entry, ⟨hmem, hne⟩, rfl⟩

end Attributes

/-! ## Parameters -/

namespace Tag

/-- An entry as a parameter: its value, under the text of its key. -/
def parameter (entry : AttrKey × Text) : Text × Data :=
  (entry.1.text, .text entry.2)

/-- The entries that are handed on: those in neither of the places of the path. -/
def handedOn (attrs : Attributes) : List (AttrKey × Text) :=
  attrs.entries.filter fun entry => entry.1 != .position 0 && entry.1 != .name "path".toList

variable {attrs : Attributes}

theorem parameters_eq (attrs : Attributes) :
    parameters attrs = Table.ofList ((handedOn attrs).map parameter) := rfl

/-- What is handed on stands besides the path. -/
theorem handedOn_eq_filter (attrs : Attributes) : handedOn attrs =
    attrs.others.filter fun entry => entry.1 != .position 0 && entry.1 != .name "path".toList := by
  rw [handedOn, Attributes.others, List.filter_filter]
  refine List.filter_congr fun entry _ => ?_
  cases hkeep : entry.1 != .position 0 && entry.1 != .name "path".toList with
  | false => rfl
  | true =>
    rw [Bool.and_eq_true] at hkeep
    rw [Attributes.pathKey]
    split
    · rw [hkeep.2]
      rfl
    · rw [hkeep.1]
      rfl

/-- Everything besides the path is a parameter exactly if nothing besides the path is left
    out and no two keys are one text: a table has one entry under each name. -/
theorem perm_parameters_iff : (parameters attrs).entries.Perm (attrs.others.map parameter) ↔
    handedOn attrs = attrs.others ∧ (attrs.others.map (·.1.text)).Nodup := by
  have hnames : (attrs.others.map parameter).map (·.1) = attrs.others.map (·.1.text) := by
    rw [List.map_map]
    rfl
  rw [parameters_eq]
  constructor
  · intro h
    have hperm : (Table.ofList ((handedOn attrs).map parameter)).names.Perm
        (attrs.others.map (·.1.text)) := by
      rw [← hnames]
      exact h.map Prod.fst
    refine ⟨?_, hperm.nodup_iff.1 (Table.nodup_names _)⟩
    have hlength := Table.length_ofList_le ((handedOn attrs).map parameter)
    rw [h.length_eq, List.length_map, List.length_map] at hlength
    rw [handedOn_eq_filter] at hlength ⊢
    exact List.filter_sublist.eq_of_length_le hlength
  · rintro ⟨hall, hnodup⟩
    rw [hall]
    exact Table.perm_ofList (hnames.symm ▸ hnodup)

/-- Nothing besides the path is left out exactly if one of its two places is empty. -/
theorem handedOn_eq_others_iff : handedOn attrs = attrs.others ↔
    attrs.get? "path".toList = none ∨ attrs.positional? 0 = none := by
  have hkeys : handedOn attrs = attrs.others ↔ ∀ key ∈ attrs.others.map (·.1),
      key ≠ .position 0 ∧ key ≠ .name "path".toList := by
    rw [handedOn_eq_filter, List.filter_eq_self, List.forall_mem_map]
    simp only [Bool.and_eq_true, bne_iff_ne]
  rw [hkeys, Attributes.positional?]
  constructor
  · intro h
    by_contra hboth
    rw [not_or, Attributes.lookup?_eq_none_iff, not_not] at hboth
    -- the path has its name, so the first position is besides it
    have hkey := Attributes.pathKey_of_isSome hboth.1
    refine (h (.position 0) (Attributes.mem_map_fst_others_iff.2 ⟨hboth.2, ?_⟩)).1 rfl
    rw [hkey]
    exact AttrKey.noConfusion
  · intro h key hkey
    obtain ⟨hmem, hne⟩ := Attributes.mem_map_fst_others_iff.1 hkey
    by_cases hnamed : attrs.get? "path".toList = none
    · rw [Attributes.pathKey_of_eq_none hnamed] at hne
      exact ⟨hne, fun heq => Attributes.lookup?_eq_none_iff.1 hnamed (heq ▸ hmem)⟩
    · rw [Attributes.pathKey_of_isSome hnamed] at hne
      have hfirst := Attributes.lookup?_eq_none_iff.1 (h.resolve_left hnamed)
      exact ⟨fun heq => hfirst (heq ▸ hmem), hne⟩

/-- No two keys besides the path are one text exactly if no name reads like the number of
    another attribute. -/
theorem nodup_texts_iff (hkeys : attrs.keys.Nodup)
    (hplaces : attrs.get? "path".toList = none ∨ attrs.positional? 0 = none) :
    (attrs.others.map (·.1.text)).Nodup ↔
      ∀ i, 0 < i → attrs.positional? i ≠ none → attrs.get? (decimal i) = none := by
  have hothers : (attrs.others.map (·.1)).Nodup := hkeys.sublist (List.filter_sublist.map _)
  have htexts : attrs.others.map (·.1.text) = (attrs.others.map (·.1)).map AttrKey.text := by
    rw [List.map_map]
    rfl
  have hpath {i : Nat} (hi : 0 < i) :
      AttrKey.position i ≠ attrs.pathKey ∧ .name (decimal i) ≠ attrs.pathKey := by
    rw [Attributes.pathKey]
    split
    · refine ⟨AttrKey.noConfusion, fun heq => ?_⟩
      have hletter : 'p' ∈ decimal i := AttrKey.name.inj heq ▸ by decide
      exact absurd (isDigit_of_mem_decimal hletter) (by decide)
    · exact ⟨fun heq => Nat.ne_of_gt hi (AttrKey.position.inj heq), AttrKey.noConfusion⟩
  rw [htexts]
  simp only [Attributes.positional?, Attributes.get?, ne_eq, Attributes.lookup?_eq_none_iff,
    not_not]
  constructor
  · intro h i hi hposition hname
    have hsame : AttrKey.position i = .name (decimal i) := List.inj_on_of_nodup_map h
      (Attributes.mem_map_fst_others_iff.2 ⟨hposition, (hpath hi).1⟩)
      (Attributes.mem_map_fst_others_iff.2 ⟨hname, (hpath hi).2⟩) rfl
    exact AttrKey.noConfusion hsame
  · intro h
    have hclash {i : Nat} (hposition : .position i ∈ attrs.others.map (·.1))
        (hname : .name (decimal i) ∈ attrs.others.map (·.1)) : False := by
      obtain ⟨hposition, hne⟩ := Attributes.mem_map_fst_others_iff.1 hposition
      obtain ⟨hname, -⟩ := Attributes.mem_map_fst_others_iff.1 hname
      rcases Nat.eq_zero_or_pos i with rfl | hi
      · -- the first position is besides the path, so the path has its name
        have hnamed : attrs.get? "path".toList ≠ none :=
          fun hnone => hne (Attributes.pathKey_of_eq_none hnone).symm
        exact Attributes.lookup?_eq_none_iff.1 (hplaces.resolve_left hnamed) hposition
      · exact h i hi hposition hname
    refine hothers.map_on fun k hk k' hk' heq => ?_
    rcases AttrKey.eq_or_of_text_eq heq with rfl | ⟨i, rfl, rfl⟩ | ⟨i, rfl, rfl⟩
    · rfl
    · exact (hclash hk hk').elim
    · exact (hclash hk' hk).elim

end Tag

/-- A template that is included gets every attribute besides its path, each as one entry
    under its own key and nothing else, exactly if the path is not given both by name and by
    position, and no name reads like the number of another attribute. -/
theorem include_hands_on_iff {attrs : Attributes} {path : Text} (hkeys : attrs.keys.Nodup)
    (hpath : attrs.value? "path".toList 0 = some path) (hne : path ≠ []) :
    ∃ params, (∀ host : Host, Tag.includeTemplate attrs host =
        ((host.template path params).mapError .template).map some) ∧
      (params.Perm (attrs.others.map Tag.parameter) ↔
        (attrs.get? "path".toList = none ∨ attrs.positional? 0 = none) ∧
        ∀ i, 0 < i → attrs.positional? i ≠ none → attrs.get? (decimal i) = none) := by
  refine ⟨(Tag.parameters attrs).entries, fun host => ?_, ?_⟩
  · rw [Tag.includeTemplate, Text.bind_nonEmpty?_eq_some_iff.2 ⟨hpath, hne⟩]
  · rw [Tag.perm_parameters_iff, Tag.handedOn_eq_others_iff]
    exact and_congr_right fun hplaces => Tag.nodup_texts_iff hkeys hplaces

/-- A path by position, with a second position and a name that is another number. -/
theorem include_hands_on_number :
    let attrs := Attributes.read "a.twig b c=d 2=e".toList
    (attrs.keys.Nodup ∧ attrs.value? "path".toList 0 = some "a.twig".toList) ∧
      ∃ params, (∀ host : Host, Tag.includeTemplate attrs host =
          ((host.template "a.twig".toList params).mapError .template).map some) ∧
        params.Perm [(['1'], .text ['b']), (['c'], .text ['d']), (['2'], .text ['e'])] := by
  intro attrs
  have hattrs : attrs = ⟨[(.position 0, "a.twig".toList), (.position 1, ['b']),
      (.name ['c'], ['d']), (.name ['2'], ['e'])]⟩ := by decide +kernel
  have hpath : attrs.value? "path".toList 0 = some "a.twig".toList := by
    rw [hattrs]
    rfl
  have hnone : attrs.get? "path".toList = none := by
    rw [hattrs]
    rfl
  have hnumbers : ∀ i, 0 < i → attrs.positional? i ≠ none → attrs.get? (decimal i) = none := by
    intro i hi hposition
    have hone : i = 1 := by
      rw [Attributes.positional?, ne_eq, Attributes.lookup?_eq_none_iff, not_not,
        hattrs] at hposition
      simp [Attributes.keys] at hposition
      omega
    rw [hone, hattrs]
    rfl
  have hothers : attrs.others.map Tag.parameter =
      [(['1'], .text ['b']), (['c'], .text ['d']), (['2'], .text ['e'])] := by
    rw [hattrs]
    rfl
  have hkeys := Attributes.nodup_keys_read "a.twig b c=d 2=e".toList
  obtain ⟨params, hcall, hiff⟩ := include_hands_on_iff hkeys hpath (by decide)
  exact ⟨⟨hkeys, hpath⟩, params, hcall, hothers ▸ hiff.2 ⟨.inl hnone, hnumbers⟩⟩

/-- A path by name hides the first position, and a number hides behind a name that reads like
    it: in both cases a template is included without an attribute of its tag. -/
theorem include_loses_attributes :
    let named := Attributes.read "path=a.twig b".toList
    let numbered := Attributes.read "a.twig b 1=c".toList
    ((∀ host : Host, Tag.includeTemplate named host =
        ((host.template "a.twig".toList []).mapError .template).map some) ∧
      ¬ [].Perm (named.others.map Tag.parameter)) ∧
    (∀ host : Host, Tag.includeTemplate numbered host =
        ((host.template "a.twig".toList [(['1'], .text ['c'])]).mapError .template).map some) ∧
      ¬ [(['1'], .text ['c'])].Perm (numbered.others.map Tag.parameter) := by
  intro named numbered
  have hnamed : named = ⟨[(.name "path".toList, "a.twig".toList), (.position 0, ['b'])]⟩ := by
    decide +kernel
  have hnumbered : numbered =
      ⟨[(.position 0, "a.twig".toList), (.position 1, ['b']), (.name ['1'], ['c'])]⟩ := by
    decide +kernel
  -- one attribute besides the path and no parameter, two attributes and one parameter
  have hone : (named.others.map Tag.parameter).length = 1 := by rw [hnamed]; rfl
  have htwo : (numbered.others.map Tag.parameter).length = 2 := by rw [hnumbered]; rfl
  refine ⟨⟨fun _ => ?_, fun hperm => ?_⟩, fun _ => ?_, fun hperm => ?_⟩
  · rw [hnamed]
    rfl
  · exact absurd (hperm.length_eq.trans hone) (by decide)
  · rw [hnumbered]
    rfl
  · exact absurd (hperm.length_eq.trans htwo) (by decide)

end Shortcode
