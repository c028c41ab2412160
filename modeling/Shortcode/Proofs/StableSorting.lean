import Shortcode.Attributes.Reader
import Shortcode.Tag.Builtin

/-!
# Stable sorting

A menu sorted by a field is in the order of the texts of that field, and items with the same
text stand in their old order: among the items with one text nothing moves. Two lists that
are in order and agree on the items of each text are the same list, so the stable sorts of a
menu are one, and whatever keeps both properties commutes with sorting. That includes
narrowing, in both directions of the sort.

* `Text.le_iff`: the order of texts, by code points.
* `Menu.sort_stable`, `Menu.StableSort.unique`: a menu has one stable sort.
* `Menu.filter_sort`: so it makes no difference whether it is narrowed or sorted first.
* `selection_is_stable_sort`: what a list of pages shows, by its attributes.
-/

namespace Shortcode

/-! ## The order of texts -/

namespace Text

/-- Texts in the order of code points: the first characters that differ decide, and what
    another text starts with comes before it. -/
inductive InOrder : Text → Text → Prop
  | nil (t : Text) : InOrder [] t
  | less {c d : Char} (h : c.toNat < d.toNat) (s t : Text) : InOrder (c :: s) (d :: t)
  | cons (c : Char) {s t : Text} (h : InOrder s t) : InOrder (c :: s) (c :: t)

theorem le_eq_true_iff {s t : Text} : le s t = true ↔ ¬ t < s := by
  rw [le, Bool.not_eq_true', decide_eq_false_iff_not]

theorem le_iff {s t : Text} : le s t = true ↔ InOrder s t := by
  induction s generalizing t with
  | nil => exact ⟨fun _ => .nil t, fun _ => le_eq_true_iff.2 (List.not_lt_nil t)⟩
  | cons c s ih =>
    rw [le_eq_true_iff]
    cases t with
    | nil => exact ⟨fun h => absurd (List.nil_lt_cons c s) h, fun h => nomatch h⟩
    | cons d t =>
      have hrest : le s t = true ↔ InOrder s t := ih
      rw [List.cons_lt_cons_iff, not_or, not_and, ← le_eq_true_iff, hrest]
      constructor
      · rintro ⟨hlt, heq⟩
        rcases Nat.lt_trichotomy c.toNat d.toNat with h | h | h
        · exact .less h s t
        · obtain rfl := Char.toNat_inj.1 h
          exact .cons c (heq rfl)
        · exact absurd h hlt
      · rintro (_ | ⟨h, -, -⟩ | ⟨-, h⟩)
        · exact ⟨Nat.lt_asymm h, fun heq => absurd h (heq ▸ Nat.lt_irrefl _)⟩
        · exact ⟨Nat.lt_irrefl _, fun _ => h⟩

variable {s t u : Text}

theorem InOrder.trans (hst : InOrder s t) (htu : InOrder t u) : InOrder s u := by
  rw [← le_iff, le_eq_true_iff] at *
  exact List.le_trans hst htu

theorem inOrder_total (s t : Text) : InOrder s t ∨ InOrder t s := by
  rw [← le_iff, ← le_iff, le_eq_true_iff, le_eq_true_iff]
  exact List.le_total s t

theorem InOrder.antisymm (hst : InOrder s t) (hts : InOrder t s) : s = t := by
  rw [← le_iff, le_eq_true_iff] at *
  exact List.le_antisymm hst hts

end Text

namespace SortDirection

/-- Two texts in the order of a direction. -/
def InOrder : SortDirection → Text → Text → Prop
  | .ascending, s, t => s.InOrder t
  | .descending, s, t => t.InOrder s

variable {direction : SortDirection} {s t u : Text}

theorem InOrder.trans (hst : direction.InOrder s t) (htu : direction.InOrder t u) :
    direction.InOrder s u := by
  cases direction
  · exact Text.InOrder.trans hst htu
  · exact Text.InOrder.trans htu hst

theorem inOrder_total (direction : SortDirection) (s t : Text) :
    direction.InOrder s t ∨ direction.InOrder t s := by
  cases direction
  · exact Text.inOrder_total s t
  · exact Text.inOrder_total t s

theorem InOrder.antisymm (hst : direction.InOrder s t) (hts : direction.InOrder t s) : s = t := by
  cases direction
  · exact Text.InOrder.antisymm hst hts
  · exact Text.InOrder.antisymm hts hst

end SortDirection

/-! ## The stable sort of a menu -/

namespace Menu

variable {field : Text} {direction : SortDirection} {items result : List MenuItem}

/-- A result is the menu in the order of the texts of a field, where items with the same
    text stand as they stood. -/
structure StableSort (field : Text) (direction : SortDirection) (items result : List MenuItem) :
    Prop where
  perm : result.Perm items
  ordered : result.Pairwise fun a b => direction.InOrder (a.sortText field) (b.sortText field)
  stable : ∀ text, result.filter (·.sortText field = text) = items.filter (·.sortText field = text)

/-- How a sort compares two items. -/
def comesFirst (field : Text) (direction : SortDirection) (a b : MenuItem) : Bool :=
  match direction with
  | .ascending => Text.le (a.sortText field) (b.sortText field)
  | .descending => Text.le (b.sortText field) (a.sortText field)

theorem sort_eq_mergeSort (field : Text) (direction : SortDirection) (items : List MenuItem) :
    sort field direction items = items.mergeSort (comesFirst field direction) := by
  cases direction <;> rfl

theorem comesFirst_iff {a b : MenuItem} : comesFirst field direction a b = true ↔
    direction.InOrder (a.sortText field) (b.sortText field) := by
  cases direction <;> exact Text.le_iff

theorem comesFirst_trans (a b c : MenuItem) (hab : comesFirst field direction a b = true)
    (hbc : comesFirst field direction b c = true) : comesFirst field direction a c = true :=
  comesFirst_iff.2 ((comesFirst_iff.1 hab).trans (comesFirst_iff.1 hbc))

theorem comesFirst_total (a b : MenuItem) :
    (comesFirst field direction a b || comesFirst field direction b a) = true := by
  rw [Bool.or_eq_true, comesFirst_iff, comesFirst_iff]
  exact direction.inOrder_total _ _

/-- Items with the same text are in order, however they stand. -/
theorem comesFirst_of_eq {a b : MenuItem} (h : a.sortText field = b.sortText field) :
    comesFirst field direction a b = true := by
  rw [comesFirst_iff, h]
  exact or_self_iff.1 (direction.inOrder_total _ _)

theorem sort_stable (field : Text) (direction : SortDirection) (items : List MenuItem) :
    StableSort field direction items (sort field direction items) := by
  have hperm := sort_perm field direction items
  rw [sort_eq_mergeSort] at hperm ⊢
  refine ⟨hperm, ?_, fun text => ?_⟩
  · exact (List.pairwise_mergeSort comesFirst_trans comesFirst_total items).imp
      fun h => comesFirst_iff.1 h
  · -- the items with one text are in order as they stand, and sorting keeps such a row
    have hrow : (items.filter (·.sortText field = text)).Pairwise
        fun a b => comesFirst field direction a b = true :=
      List.pairwise_of_forall_mem_list fun a ha b hb => by
        simp only [List.mem_filter, decide_eq_true_eq] at ha hb
        exact comesFirst_of_eq (ha.2.trans hb.2.symm)
    have hsublist := (List.sublist_mergeSort comesFirst_trans comesFirst_total hrow
      List.filter_sublist).filter (·.sortText field = text)
    simp only [List.filter_filter, Bool.and_self] at hsublist
    exact (hsublist.eq_of_length (hperm.filter _).length_eq.symm).symm

/-- Two lists in order that agree on the items of each text are the same: neither can begin
    with an item that stands further behind in the other one. -/
theorem eq_of_ordered {l l' : List MenuItem}
    (hl : l.Pairwise fun a b => direction.InOrder (a.sortText field) (b.sortText field))
    (hl' : l'.Pairwise fun a b => direction.InOrder (a.sortText field) (b.sortText field))
    (hagree : ∀ text, l.filter (·.sortText field = text) = l'.filter (·.sortText field = text)) :
    l = l' := by
  induction l generalizing l' with
  | nil =>
    cases l' with
    | nil => rfl
    | cons b l' => simpa using hagree (b.sortText field)
  | cons a l ih =>
    cases l' with
    | nil => simpa using hagree (a.sortText field)
    | cons b l' =>
      obtain ⟨ha, hrest⟩ := List.pairwise_cons.1 hl
      obtain ⟨hb, hrest'⟩ := List.pairwise_cons.1 hl'
      have hmem : a ∈ b :: l' := by
        have hfirst := hagree (a.sortText field)
        rw [List.filter_cons_of_pos (by simp)] at hfirst
        exact (List.mem_filter.1 (hfirst ▸ List.mem_cons_self)).1
      have hmem' : b ∈ a :: l := by
        have hfirst := hagree (b.sortText field)
        rw [List.filter_cons_of_pos (a := b) (by simp)] at hfirst
        exact (List.mem_filter.1 (hfirst ▸ List.mem_cons_self)).1
      -- each of the first items is in order with the other one, so they have one text
      have htext : b.sortText field = a.sortText field := by
        rcases List.mem_cons.1 hmem with rfl | hmem
        · rfl
        rcases List.mem_cons.1 hmem' with rfl | hmem'
        · rfl
        exact (hb a hmem).antisymm (ha b hmem')
      have hsame := hagree (a.sortText field)
      rw [List.filter_cons_of_pos (by simp), List.filter_cons_of_pos (by simp [htext])] at hsame
      obtain ⟨rfl, -⟩ := List.cons.inj hsame
      refine congrArg (a :: ·) (ih hrest hrest' fun text => ?_)
      have htexts := hagree text
      rw [List.filter_cons, List.filter_cons] at htexts
      split at htexts
      · exact (List.cons.inj htexts).2
      · exact htexts

namespace StableSort

/-- A menu has one stable sort. -/
theorem unique {other : List MenuItem} (h : StableSort field direction items result)
    (h' : StableSort field direction items other) : result = other :=
  eq_of_ordered h.ordered h'.ordered fun text => (h.stable text).trans (h'.stable text).symm

/-- Narrowing keeps a sort in order and stable. -/
protected theorem filter (h : StableSort field direction items result) (p : MenuItem → Bool) :
    StableSort field direction (items.filter p) (result.filter p) where
  perm := h.perm.filter p
  ordered := h.ordered.filter p
  stable text := by
    rw [List.filter_filter, List.filter_filter]
    simp only [Bool.and_comm _ (p _)]
    rw [← List.filter_filter, h.stable text, List.filter_filter]

/-- Sorting what is sorted is one sort. -/
theorem trans {other : List MenuItem} (h : StableSort field direction items result)
    (h' : StableSort field direction result other) : StableSort field direction items other where
  perm := h'.perm.trans h.perm
  ordered := h'.ordered
  stable text := (h'.stable text).trans (h.stable text)

end StableSort

/-- A menu may be narrowed before it is sorted, or behind. -/
theorem filter_sort (field : Text) (direction : SortDirection) (items : List MenuItem)
    (p : MenuItem → Bool) :
    (sort field direction items).filter p = sort field direction (items.filter p) :=
  ((sort_stable field direction items).filter p).unique (sort_stable field direction _)

/-- Sorting again changes nothing. -/
theorem sort_sort (field : Text) (direction : SortDirection) (items : List MenuItem) :
    sort field direction (sort field direction items) = sort field direction items :=
  ((sort_stable field direction items).trans (sort_stable field direction _)).unique
    (sort_stable field direction items)

end Menu

/-! ## What a list of pages shows -/

namespace Tag

/-- Whether the attribute `filter` of a list, if it is given, wants an item: it names a field
    and a value in front of and behind its first bar, and the field of the item is that
    value, or a list that holds it. -/
def Wants (attrs : Attributes) (item : MenuItem) : Prop :=
  ∀ filter, attrs.get? "filter".toList = some filter → filter ≠ [] →
    ∃ name value found, filter = name ++ '|' :: value ∧ '|' ∉ name ∧
      item.fields.get? (Text.trim name) = some found ∧
      (found = .text (Text.trim value) ∨
        ∃ values, found = .list values ∧ Text.trim value ∈ values)

/-- Whether an item has a title that is not empty. -/
def Titled (item : MenuItem) : Prop :=
  ∃ title, item.fields.get? "title".toList = some title ∧ title ≠ .text [] ∧ title ≠ .list []

/-- The order that the attribute `sort` of a list asks for: none without it, and else the
    order of a field, whose direction may stand behind a bar. -/
inductive SortsBy (attrs : Attributes) : Option (Text × SortDirection) → Prop
  | unsorted (h : ∀ sort, attrs.get? "sort".toList = some sort → sort = []) : SortsBy attrs none
  | field {name : Text} (h : attrs.get? "sort".toList = some name) (hne : name ≠ [])
      (hbar : '|' ∉ name) : SortsBy attrs (some (Text.trim name, .ascending))
  | directed {name word : Text} {direction : SortDirection}
      (h : attrs.get? "sort".toList = some (name ++ '|' :: word)) (hbar : '|' ∉ name)
      (hword : SortDirection.read? word = some direction) :
      SortsBy attrs (some (Text.trim name, direction))

theorem has_title_iff {item : MenuItem} : item.has "title".toList = true ↔ Titled item := by
  rw [MenuItem.has, Option.any_eq_true]
  refine exists_congr fun title => and_congr_right fun _ => ?_
  cases title <;> simp [FieldValue.isEmpty]

theorem accepts_iff {field wanted : Text} {item : MenuItem} :
    item.accepts field wanted = true ↔ ∃ found, item.fields.get? field = some found ∧
      (found = .text wanted ∨ ∃ values, found = .list values ∧ wanted ∈ values) := by
  rw [MenuItem.accepts, Option.any_eq_true]
  refine exists_congr fun found => and_congr_right fun _ => ?_
  cases found <;> simp [FieldValue.accepts]

variable {attrs : Attributes} {items result : List MenuItem}

/-- A menu, narrowed as the attribute `filter` says. -/
def narrow (attrs : Attributes) (items : List MenuItem) : Except TagError (List MenuItem) :=
  match (attrs.get? "filter".toList).bind Text.nonEmpty? with
  | some filter =>
    match Text.splitAt? '|' filter with
    | some (name, value) => .ok (Menu.filterBy (Text.trim name) (Text.trim value) items)
    | none => .error (.invalidOption "filter" filter "`field|value`")
  | none => .ok items

/-- A menu, sorted as the attribute `sort` says. -/
def arrange (attrs : Attributes) (items : List MenuItem) : Except TagError (List MenuItem) :=
  match (attrs.get? "sort".toList).bind Text.nonEmpty? with
  | some sort =>
    let (name, direction) := (Text.splitAt? '|' sort).getD (sort, [])
    match SortDirection.read? direction with
    | some order => .ok (Menu.sort (Text.trim name) order items)
    | none => .error (.invalidOption "sort direction" direction "`asc` or `desc`")
  | none => .ok items

theorem narrow_eq_ok (h : narrow attrs items = .ok result) :
    ∃ wanted : MenuItem → Bool, (∀ item, wanted item = true ↔ Wants attrs item) ∧
      result = items.filter wanted := by
  unfold narrow at h
  split at h
  next filter hfilter =>
    obtain ⟨hfilter, hne⟩ := Text.bind_nonEmpty?_eq_some_iff.1 hfilter
    split at h
    next name value hsplit =>
      obtain ⟨rfl, hbar⟩ := Text.splitAt?_eq_some_iff.1 hsplit
      refine ⟨MenuItem.accepts (Text.trim name) (Text.trim value), fun item => ?_,
        (Except.ok.inj h).symm⟩
      rw [accepts_iff]
      constructor
      · rintro ⟨found, hfound, haccepts⟩ filter' hfilter' -
        obtain rfl := Option.some.inj (hfilter.symm.trans hfilter')
        exact ⟨name, value, found, rfl, hbar, hfound, haccepts⟩
      · intro hwants
        obtain ⟨name', value', found, heq, hbar', hfound, haccepts⟩ := hwants _ hfilter hne
        -- a text is split at its first bar in one way
        have hsame := Text.splitAt?_eq_some_iff.2 ⟨heq, hbar'⟩
        rw [hsplit] at hsame
        obtain ⟨rfl, rfl⟩ := Prod.mk.inj (Option.some.inj hsame)
        exact ⟨found, hfound, haccepts⟩
    next => exact nomatch h
  next hfilter =>
    have hempty := Text.bind_nonEmpty?_eq_none_iff.1 hfilter
    refine ⟨fun _ => true, fun item => ⟨fun _ filter hfilter hne => ?_, fun _ => rfl⟩, ?_⟩
    · exact absurd (hempty filter hfilter) hne
    · rw [List.filter_eq_self.2 fun _ _ => rfl]
      exact (Except.ok.inj h).symm

theorem arrange_eq_ok (h : arrange attrs items = .ok result) :
    ∃ order, SortsBy attrs order ∧ match order with
      | none => result = items
      | some (field, direction) => result = Menu.sort field direction items := by
  unfold arrange at h
  split at h
  next sort hsort =>
    obtain ⟨hsort, hne⟩ := Text.bind_nonEmpty?_eq_some_iff.1 hsort
    cases hsplit : Text.splitAt? '|' sort with
    | none =>
      rw [hsplit] at h
      have hbar := Text.splitAt?_eq_none_iff.1 hsplit
      exact ⟨_, .field hsort hne hbar, (Except.ok.inj h).symm⟩
    | some parts =>
      obtain ⟨name, word⟩ := parts
      rw [hsplit, Option.getD_some] at h
      obtain ⟨rfl, hbar⟩ := Text.splitAt?_eq_some_iff.1 hsplit
      cases hword : SortDirection.read? word with
      | none =>
        simp only [hword] at h
        exact nomatch h
      | some direction =>
        simp only [hword] at h
        exact ⟨_, .directed hsort hbar hword, (Except.ok.inj h).symm⟩
  next hsort =>
    exact ⟨none, .unsorted (Text.bind_nonEmpty?_eq_none_iff.1 hsort), (Except.ok.inj h).symm⟩

/-- A selection is narrowed, sorted and shuffled, in this order, and loses the items without
    a title at the end. -/
theorem selectPages_eq (attrs : Attributes) (seed : Nat) (items : List MenuItem) :
    selectPages attrs seed items = (do
      let arranged ← arrange attrs (← narrow attrs items)
      pure ((if (attrs.get? "shuffle".toList).any isOn then Menu.shuffle seed arranged
        else arranged).filter (MenuItem.has "title".toList))) := by
  unfold selectPages narrow arrange
  cases hsort : (attrs.get? "sort".toList).bind Text.nonEmpty? with
  | none =>
    cases (attrs.get? "filter".toList).bind Text.nonEmpty? with
    | none => rfl
    | some filter => cases hsplit : Text.splitAt? '|' filter <;> simp only [hsplit] <;> rfl
  | some sort =>
    cases hword : SortDirection.read? ((Text.splitAt? '|' sort).getD (sort, [])).2 <;>
    cases (attrs.get? "filter".toList).bind Text.nonEmpty? with
    | none => simp only [hword]; rfl
    | some filter => cases hsplit : Text.splitAt? '|' filter <;> simp only [hsplit, hword] <;> rfl

theorem exists_of_bind_eq_ok {ε α β : Type} {x : Except ε α} {f : α → Except ε β} {b : β}
    (h : (x >>= f) = .ok b) : ∃ a, x = .ok a ∧ f a = .ok b := by
  cases x with
  | error failure => exact nomatch h
  | ok a => exact ⟨a, rfl, h⟩

/-- A selection without shuffling is a menu that is narrowed, then sorted, and loses the
    items without a title at the end. -/
theorem selectPages_eq_ok {seed : Nat} (hshuffle : (attrs.get? "shuffle".toList).any isOn = false)
    (h : selectPages attrs seed items = .ok result) :
    ∃ narrowed arranged, narrow attrs items = .ok narrowed ∧ arrange attrs narrowed = .ok arranged ∧
      result = arranged.filter (MenuItem.has "title".toList) := by
  simp only [selectPages_eq, hshuffle, Bool.false_eq_true, if_false] at h
  obtain ⟨narrowed, hnarrowed, h⟩ := exists_of_bind_eq_ok h
  obtain ⟨arranged, harranged, h⟩ := exists_of_bind_eq_ok h
  exact ⟨narrowed, arranged, hnarrowed, harranged, (Except.ok.inj h).symm⟩

end Tag

/-- The text that an item is sorted by: the items of a list with blanks between them, and no
    text at all for a missing field. -/
theorem MenuItem.sortText_eq (item : MenuItem) (field : Text) :
    item.sortText field = match item.fields.get? field with
      | none => []
      | some (.text text) => text
      | some (.list texts) => [' '].intercalate texts := by
  rw [MenuItem.sortText]
  cases item.fields.get? field with
  | none => rfl
  | some value =>
    cases value with
    | text text => rfl
    | list texts => exact Text.join_eq_intercalate _ texts

/-- What a list of pages shows without shuffling: the items of the menu with a title that its
    filter wants, each as often as in the menu, in a stable sort by the field that it names,
    or as they stand. So a menu may be narrowed before it is sorted, or behind, and sorting
    it again changes nothing. -/
theorem selection_is_stable_sort {attrs : Attributes} {seed : Nat} {items result : List MenuItem}
    (hshuffle : (attrs.get? "shuffle".toList).any isOn = false)
    (h : Tag.selectPages attrs seed items = .ok result) :
    (∃ wanted : MenuItem → Bool,
      (∀ item, wanted item = true ↔ Tag.Wants attrs item ∧ Tag.Titled item) ∧
      ∃ order, Tag.SortsBy attrs order ∧ match order with
        | none => result = items.filter wanted
        | some (field, direction) =>
          Menu.StableSort field direction (items.filter wanted) result) ∧
    (∀ (item : MenuItem) field, item.sortText field = match item.fields.get? field with
      | none => []
      | some (.text text) => text
      | some (.list texts) => [' '].intercalate texts) ∧
    ∀ field direction (menu : List MenuItem),
      (∀ p, (Menu.sort field direction menu).filter p = Menu.sort field direction (menu.filter p)) ∧
      (∀ name value, Menu.filterBy name value (Menu.sort field direction menu) =
        Menu.sort field direction (Menu.filterBy name value menu)) ∧
      Menu.sort field direction (Menu.sort field direction menu) =
        Menu.sort field direction menu := by
  refine ⟨?_, MenuItem.sortText_eq, fun field direction menu => ⟨Menu.filter_sort _ _ _,
    fun name value => Menu.filter_sort _ _ _ _, Menu.sort_sort _ _ _⟩⟩
  obtain ⟨narrowed, arranged, hnarrowed, harranged, rfl⟩ := Tag.selectPages_eq_ok hshuffle h
  obtain ⟨wanted, hwanted, rfl⟩ := Tag.narrow_eq_ok hnarrowed
  obtain ⟨order, horder, hsorted⟩ := Tag.arrange_eq_ok harranged
  refine ⟨fun item => wanted item && item.has "title".toList, fun item => ?_, order, horder, ?_⟩
  · rw [Bool.and_eq_true, hwanted, Tag.has_title_iff]
  · cases order with
    | none =>
      obtain rfl := hsorted
      simp only [List.filter_filter, Bool.and_comm]
    | some order =>
      obtain rfl := hsorted
      have hstable := (Menu.sort_stable order.1 order.2 (items.filter wanted)).filter
        (MenuItem.has "title".toList)
      simpa only [List.filter_filter, Bool.and_comm] using hstable

/-- A menu with two items of one sort text, an item without a title and one that is not
    wanted. -/
theorem selection_is_stable_sort_descending :
    let item (path : Char) (fields : List (Text × FieldValue)) : MenuItem :=
      ⟨[path], Table.ofList fields⟩
    let titled (path day : Char) : MenuItem := item path
      [("title".toList, .text [path]), (['c'], .list [['n'], ['m']]), (['d'], .text [day])]
    let a := titled 'a' '1'
    let b := titled 'b' '2'
    let c := titled 'c' '1'
    let u := item 'u' [(['c'], .text ['n']), (['d'], .text ['3'])]
    let o := item 'o' [("title".toList, .text ['o'])]
    let items := [a, u, b, o, c]
    let attrs := Attributes.read "filter=c|n sort=' d | DESC'".toList
    ((attrs.get? "shuffle".toList).any isOn = false ∧
        Tag.selectPages attrs 0 items = .ok [b, a, c]) ∧
      ∃ wanted : MenuItem → Bool,
        (∀ item, wanted item = true ↔ Tag.Wants attrs item ∧ Tag.Titled item) ∧
        ∃ order, Tag.SortsBy attrs order ∧ match order with
          | none => [b, a, c] = items.filter wanted
          | some (field, direction) =>
            Menu.StableSort field direction (items.filter wanted) [b, a, c] := by
  intro item titled a b c u o items attrs
  have hattrs : attrs = ⟨[(.name "filter".toList, "c|n".toList),
      (.name "sort".toList, " d | DESC".toList)]⟩ := by decide +kernel
  have hshuffle : (attrs.get? "shuffle".toList).any isOn = false := by
    rw [hattrs]
    rfl
  have hsort : Menu.sort ['d'] .descending [a, u, b, c] = [u, b, a, c] := by
    let first := Menu.comesFirst ['d'] .descending
    have hau : first a u = false := rfl
    have hub : first u b = true := rfl
    have hab : first a b = false := rfl
    have hac : first a c = true := rfl
    have hbc : first b c = true := rfl
    change [a, u, b, c].mergeSort first = _
    simp [List.mergeSort, hau, hub, hab, hac, hbc]
  have hnarrow : Tag.narrow attrs items = .ok [a, u, b, c] := by
    rw [hattrs]
    rfl
  have harrange : Tag.arrange attrs [a, u, b, c] = .ok [u, b, a, c] := by
    rw [← hsort, hattrs]
    rfl
  have hselect : Tag.selectPages attrs 0 items = .ok [b, a, c] := by
    rw [Tag.selectPages_eq, hnarrow, hshuffle]
    change (Tag.arrange attrs [a, u, b, c] >>= _) = _
    rw [harrange]
    rfl
  exact ⟨⟨hshuffle, hselect⟩, (selection_is_stable_sort hshuffle hselect).1⟩

end Shortcode
