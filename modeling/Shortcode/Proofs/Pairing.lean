import Shortcode.Proofs.Offset
import Shortcode.Proofs.Opening

/-!
# Walking over marks

A walk over a text meets its marks one after the other. What it meets behind a
mark is the walk over the text that the mark leaves, so the close marker that is
searched forward from an opening tag is found among the later marks of any walk
that met the tag. That is why one walk with a stack can pair all tags at once.

* `Mark.list_eq_append_cons`: a mark in the middle of a walk was read where the
  walk stood, and the marks behind it are a walk of their own.
* `Mark.mem_pairs_iff`: what the stack pairs, in terms of the forward search.
* `mem_closePairs`: every pair of a document is an opening tag with the close
  marker that the search behind it finds.
-/

namespace Shortcode

namespace Mark

/-! ## The walk -/

@[simp] theorem list_nil (name : Text) (start : Nat) : list name start [] = [] := by
  rw [list]

theorem list_of_read {name t rest : Text} {start stop : Nat} {mark : Mark}
    (h : read? name start t = some (mark, stop, rest)) :
    list name start t = mark :: list name stop rest := by
  cases t with
  | nil =>
    have := length_lt_of_read h
    exact absurd this (by simp)
  | cons c r =>
    rw [list]
    split
    next hr =>
      rw [h] at hr
      simp only [Option.some.injEq, Prod.mk.injEq] at hr
      obtain ⟨rfl, rfl, rfl⟩ := hr
      rfl
    next hr =>
      rw [h] at hr
      exact absurd hr (by simp)

theorem list_of_not_read {name r : Text} {start : Nat} {c : Char}
    (h : read? name start (c :: r) = none) :
    list name start (c :: r) = list name (start + c.utf8Size) r := by
  rw [list]
  split
  next hr =>
    rw [h] at hr
    exact absurd hr (by simp)
  · rfl

/-- A mark in the middle of a walk was read where the walk stood, and the marks
    behind it are a walk of their own. -/
theorem list_eq_append_cons {name t : Text} {start : Nat} {earlier later : List Mark}
    {mark : Mark} (h : list name start t = earlier ++ mark :: later) :
    ∃ before u stop rest, t = before ++ u ∧
      read? name (start + before.size) u = some (mark, stop, rest) ∧
      later = list name stop rest := by
  fun_induction list name start t generalizing earlier with
  | case1 => simp at h
  | case2 start c r mark' stop rest hr ih =>
    cases earlier with
    | nil =>
      simp only [List.nil_append, List.cons.injEq] at h
      obtain ⟨rfl, rfl⟩ := h
      exact ⟨[], c :: r, stop, rest, rfl, hr, rfl⟩
    | cons m earlier =>
      -- the walk goes on behind the text that the first mark took
      simp only [List.cons_append, List.cons.injEq] at h
      obtain ⟨before, u, stop', rest', hrest, hu, hlater⟩ := ih h.2
      obtain ⟨s, hs, hstop⟩ := append_of_read hr
      refine ⟨s ++ before, u, stop', rest', by rw [hs, hrest, List.append_assoc], ?_, hlater⟩
      rw [Text.size_append, ← Nat.add_assoc, ← hstop]
      exact hu
  | case3 start c r hr ih =>
    obtain ⟨before, u, stop', rest', hrest, hu, hlater⟩ := ih h
    refine ⟨c :: before, u, stop', rest', by rw [hrest, List.cons_append], ?_, hlater⟩
    rw [Text.size_cons, ← Nat.add_assoc]
    exact hu

/-- An opening tag in the middle of a walk was read from the text. -/
theorem opening_of_list_eq {name t : Text} {k start : Nat} {earlier later : List Mark}
    {mark : Mark} (hmark : mark = single start ∨ mark = opens start)
    (h : list name k t = earlier ++ mark :: later) :
    ∃ before u o rest, t = before ++ u ∧ start = k + before.size ∧
      Opening.read? u = some (o, rest) ∧ o.name = name ∧
      mark = (if o.selfClosing then single start else opens start) ∧
      later = list name (start + o.source.size) rest := by
  obtain ⟨before, u, stop, rest, ht, hu, hlater⟩ := list_eq_append_cons h
  rcases read?_eq_some_iff.1 hu with ⟨-, -, rfl⟩ | ⟨o, ho, hname, rfl, hm⟩
  · rcases hmark with hmark | hmark <;> exact absurd hmark (by simp)
  · have hstart : k + before.size = start := by
      rcases hmark with rfl | rfl <;> split at hm <;> simp_all
    subst hstart
    exact ⟨before, u, o, rest, ht, rfl, ho, hname, hm, hlater⟩

/-- A close marker in the middle of a walk was read from the text. -/
theorem closes_of_list_eq {name t : Text} {k : Nat} {earlier later : List Mark} {span : Span}
    (h : list name k t = earlier ++ closes span :: later) :
    ∃ before rest, t = before ++ (closeMarker name ++ rest) ∧
      span = ⟨k + before.size, k + before.size + (closeMarker name).size⟩ ∧
      later = list name span.stop rest := by
  obtain ⟨before, u, stop, rest, ht, hu, hlater⟩ := list_eq_append_cons h
  rcases read?_eq_some_iff.1 hu with ⟨rfl, rfl, hspan⟩ | ⟨o, -, -, -, hm⟩
  · rw [closes.injEq] at hspan
    exact ⟨before, rest, ht, hspan, by rw [hspan, hlater]⟩
  · split at hm <;> exact absurd hm (by simp)

/-! ## The forward search -/

/-- How many tags are open behind some marks, where `pending` are open in front of
    them; `none` if a mark closes one that none of the marks opened. -/
def openBehind (pending : Nat) : List Mark → Option Nat
  | [] => some pending
  | opens _ :: marks => openBehind (pending + 1) marks
  | single _ :: marks => openBehind pending marks
  | closes _ :: marks =>
    match pending with
    | 0 => none
    | n + 1 => openBehind n marks

/-- The forward search ends at the first close marker in front of which no further
    tag is open. -/
theorem close?_eq_some_iff {pending : Nat} {marks : List Mark} {span : Span} :
    close? pending marks = some span ↔
      ∃ inner later, marks = inner ++ closes span :: later ∧
        openBehind pending inner = some 0 := by
  constructor
  · intro h
    induction marks generalizing pending with
    | nil => exact absurd h (by simp [close?])
    | cons mark marks ih =>
      cases mark with
      | opens s =>
        obtain ⟨inner, later, rfl, ho⟩ := ih h
        exact ⟨opens s :: inner, later, rfl, ho⟩
      | single s =>
        obtain ⟨inner, later, rfl, ho⟩ := ih h
        exact ⟨single s :: inner, later, rfl, ho⟩
      | closes sp =>
        cases pending with
        | zero =>
          rw [close?, Option.some.injEq] at h
          exact ⟨[], marks, by rw [h, List.nil_append], rfl⟩
        | succ n =>
          obtain ⟨inner, later, rfl, ho⟩ := ih h
          exact ⟨closes sp :: inner, later, rfl, ho⟩
  · rintro ⟨inner, later, rfl, ho⟩
    induction inner generalizing pending with
    | nil =>
      rw [openBehind, Option.some.injEq] at ho
      rw [ho]
      rfl
    | cons mark inner ih =>
      cases mark with
      | opens s => exact ih ho
      | single s => exact ih ho
      | closes sp =>
        cases pending with
        | zero => exact absurd ho (by simp [openBehind])
        | succ n => exact ih ho

/-! ## The stack -/

/-- An open tag has the close marker that is searched above the tags opened later. -/
theorem mem_pairs_of_pending {pending : List Nat} {i start : Nat} (h : pending[i]? = some start)
    (marks : List Mark) : (start, close? i marks) ∈ pairs pending marks := by
  induction marks generalizing pending i with
  | nil =>
    rw [pairs, close?, List.mem_map]
    exact ⟨start, List.mem_of_getElem? h, rfl⟩
  | cons mark marks ih =>
    cases mark with
    | opens s =>
      rw [pairs, close?]
      exact ih (by rwa [List.getElem?_cons_succ])
    | single s =>
      rw [pairs, close?]
      exact List.mem_cons_of_mem _ (ih h)
    | closes span =>
      cases pending with
      | nil => simp at h
      | cons s pending =>
        cases i with
        | zero =>
          simp only [List.getElem?_cons_zero, Option.some.injEq] at h
          rw [pairs, close?, h]
          exact List.mem_cons_self
        | succ i =>
          -- a tag that was opened later is closed first
          rw [List.getElem?_cons_succ] at h
          rw [pairs, close?]
          exact List.mem_cons_of_mem _ (ih h)

/-- Later marks are paired with some tags open below them. -/
theorem exists_pairs_subset (pending : List Nat) (earlier later : List Mark) :
    ∃ below, pairs below later ⊆ pairs pending (earlier ++ later) := by
  induction earlier generalizing pending with
  | nil => exact ⟨pending, List.Subset.refl _⟩
  | cons mark earlier ih =>
    rw [List.cons_append]
    cases mark with
    | opens s => exact ih (s :: pending)
    | single s =>
      obtain ⟨below, h⟩ := ih pending
      exact ⟨below, List.subset_cons_of_subset _ h⟩
    | closes span =>
      cases pending with
      | nil => exact ih []
      | cons s pending =>
        obtain ⟨below, h⟩ := ih pending
        exact ⟨below, List.subset_cons_of_subset _ h⟩

/-- A tag and the close marker that the forward search gives it: one of the open
    tags, a self-closing tag, or a tag that the walk opens. -/
def Paired (pending : List Nat) (marks : List Mark) (start : Nat) (close : Option Span) : Prop :=
  (∃ i, pending[i]? = some start ∧ close = close? i marks) ∨
  (∃ earlier later, marks = earlier ++ single start :: later ∧ close = none) ∨
  (∃ earlier later, marks = earlier ++ opens start :: later ∧ close = close? 0 later)

/-- A tag of the later marks keeps its close marker when a mark is put in front of
    them, if the tags that are open behind that mark do. -/
theorem Paired.cons {pending pending' : List Nat} {mark : Mark} {marks : List Mark}
    {start : Nat} {close : Option Span} (h : Paired pending' marks start close)
    (hp : ∀ i, pending'[i]? = some start → close = close? i marks →
      Paired pending (mark :: marks) start close) :
    Paired pending (mark :: marks) start close := by
  rcases h with ⟨i, hi, hc⟩ | ⟨earlier, later, rfl, hc⟩ | ⟨earlier, later, rfl, hc⟩
  · exact hp i hi hc
  · exact .inr (.inl ⟨mark :: earlier, later, rfl, hc⟩)
  · exact .inr (.inr ⟨mark :: earlier, later, rfl, hc⟩)

theorem paired_of_mem_pairs {pending : List Nat} {marks : List Mark} {start : Nat}
    {close : Option Span} (h : (start, close) ∈ pairs pending marks) :
    Paired pending marks start close := by
  induction marks generalizing pending with
  | nil =>
    rw [pairs, List.mem_map] at h
    obtain ⟨s, hs, he⟩ := h
    rw [Prod.mk.injEq] at he
    obtain ⟨i, hi⟩ := List.getElem?_of_mem hs
    exact .inl ⟨i, by rw [hi, he.1], he.2.symm⟩
  | cons mark marks ih =>
    cases mark with
    | opens s =>
      rw [pairs] at h
      refine (ih h).cons fun i hi hc => ?_
      -- the tag on top is the one that the mark opens
      cases i with
      | zero =>
        simp only [List.getElem?_cons_zero, Option.some.injEq] at hi
        exact .inr (.inr ⟨[], marks, by rw [hi, List.nil_append], hc⟩)
      | succ i => exact .inl ⟨i, by rwa [List.getElem?_cons_succ] at hi, hc⟩
    | single s =>
      rw [pairs, List.mem_cons, Prod.mk.injEq] at h
      rcases h with ⟨rfl, rfl⟩ | h
      · exact .inr (.inl ⟨[], marks, rfl, rfl⟩)
      · exact (ih h).cons fun i hi hc => .inl ⟨i, hi, hc⟩
    | closes span =>
      cases pending with
      | nil =>
        rw [pairs] at h
        exact (ih h).cons fun i hi _ => absurd hi (by simp)
      | cons s pending =>
        rw [pairs, List.mem_cons, Prod.mk.injEq] at h
        rcases h with ⟨rfl, rfl⟩ | h
        · exact .inl ⟨0, rfl, rfl⟩
        · exact (ih h).cons fun i hi hc => .inl ⟨i + 1, hi, hc⟩

theorem mem_pairs_of_paired {pending : List Nat} {marks : List Mark} {start : Nat}
    {close : Option Span} (h : Paired pending marks start close) :
    (start, close) ∈ pairs pending marks := by
  rcases h with ⟨i, hi, rfl⟩ | ⟨earlier, later, rfl, rfl⟩ | ⟨earlier, later, rfl, rfl⟩
  · exact mem_pairs_of_pending hi marks
  · obtain ⟨below, h⟩ := exists_pairs_subset pending earlier (single start :: later)
    exact h List.mem_cons_self
  · obtain ⟨below, h⟩ := exists_pairs_subset pending earlier (opens start :: later)
    have htop : (start :: below)[0]? = some start := rfl
    exact h (mem_pairs_of_pending htop later)

/-- What the stack pairs is what the forward search pairs. -/
theorem mem_pairs_iff {pending : List Nat} {marks : List Mark} {start : Nat}
    {close : Option Span} :
    (start, close) ∈ pairs pending marks ↔ Paired pending marks start close :=
  ⟨paired_of_mem_pairs, mem_pairs_of_paired⟩

end Mark

/-- The close marker that is searched stands behind some content. -/
theorem append_of_findClose {name t : Text} {k : Nat} {span : Span}
    (h : findClose name k t = some span) :
    ∃ content rest, t = content ++ (closeMarker name ++ rest) ∧
      span = ⟨k + content.size, k + content.size + (closeMarker name).size⟩ := by
  obtain ⟨inner, later, hl, -⟩ := Mark.close?_eq_some_iff.1 h
  obtain ⟨content, rest, ht, hspan, -⟩ := Mark.closes_of_list_eq hl
  exact ⟨content, rest, ht, hspan⟩

/-- Every pair of a document is an opening tag of the name. A self-closing tag has
    no close marker, and another one has the close marker that the search behind it
    finds. -/
theorem mem_closePairs {name t : Text} {start : Nat} {close : Option Span}
    (h : (start, close) ∈ closePairs name t) :
    ∃ u o rest, t.from? start = some u ∧ Opening.read? u = some (o, rest) ∧ o.name = name ∧
      close = if o.selfClosing then none else findClose name (start + o.source.size) rest := by
  rcases Mark.mem_pairs_iff.1 h with ⟨i, hi, -⟩ | ⟨earlier, later, hl, rfl⟩ |
    ⟨earlier, later, hl, rfl⟩
  · exact absurd hi (by simp)
  · obtain ⟨before, u, o, rest, rfl, rfl, ho, hname, hm, -⟩ := Mark.opening_of_list_eq (.inl rfl) hl
    rw [Nat.zero_add] at hm ⊢
    refine ⟨u, o, rest, Text.from?_size_append _ _, ho, hname, ?_⟩
    split at hm
    next hs => rw [if_pos hs]
    · exact absurd hm (by simp)
  · obtain ⟨before, u, o, rest, rfl, rfl, ho, hname, hm, hlater⟩ :=
      Mark.opening_of_list_eq (.inr rfl) hl
    rw [Nat.zero_add] at hm hlater ⊢
    refine ⟨u, o, rest, Text.from?_size_append _ _, ho, hname, ?_⟩
    split at hm
    · exact absurd hm (by simp)
    next hs => rw [if_neg hs, hlater, findClose]

end Shortcode
