import Mathlib.Data.List.Nodup
import Shortcode.Proofs.BalancedContent

/-!
# Pairs are nested like brackets

One walk over a text gives each opening tag of a name its entry. What the entries have in
common with brackets is said in terms of places: a tag that is opened inside a paired tag is
closed there, since the marks that the search for a close marker passes leave no tag open.
Outside, two pairs have nothing in common, since the marks of a walk stand one behind the
other. And a close marker is only passed over where no tag is open, so none is behind a tag
that stays open.

* `Mark.keys_pairs_perm`: the tags with entries are those that were open and those met.
* `Mark.exists_pair_of_open`: behind a tag that stays open, every close marker is used.
* `Mark.mem_pairs_of_opens`: the entry of a tag is what the search behind it finds.
* `Recorded.before_or_within`: a pair that opens later lies behind or inside the other one.
* `closePairs_bracketed`: the entries of a text, in one statement.
-/

namespace Shortcode

namespace Mark

/-! ## Entries and marks -/

/-- The first byte of an opening tag, self-closing or not. -/
def opening? : Mark → Option Nat
  | opens start => some start
  | single start => some start
  | closes _ => none

theorem eq_start_of_opening? {mark : Mark} {s : Nat} (h : mark.opening? = some s) :
    s = mark.start := by
  cases mark with
  | opens start => exact (Option.some.inj h).symm
  | single start => exact (Option.some.inj h).symm
  | closes span => exact absurd h (by simp [opening?])

/-- The tags with entries are those that were open and those that are met. -/
theorem keys_pairs_perm (pending : List Nat) (marks : List Mark) :
    ((pairs pending marks).map Prod.fst).Perm (pending ++ marks.filterMap opening?) := by
  induction marks generalizing pending with
  | nil =>
    rw [pairs, List.map_map, List.filterMap_nil, List.append_nil]
    exact List.Perm.of_eq (List.map_id pending)
  | cons mark marks ih =>
    cases mark with
    | opens s =>
      rw [pairs, List.filterMap_cons_some (show opening? (opens s) = some s from rfl)]
      exact (ih (s :: pending)).trans List.perm_middle.symm
    | single s =>
      rw [pairs, List.filterMap_cons_some (show opening? (single s) = some s from rfl),
        List.map_cons]
      exact ((ih pending).cons s).trans List.perm_middle.symm
    | closes span =>
      rw [List.filterMap_cons_none rfl]
      cases pending with
      | nil => exact ih []
      | cons s pending => exact (ih pending).cons s

/-- A tag is closed by a close marker that is met. -/
theorem mem_of_mem_pairs {pending : List Nat} {marks : List Mark} {start : Nat} {span : Span}
    (h : (start, some span) ∈ pairs pending marks) : closes span ∈ marks := by
  have hclose {i : Nat} {marks : List Mark} (h : some span = close? i marks) :
      closes span ∈ marks := by
    obtain ⟨inner, later, rfl, -⟩ := close?_eq_some_iff.1 h.symm
    exact List.mem_append_right _ List.mem_cons_self
  rcases mem_pairs_iff.1 h with ⟨i, -, hc⟩ | ⟨earlier, later, -, hc⟩ | ⟨earlier, later, rfl, hc⟩
  · exact hclose hc
  · exact absurd hc (by simp)
  · exact List.mem_append_right _ (List.mem_cons_of_mem _ (hclose hc))

/-- Where the search from an open tag finds nothing, the tag is still open at each close marker,
    so the marker is used: by that tag or by one that was opened later. -/
theorem exists_pair_of_open {pending : List Nat} {i start : Nat} (hopen : pending[i]? = some start)
    {earlier later : List Mark} {span : Span}
    (hnone : close? i (earlier ++ closes span :: later) = none) :
    ∃ s, (s, some span) ∈ pairs pending (earlier ++ closes span :: later) := by
  induction earlier generalizing pending i with
  | nil =>
    cases pending with
    | nil => simp at hopen
    | cons s pending => exact ⟨s, List.mem_cons_self⟩
  | cons mark earlier ih =>
    cases mark with
    | opens s =>
      have hopen' : (s :: pending)[i + 1]? = some start := by rwa [List.getElem?_cons_succ]
      exact ih hopen' hnone
    | single s =>
      obtain ⟨s', h⟩ := ih hopen hnone
      exact ⟨s', List.mem_cons_of_mem _ h⟩
    | closes sp =>
      cases pending with
      | nil => simp at hopen
      | cons s pending =>
        cases i with
        | zero => exact absurd hnone (by simp [close?])
        | succ i =>
          rw [List.getElem?_cons_succ] at hopen
          obtain ⟨s', h⟩ := ih hopen hnone
          exact ⟨s', List.mem_cons_of_mem _ h⟩

/-! ## Marks in their order -/

/-- A mark that starts behind another one is met later. -/
theorem mem_later_of_start_lt {name t : Text} {k : Nat} {earlier later : List Mark}
    {mark mark' : Mark} (h : list name k t = earlier ++ mark :: later)
    (hmem : mark' ∈ list name k t) (hlt : mark.start < mark'.start) : mark' ∈ later := by
  have hsorted := pairwise_start_list name k t
  rw [h, List.pairwise_append] at hsorted
  rw [h, List.mem_append, List.mem_cons] at hmem
  rcases hmem with hmem | rfl | hmem
  · have := hsorted.2.2 mark' hmem mark List.mem_cons_self
    omega
  · exact absurd hlt (Nat.lt_irrefl _)
  · exact hmem

/-- No tag is opened twice. -/
theorem nodup_opening_list (name : Text) (k : Nat) (t : Text) :
    ((list name k t).filterMap opening?).Nodup := by
  refine List.Pairwise.filterMap opening? ?_ (pairwise_start_list name k t)
  intro m m' hlt s hs s' hs'
  rw [eq_start_of_opening? hs, eq_start_of_opening? hs']
  exact Nat.ne_of_lt hlt

/-- The marks behind a close marker start behind it. -/
theorem stop_le_start_of_closes {name t : Text} {k : Nat} {earlier later : List Mark}
    {span : Span} (h : list name k t = earlier ++ closes span :: later) :
    ∀ mark ∈ later, span.stop ≤ mark.start := by
  obtain ⟨before, rest, -, -, hlater⟩ := closes_of_list_eq h
  intro mark hmem
  rw [hlater] at hmem
  exact le_start_of_mem_list hmem

/-- The entry of a tag that opens is what the search behind it finds. -/
theorem mem_pairs_of_opens {name t : Text} {k start : Nat} {earlier later : List Mark}
    {close : Option Span} (h : list name k t = earlier ++ opens start :: later) :
    (start, close) ∈ pairs [] (list name k t) ↔ close = close? 0 later := by
  have hfound : (start, close? 0 later) ∈ pairs [] (list name k t) :=
    mem_pairs_iff.2 (.inr (.inr ⟨earlier, later, h, rfl⟩))
  constructor
  · intro hmem
    have hnodup : ((pairs [] (list name k t)).map Prod.fst).Nodup :=
      (keys_pairs_perm [] (list name k t)).nodup_iff.2 (nodup_opening_list name k t)
    exact congrArg Prod.snd (List.inj_on_of_nodup_map hnodup hmem hfound rfl)
  · rintro rfl
    exact hfound

/-- A tag that is paired with a close marker stands in front of marks that leave no tag open,
    and the marker behind these. -/
theorem exists_of_mem_pairs {name t : Text} {k start : Nat} {span : Span}
    (h : (start, some span) ∈ pairs [] (list name k t)) :
    ∃ earlier inner later,
      list name k t = earlier ++ opens start :: (inner ++ closes span :: later) ∧
        openBehind 0 inner = some 0 := by
  rcases mem_pairs_iff.1 h with ⟨i, hi, -⟩ | ⟨earlier, later, -, hc⟩ | ⟨earlier, later, hl, hc⟩
  · simp at hi
  · exact absurd hc (by simp)
  · obtain ⟨inner, later', rfl, hopen⟩ := close?_eq_some_iff.1 hc.symm
    exact ⟨earlier, inner, later', hl, hopen⟩

/-- A tag that is opened between a tag and its close marker is closed between them. -/
theorem exists_inner_pair {name t : Text} {k start : Nat} {earlier inner later : List Mark}
    (h : list name k t = earlier ++ (inner ++ later)) (hopen : openBehind 0 inner = some 0)
    (hstart : opens start ∈ inner) {close : Option Span}
    (hclose : (start, close) ∈ pairs [] (list name k t)) :
    ∃ span, close = some span ∧ closes span ∈ inner := by
  have hpending : openBehind ([] : List Nat).length inner = some 0 := hopen
  obtain ⟨span, hspan⟩ := exists_pair_of_opens hpending (.inr hstart)
  refine ⟨span, ?_, mem_of_mem_pairs hspan⟩
  rcases mem_pairs_iff.1 hspan with ⟨i, hi, -⟩ | ⟨front, back, -, hc⟩ | ⟨front, back, rfl, hc⟩
  · simp at hi
  · exact absurd hc (by simp)
  · -- the search finds the same marker in the whole text
    obtain ⟨passed, behind, rfl, hpassed⟩ := close?_eq_some_iff.1 hc.symm
    have hl : list name k t =
        (earlier ++ front) ++ opens start :: (passed ++ closes span :: (behind ++ later)) := by
      rw [h]
      simp only [List.append_assoc, List.cons_append]
    rw [(mem_pairs_of_opens hl).1 hclose]
    exact close?_eq_some_iff.2 ⟨passed, behind ++ later, rfl, hpassed⟩

end Mark

/-! ## Paired tags -/

/-- An opening tag of a name stands at a place in a text. -/
def OpensAt (name t : Text) (place : Span) : Prop :=
  ∃ u o rest, t.from? place.start = some u ∧ Opening.read? u = some (o, rest) ∧ o.name = name ∧
    place.stop = place.start + o.source.size

/-- A close marker of a name stands at a place in a text. -/
def ClosesAt (name t : Text) (place : Span) : Prop :=
  ∃ rest, t.from? place.start = some (closeMarker name ++ rest) ∧
    place.stop = place.start + (closeMarker name).size

/-- The places of the opening tag and of the close marker of a tag. -/
@[ext]
structure PairedTag where
  opening : Span
  closing : Span
  deriving DecidableEq, Repr

namespace PairedTag

/-- The place of the whole tag. -/
def whole (p : PairedTag) : Span :=
  ⟨p.opening.start, p.closing.stop⟩

/-- The place of its content. -/
def content (p : PairedTag) : Span :=
  ⟨p.opening.stop, p.closing.start⟩

end PairedTag

namespace Span

/-- Two places have nothing in common. -/
def Disjoint (a b : Span) : Prop :=
  a.stop ≤ b.start ∨ b.stop ≤ a.start

/-- A place lies in another one. -/
def Within (a b : Span) : Prop :=
  b.start ≤ a.start ∧ a.stop ≤ b.stop

end Span

/-- A tag is recorded as paired in the entries for a text. -/
structure Recorded (name t : Text) (p : PairedTag) : Prop where
  opening : OpensAt name t p.opening
  entry : (p.opening.start, some p.closing) ∈ closePairs name t

variable {name t : Text} {p q : PairedTag}

/-- The end of an opening tag is told by its start. -/
theorem OpensAt.eq_of_start_eq {place place' : Span} (h : OpensAt name t place)
    (h' : OpensAt name t place') (hstart : place.start = place'.start) : place = place' := by
  obtain ⟨start, stop⟩ := place
  obtain ⟨start', stop'⟩ := place'
  obtain rfl : start = start' := hstart
  obtain ⟨u, o, rest, hu, ho, -, hstop⟩ := h
  obtain ⟨u', o', rest', hu', ho', -, hstop'⟩ := h'
  obtain rfl := Option.some.inj (hu.symm.trans hu')
  obtain ⟨rfl, rfl⟩ := Prod.mk.inj (Option.some.inj (ho.symm.trans ho'))
  exact congrArg (Span.mk start) (hstop.trans hstop'.symm)

theorem OpensAt.start_lt_stop {place : Span} (h : OpensAt name t place) :
    place.start < place.stop := by
  obtain ⟨u, o, rest, -, -, -, hstop⟩ := h
  have := '['.utf8Size_pos
  rw [hstop, Opening.source, Text.size_cons]
  omega

/-- A close marker that the walk meets stands in the text. -/
theorem closesAt_of_list {span : Span} {earlier later : List Mark}
    (h : Mark.list name 0 t = earlier ++ .closes span :: later) : ClosesAt name t span := by
  obtain ⟨before, rest, rfl, rfl, -⟩ := Mark.closes_of_list_eq h
  rw [Nat.zero_add]
  exact ⟨rest, Text.from?_size_append before _, rfl⟩

theorem ClosesAt.start_lt_stop {place : Span} (h : ClosesAt name t place) :
    place.start < place.stop := by
  obtain ⟨rest, -, hstop⟩ := h
  have := '['.utf8Size_pos
  rw [hstop, closeMarker, Text.size_cons]
  omega

/-- A tag that the walk meets stands in the text, and the marks behind it start behind it. -/
theorem exists_opensAt {start : Nat} {earlier later : List Mark}
    (h : Mark.list name 0 t = earlier ++ .opens start :: later) :
    ∃ stop, OpensAt name t ⟨start, stop⟩ ∧ ∀ mark ∈ later, stop ≤ mark.start := by
  obtain ⟨before, u, o, rest, rfl, rfl, ho, hname, -, hlater⟩ :=
    Mark.opening_of_list_eq (.inr rfl) h
  rw [Nat.zero_add] at hlater ⊢
  refine ⟨before.size + o.source.size,
    ⟨u, o, rest, Text.from?_size_append before u, ho, hname, rfl⟩, fun mark hmem => ?_⟩
  rw [hlater] at hmem
  exact Mark.le_start_of_mem_list hmem

namespace Recorded

/-- A recorded tag stands in front of marks that leave no tag open, and its close marker behind
    these. All marks behind its opening tag start behind that. -/
theorem exists_marks (hp : Recorded name t p) :
    ∃ earlier inner later,
      Mark.list name 0 t =
        earlier ++ .opens p.opening.start :: (inner ++ .closes p.closing :: later) ∧
      Mark.openBehind 0 inner = some 0 ∧
      ∀ mark ∈ inner ++ .closes p.closing :: later, p.opening.stop ≤ mark.start := by
  obtain ⟨earlier, inner, later, hl, hopen⟩ := Mark.exists_of_mem_pairs hp.entry
  obtain ⟨stop, hplace, hbehind⟩ := exists_opensAt hl
  have hstop : p.opening.stop = stop := congrArg Span.stop (hp.opening.eq_of_start_eq hplace rfl)
  exact ⟨earlier, inner, later, hl, hopen, hstop ▸ hbehind⟩

/-- The close marker of a recorded tag stands at the end of its opening tag or behind it. -/
theorem stop_le_start (hp : Recorded name t p) : p.opening.stop ≤ p.closing.start := by
  obtain ⟨earlier, inner, later, -, -, hbehind⟩ := hp.exists_marks
  exact hbehind (.closes p.closing) (List.mem_append_right _ List.mem_cons_self)

/-- The content of a recorded tag lies strictly inside of the tag. -/
theorem content_inside (hp : Recorded name t p) :
    p.whole.start < p.content.start ∧ p.content.start ≤ p.content.stop ∧
      p.content.stop < p.whole.stop := by
  obtain ⟨earlier, inner, later, hl, -, -⟩ := hp.exists_marks
  have hl₁ : Mark.list name 0 t =
      (earlier ++ .opens p.opening.start :: inner) ++ .closes p.closing :: later := by
    rw [hl, List.append_assoc, List.cons_append]
  exact ⟨hp.opening.start_lt_stop, hp.stop_le_start, (closesAt_of_list hl₁).start_lt_stop⟩

/-- Of two recorded tags the one that opens later lies behind the other one or in its content. -/
theorem before_or_within (hp : Recorded name t p) (hq : Recorded name t q)
    (hlt : p.opening.start < q.opening.start) :
    p.whole.stop ≤ q.whole.start ∨ q.whole.Within p.content := by
  obtain ⟨earlier, inner, later, hl, hopen, hbehind⟩ := hp.exists_marks
  obtain ⟨earlier', inner', later', hl', -, -⟩ := hq.exists_marks
  have hmet : Mark.opens q.opening.start ∈ Mark.list name 0 t := by
    rw [hl']
    exact List.mem_append_right _ List.mem_cons_self
  have hmem := Mark.mem_later_of_start_lt hl hmet hlt
  have hstart := hbehind _ hmem
  rw [List.mem_append, List.mem_cons] at hmem
  rcases hmem with hinner | heq | hlater
  · -- it is opened in front of the close marker, so it is closed there too
    right
    have hl₁ : Mark.list name 0 t =
        (earlier ++ [.opens p.opening.start]) ++ (inner ++ .closes p.closing :: later) := by
      rw [hl, List.append_assoc, List.singleton_append]
    obtain ⟨span, hspan, hclosed⟩ := Mark.exists_inner_pair hl₁ hopen hinner hq.entry
    obtain rfl := Option.some.inj hspan
    obtain ⟨front, back, rfl⟩ := List.append_of_mem hclosed
    have hl₂ : Mark.list name 0 t = (earlier ++ .opens p.opening.start :: front) ++
        .closes q.closing :: (back ++ .closes p.closing :: later) := by
      rw [hl]
      simp only [List.append_assoc, List.cons_append]
    refine ⟨hstart, ?_⟩
    exact Mark.stop_le_start_of_closes hl₂ (.closes p.closing)
      (List.mem_append_right _ List.mem_cons_self)
  · exact absurd heq (by simp)
  · left
    have hl₁ : Mark.list name 0 t =
        (earlier ++ .opens p.opening.start :: inner) ++ .closes p.closing :: later := by
      rw [hl, List.append_assoc, List.cons_append]
    exact Mark.stop_le_start_of_closes hl₁ _ hlater

/-- Two recorded tags have nothing in common, or one of them lies in the content of the other. -/
theorem disjoint_or_within (hp : Recorded name t p) (hq : Recorded name t q) (hne : p ≠ q) :
    p.whole.Disjoint q.whole ∨ p.whole.Within q.content ∨ q.whole.Within p.content := by
  rcases Nat.lt_trichotomy p.opening.start q.opening.start with hlt | heq | hlt
  · exact (hp.before_or_within hq hlt).imp .inl .inr
  · -- one opening tag has one entry
    obtain ⟨earlier, inner, later, hl, -, -⟩ := hp.exists_marks
    have hfound := (Mark.mem_pairs_of_opens hl).1 hp.entry
    have hfound' := (Mark.mem_pairs_of_opens hl).1 (heq ▸ hq.entry)
    have hclosing : p.closing = q.closing := Option.some.inj (hfound.trans hfound'.symm)
    exact absurd (PairedTag.ext (hp.opening.eq_of_start_eq hq.opening heq) hclosing) hne
  · exact (hq.before_or_within hp hlt).imp .inr .inl

end Recorded

/-- An entry with a close marker is that of a recorded tag. -/
theorem exists_recorded {start : Nat} {closing : Span}
    (h : (start, some closing) ∈ closePairs name t) :
    ∃ stop, Recorded name t ⟨⟨start, stop⟩, closing⟩ := by
  obtain ⟨earlier, inner, later, hl, -⟩ := Mark.exists_of_mem_pairs h
  obtain ⟨stop, hplace, -⟩ := exists_opensAt hl
  exact ⟨stop, hplace, h⟩

/-- A close marker closes one tag: two tags with the same one would have it in common, and in
    neither of their contents. -/
theorem start_eq_of_closing_eq {start start' : Nat} {closing : Span}
    (h : (start, some closing) ∈ closePairs name t)
    (h' : (start', some closing) ∈ closePairs name t) : start = start' := by
  obtain ⟨stop, hp⟩ := exists_recorded h
  obtain ⟨stop', hq⟩ := exists_recorded h'
  by_contra hne
  have hnested := hp.disjoint_or_within hq fun heq => hne (congrArg (·.opening.start) heq)
  have hinside := hp.content_inside
  have hinside' := hq.content_inside
  simp only [Span.Disjoint, Span.Within, PairedTag.whole, PairedTag.content] at hnested
  simp only [PairedTag.whole, PairedTag.content] at hinside hinside'
  omega

/-- Behind a tag that stays open, every close marker that the walk meets is used. -/
theorem exists_entry_of_open {start : Nat} {closing : Span}
    (hopen : (start, none) ∈ closePairs name t) (hmet : .opens start ∈ Mark.list name 0 t)
    (hcloses : .closes closing ∈ Mark.list name 0 t) (hlt : start < closing.start) :
    ∃ start', (start', some closing) ∈ closePairs name t := by
  obtain ⟨earlier, later, hl⟩ := List.append_of_mem hmet
  have hnone := (Mark.mem_pairs_of_opens hl).1 hopen
  obtain ⟨between, behind, rfl⟩ :=
    List.append_of_mem (Mark.mem_later_of_start_lt hl hcloses hlt)
  rw [closePairs, hl]
  obtain ⟨below, hsubset⟩ := Mark.exists_pairs_subset [] earlier
    (.opens start :: (between ++ .closes closing :: behind))
  have htop : (start :: below)[0]? = some start := rfl
  obtain ⟨start', h⟩ := Mark.exists_pair_of_open htop hnone.symm
  exact ⟨start', hsubset h⟩

/-- The entries for the opening tags of a name pair them like brackets. -/
structure Bracketed (name t : Text) : Prop where
  /-- There is one entry for each opening tag that the walk meets, and no other. -/
  entries : ((closePairs name t).map Prod.fst).Perm ((Mark.list name 0 t).filterMap Mark.opening?)
  nodup : ((closePairs name t).map Prod.fst).Nodup
  /-- A self-closing tag is whole and waits for no close marker. -/
  single : ∀ start, .single start ∈ Mark.list name 0 t → (start, none) ∈ closePairs name t
  /-- A recorded close marker is one that the walk meets, and it stands at the end of the
      opening tag or behind it. -/
  behind : ∀ start closing, (start, some closing) ∈ closePairs name t →
    .closes closing ∈ Mark.list name 0 t ∧ ClosesAt name t closing ∧
      ∃ stop, OpensAt name t ⟨start, stop⟩ ∧ stop ≤ closing.start
  /-- It is used by one opening tag only. -/
  once : ∀ start start' closing, (start, some closing) ∈ closePairs name t →
    (start', some closing) ∈ closePairs name t → start = start'
  /-- The content of a paired tag lies strictly inside of the tag. -/
  inside : ∀ p, Recorded name t p →
    p.whole.start < p.content.start ∧ p.content.start ≤ p.content.stop ∧
      p.content.stop < p.whole.stop
  /-- Two paired tags have nothing in common, or one lies in the content of the other. -/
  nested : ∀ p q, Recorded name t p → Recorded name t q → p ≠ q →
    p.whole.Disjoint q.whole ∨ p.whole.Within q.content ∨ q.whole.Within p.content
  /-- No close marker behind a tag that stays open goes unused. -/
  used : ∀ start closing, .opens start ∈ Mark.list name 0 t → (start, none) ∈ closePairs name t →
    .closes closing ∈ Mark.list name 0 t → start < closing.start →
      ∃ start', (start', some closing) ∈ closePairs name t

/-- Close markers are paired like brackets, whatever the text and the name: the pairs that are
    recorded are nested in each other or apart, and as many as there can be. -/
theorem closePairs_bracketed (name t : Text) : Bracketed name t where
  entries := Mark.keys_pairs_perm [] _
  nodup := (Mark.keys_pairs_perm [] _).nodup_iff.2 (Mark.nodup_opening_list name 0 t)
  single := by
    intro start hmet
    obtain ⟨earlier, later, hl⟩ := List.append_of_mem hmet
    exact Mark.mem_pairs_iff.2 (.inr (.inl ⟨earlier, later, hl, rfl⟩))
  behind := by
    intro start closing h
    have hmet := Mark.mem_of_mem_pairs h
    obtain ⟨earlier, later, hl⟩ := List.append_of_mem hmet
    obtain ⟨stop, hp⟩ := exists_recorded h
    exact ⟨hmet, closesAt_of_list hl, stop, hp.opening, hp.stop_le_start⟩
  once := fun _ _ _ h h' => start_eq_of_closing_eq h h'
  inside := fun _ hp => hp.content_inside
  nested := fun _ _ hp hq hne => hp.disjoint_or_within hq hne
  used := fun _ _ hmet hopen hcloses hlt => exists_entry_of_open hopen hmet hcloses hlt

/-- A close marker that is left over, a tag that stays open, one that is closed with a
    self-closing tag and a closed one in its content, and a quoted bracket in the latter. -/
example : closePairs ['b'] "[/b][b][b][b/][b x=\"[b]\"][/b][/b]".toList =
    [(10, none), (14, some ⟨25, 29⟩), (7, some ⟨29, 33⟩), (4, none)] := by
  decide +kernel

end Shortcode
