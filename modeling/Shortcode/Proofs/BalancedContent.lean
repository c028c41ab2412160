import Shortcode.Proofs.CutReading
import Shortcode.Proofs.Remembering

/-!
# Nesting in the content of a tag

The content of a paired tag ends at the close marker that was found in the whole
text, and is then read as a text of its own. What the search passed on its way are
brackets that balance, so if the content is read as the search has read it, then
every tag of the name in it is paired there, and no close marker is left over.

The content is read that way if and only if no mark in it is torn by its end. A
quote right in front of the close marker is enough to tear one.

* `Mark.passed`: the marks that a search passes before it comes to its end.
* `Mark.Visits`: where a walk over a text tries to read a mark.
* `Mark.list_eq_iff_of_cut`: a walk meets the same marks in front of a cut if and
  only if it tears none.
* `content_balanced_iff`: when the nesting in the content of a tag is balanced.
-/

namespace Shortcode

namespace Mark

/-! ## Places of marks -/

/-- The first byte of a mark. -/
def start : Mark → Nat
  | opens start => start
  | single start => start
  | closes span => span.start

/-- The same mark, `d` bytes further on. -/
def shift (d : Nat) : Mark → Mark
  | opens start => opens (start + d)
  | single start => single (start + d)
  | closes span => closes ⟨span.start + d, span.stop + d⟩

/-- A mark starts where it is read, and takes room. -/
theorem start_eq_of_read {name t rest : Text} {k stop : Nat} {mark : Mark}
    (h : read? name k t = some (mark, stop, rest)) : mark.start = k ∧ k < stop := by
  rcases read?_eq_some_iff.1 h with ⟨-, rfl, rfl⟩ | ⟨o, -, -, rfl, rfl⟩
  · refine ⟨rfl, ?_⟩
    have := '['.utf8Size_pos
    simp only [closeMarker, Text.size_cons]
    omega
  · refine ⟨by split <;> rfl, ?_⟩
    have := '['.utf8Size_pos
    simp only [Opening.source, Text.size_cons]
    omega

/-- Where a mark is read does not matter for what is read. -/
theorem read?_add (name : Text) (k d : Nat) (t : Text) :
    read? name (k + d) t =
      (read? name k t).map fun (mark, stop, rest) => (mark.shift d, stop + d, rest) := by
  have hcloses (s : Nat) : shift d (closes ⟨k, k + s⟩) = closes ⟨k + d, k + d + s⟩ := by
    rw [shift, Nat.add_right_comm]
  have hopening (o : Opening) : shift d (if o.selfClosing then single k else opens k) =
      if o.selfClosing then single (k + d) else opens (k + d) := by
    split <;> rfl
  refine Option.ext fun ⟨mark, stop, rest⟩ => ?_
  simp only [Option.map_eq_some_iff, Prod.exists, Prod.mk.injEq]
  constructor
  · intro h
    rcases read?_eq_some_iff.1 h with ⟨ht, rfl, rfl⟩ | ⟨o, ho, hname, rfl, rfl⟩
    · exact ⟨_, _, _, read?_eq_some_iff.2 (.inl ⟨ht, rfl, rfl⟩), hcloses _,
        Nat.add_right_comm _ _ _, rfl⟩
    · exact ⟨_, _, _, read?_eq_some_iff.2 (.inr ⟨o, ho, hname, rfl, rfl⟩), hopening o,
        Nat.add_right_comm _ _ _, rfl⟩
  · rintro ⟨_, _, _, h, rfl, rfl, rfl⟩
    rcases read?_eq_some_iff.1 h with ⟨ht, rfl, rfl⟩ | ⟨o, ho, hname, rfl, rfl⟩
    · rw [hcloses, Nat.add_right_comm k _ d]
      exact read?_eq_some_iff.2 (.inl ⟨ht, rfl, rfl⟩)
    · rw [hopening, Nat.add_right_comm k _ d]
      exact read?_eq_some_iff.2 (.inr ⟨o, ho, hname, rfl, rfl⟩)

/-- The marks of a text that stands `d` bytes further on. -/
theorem list_add (name : Text) (k d : Nat) (t : Text) :
    list name (k + d) t = (list name k t).map (shift d) := by
  fun_induction list name k t with
  | case1 => rw [list_nil, List.map_nil]
  | case2 k c r mark stop rest hr ih =>
    have hr' := read?_add name k d (c :: r)
    rw [hr] at hr'
    rw [list_of_read hr', List.map_cons, ih]
  | case3 k c r hr ih =>
    have hr' := read?_add name k d (c :: r)
    rw [hr] at hr'
    rw [list_of_not_read hr', ← ih, Nat.add_right_comm]

/-- No mark starts in front of the text it was met in. -/
theorem le_start_of_mem_list {name t : Text} {k : Nat} {mark : Mark} (h : mark ∈ list name k t) :
    k ≤ mark.start := by
  obtain ⟨earlier, later, hl⟩ := List.append_of_mem h
  obtain ⟨before, u, stop, rest, -, hu, -⟩ := list_eq_append_cons hl
  rw [(start_eq_of_read hu).1]
  exact Nat.le_add_right _ _

/-- Marks start one behind the other. -/
theorem pairwise_start_list (name : Text) (k : Nat) (t : Text) :
    (list name k t).Pairwise fun m m' => m.start < m'.start := by
  fun_induction list name k t with
  | case1 => exact List.Pairwise.nil
  | case2 k c r m stop rest hr ih =>
    obtain ⟨hstart, hlt⟩ := start_eq_of_read hr
    refine List.pairwise_cons.2 ⟨fun m' hm' => ?_, ih⟩
    rw [hstart]
    exact hlt.trans_le (le_start_of_mem_list hm')
  | case3 k c r hr ih => exact ih

/-- A mark starts with the text if and only if one is read there. -/
theorem exists_start_iff {name r : Text} {c : Char} {k : Nat} :
    (∃ mark ∈ list name k (c :: r), mark.start = k) ↔
      (read? name k (c :: r)).isSome = true := by
  cases hr : read? name k (c :: r) with
  | some p =>
    obtain ⟨mark, stop, rest⟩ := p
    rw [list_of_read hr]
    exact iff_of_true ⟨mark, List.mem_cons_self, (start_eq_of_read hr).1⟩ rfl
  | none =>
    rw [list_of_not_read hr]
    refine iff_of_false ?_ (by simp)
    rintro ⟨mark, hmem, hstart⟩
    have hle := le_start_of_mem_list hmem
    have hpos := c.utf8Size_pos
    omega

/-! ## Walking up to a cut -/

/-- A walk over the marks of a text tries to read one in front of `s`. -/
inductive Visits (name s : Text) : Text → Prop
  /-- It does so where it starts. -/
  | here : Visits name s s
  /-- It goes on behind a mark that it has read. -/
  | mark {t rest : Text} {m : Mark} {stop : Nat} (hread : read? name 0 t = some (m, stop, rest))
      (hrest : Visits name s rest) : Visits name s t
  /-- It goes on behind a character at which no mark stands. -/
  | char {c : Char} {r : Text} (hread : read? name 0 (c :: r) = none)
      (hrest : Visits name s r) : Visits name s (c :: r)

theorem visits_of_read {name s t rest : Text} {k stop : Nat} {m : Mark}
    (h : read? name k t = some (m, stop, rest)) :
    Visits name s t ↔ s = t ∨ Visits name s rest := by
  have h₀ := read?_add name 0 k t
  rw [Nat.zero_add, h] at h₀
  obtain ⟨⟨m₀, stop₀, rest₀⟩, hread, he⟩ := Option.map_eq_some_iff.1 h₀.symm
  obtain ⟨-, -, rfl⟩ : _ ∧ _ ∧ rest₀ = rest := by simpa only [Prod.mk.injEq] using he
  constructor
  · rintro (_ | ⟨hread', hrest⟩ | ⟨hread', hrest⟩)
    · exact .inl rfl
    · rw [hread, Option.some.injEq, Prod.mk.injEq, Prod.mk.injEq] at hread'
      exact .inr (hread'.2.2 ▸ hrest)
    · rw [hread] at hread'
      exact absurd hread' (by simp)
  · rintro (rfl | hrest)
    · exact .here
    · exact .mark hread hrest

theorem visits_of_not_read {name s r : Text} {k : Nat} {c : Char}
    (h : read? name k (c :: r) = none) :
    Visits name s (c :: r) ↔ s = c :: r ∨ Visits name s r := by
  have h₀ := read?_add name 0 k (c :: r)
  rw [Nat.zero_add, h] at h₀
  have hread := Option.map_eq_none_iff.1 h₀.symm
  constructor
  · rintro (_ | ⟨hread', hrest⟩ | ⟨-, hrest⟩)
    · exact .inl rfl
    · rw [hread] at hread'
      exact absurd hread' (by simp)
    · exact .inr hrest
  · rintro (rfl | hrest)
    · exact .here
    · exact .char hread hrest

/-- A walk over no text stays where it is. -/
theorem visits_nil {name s : Text} (h : Visits name s []) : s = [] := by
  cases h with
  | here => rfl
  | mark hread _ => exact absurd (length_lt_of_read hread) (by simp)

/-- No mark is torn where no text is left. -/
theorem not_torn_nil (name u : Text) : ¬Torn name [] u := by
  rintro ⟨body, hname, -⟩
  exact absurd hname (by simp [Opening.name?])

/-- Where a close marker is met at the cut, no mark in front of it reaches over the
    cut. -/
theorem le_of_read_of_mem_list {name t tail rest : Text} {k stop : Nat} {m : Mark} {span : Span}
    (ht : t ≠ []) (hmem : closes span ∈ list name k (t ++ tail)) (hspan : span.start = k + t.size)
    (h : read? name k (t ++ tail) = some (m, stop, rest)) : tail.length ≤ rest.length := by
  obtain ⟨s, hs, rfl⟩ := append_of_read h
  have htsize : 0 < t.size := by
    obtain ⟨c, t, rfl⟩ := List.exists_cons_of_ne_nil ht
    exact Nat.add_pos_left c.utf8Size_pos _
  rw [list_of_read h, List.mem_cons] at hmem
  rcases hmem with rfl | hmem
  · have := (start_eq_of_read h).1
    rw [start, hspan] at this
    omega
  · have hle := le_start_of_mem_list hmem
    rw [start, hspan] at hle
    -- a mark that reaches over the cut would not end in front of the close marker
    by_contra hlt
    obtain ⟨s', rfl, rfl⟩ | ⟨s', rfl, rfl⟩ := List.append_eq_append_iff.1 hs
    · cases s' with
      | nil => exact hlt (by simp)
      | cons c s' =>
        have := c.utf8Size_pos
        rw [Text.size_append, Text.size_cons] at hle
        omega
    · exact hlt (by simp)

section

variable {name u : Text} {k : Nat} {t : Text} {inner later : List Mark} {span : Span}

/-- A walk that starts at the cut has met nothing in front of it. -/
theorem eq_nil_of_cut (h : list name k t = inner ++ closes span :: later)
    (hspan : span.start = k) : inner = [] := by
  have hsorted := pairwise_start_list name k t
  rw [h, List.pairwise_append] at hsorted
  refine List.eq_nil_iff_forall_not_mem.2 fun m hm => ?_
  have hmem : m ∈ list name k t := by
    rw [h]
    exact List.mem_append_left _ hm
  have hle := le_start_of_mem_list hmem
  have hlt := hsorted.2.2 m hm _ List.mem_cons_self
  rw [start, hspan] at hlt
  omega

/-- Where a mark is torn by the cut, only one of the two walks meets one. -/
theorem list_ne_of_torn (ht : t ≠ [])
    (h : list name k (t ++ '[' :: u) = inner ++ closes span :: later)
    (hspan : span.start = k + t.size) (htorn : Torn name t ('[' :: u)) :
    list name k t ≠ inner := by
  rintro rfl
  obtain ⟨c, r, rfl⟩ := List.exists_cons_of_ne_nil ht
  have hsorted := pairwise_start_list name k (c :: r ++ '[' :: u)
  rw [h, List.pairwise_append, List.pairwise_cons] at hsorted
  have hpos := c.utf8Size_pos
  rw [Text.size_cons] at hspan
  -- marks that agree up to the cut agree on whether one stands at `k`, and the torn one does not
  have hstart : (∃ m ∈ list name k (c :: r ++ '[' :: u), m.start = k) ↔
      ∃ m ∈ list name k (c :: r), m.start = k := by
    rw [h]
    constructor
    · rintro ⟨m, hm, hk⟩
      rcases List.mem_append.1 hm with hm | hm
      · exact ⟨m, hm, hk⟩
      rcases List.mem_cons.1 hm with rfl | hm
      · rw [start, hspan] at hk
        omega
      · have hlt := hsorted.2.1.1 m hm
        rw [start, hspan] at hlt
        omega
    · rintro ⟨m, hm, hk⟩
      exact ⟨m, List.mem_append_left _ hm, hk⟩
  rw [List.cons_append, exists_start_iff, exists_start_iff, ← List.cons_append,
    isSome_read?_of_torn (by simp) htorn] at hstart
  cases hr : (read? name k (c :: r)).isSome <;> simp [hr] at hstart

/-- A walk meets the same marks in front of a cut at which a close marker is met, if
    and only if the cut tears none. -/
theorem list_eq_iff_of_cut (hname : '[' ∉ name)
    (h : list name k (t ++ '[' :: u) = inner ++ closes span :: later)
    (hspan : span.start = k + t.size) :
    list name k t = inner ↔ ∀ s, Visits name s t → ¬Torn name s ('[' :: u) := by
  -- by strong induction, since a walk that meets a mark goes on behind all of it
  induction hn : t.length using Nat.strong_induction_on generalizing k t inner with
  | _ n ih =>
    subst hn
    cases t with
    | nil =>
      rw [eq_nil_of_cut h hspan, list_nil]
      exact iff_of_true rfl fun s hs => visits_nil hs ▸ not_torn_nil name _
    | cons c r =>
      by_cases htorn : Torn name (c :: r) ('[' :: u)
      · exact iff_of_false (list_ne_of_torn (by simp) h hspan htorn) fun hall => hall _ .here htorn
      have hpos := c.utf8Size_pos
      have hmem : closes span ∈ list name k (c :: r ++ '[' :: u) := by
        rw [h]
        exact List.mem_append_right _ List.mem_cons_self
      have hread := read?_append_of_not_torn hname (by simp) htorn fun m stop rest hr =>
        le_of_read_of_mem_list (by simp) hmem hspan hr
      rw [Text.size_cons] at hspan
      cases hr : read? name k (c :: r) with
      | some p =>
        -- both walks meet the same mark, and go on behind it
        obtain ⟨m, stop, rest⟩ := p
        rw [hr] at hread
        obtain ⟨s, hs, rfl⟩ := append_of_read hr
        have hsize := congrArg Text.size hs
        rw [Text.size_cons, Text.size_append] at hsize
        rw [list_of_read hread] at h
        cases inner with
        | nil =>
          have hstart := (start_eq_of_read hr).1
          rw [(List.cons.inj h).1, start, hspan] at hstart
          omega
        | cons m' inner =>
          obtain ⟨rfl, hrest⟩ := List.cons.inj h
          simp only [list_of_read hr, List.cons.injEq, true_and, visits_of_read hr,
            forall_eq_or_imp, htorn, not_false_eq_true]
          exact ih _ (length_lt_of_read hr) hrest (by omega) rfl
      | none =>
        rw [hr] at hread
        rw [List.cons_append] at hread h
        rw [list_of_not_read hread] at h
        simp only [list_of_not_read hr, visits_of_not_read hr, forall_eq_or_imp, htorn,
          not_false_eq_true, true_and]
        exact ih _ (by simp) h (by omega) rfl

end

/-! ## What a search passes -/

/-- The marks that a search passes before it comes to its end. -/
def passed (pending : Nat) : List Mark → List Mark
  | [] => []
  | opens start :: marks => opens start :: passed (pending + 1) marks
  | single start :: marks => single start :: passed pending marks
  | closes span :: marks =>
    match pending with
    | 0 => []
    | n + 1 => closes span :: passed n marks

/-- Marks that leave no tag open are passed. -/
theorem passed_append {pending : Nat} {inner later : List Mark} {span : Span}
    (h : openBehind pending inner = some 0) :
    passed pending (inner ++ closes span :: later) = inner := by
  induction inner generalizing pending with
  | nil =>
    obtain rfl := Option.some.inj h
    rfl
  | cons m inner ih =>
    cases m with
    | opens s => exact congrArg (opens s :: ·) (ih h)
    | single s => exact congrArg (single s :: ·) (ih h)
    | closes sp =>
      cases pending with
      | zero => exact absurd h (by simp [openBehind])
      | succ n => exact congrArg (closes sp :: ·) (ih h)

theorem openBehind_map_shift (d pending : Nat) (marks : List Mark) :
    openBehind pending (marks.map (shift d)) = openBehind pending marks := by
  induction marks generalizing pending with
  | nil => rfl
  | cons m marks ih =>
    cases m with
    | opens s => exact ih (pending + 1)
    | single s => exact ih pending
    | closes sp =>
      cases pending with
      | zero => rfl
      | succ n => exact ih n

/-- Where marks leave no tag open, each tag that was open in front of them or is
    opened by them is closed by one of them. -/
theorem exists_pair_of_opens {pending : List Nat} {marks : List Mark}
    (h : openBehind pending.length marks = some 0) {s : Nat} (hs : s ∈ pending ∨ opens s ∈ marks) :
    ∃ span, (s, some span) ∈ pairs pending marks := by
  induction marks generalizing pending with
  | nil =>
    rw [openBehind, Option.some.injEq, List.length_eq_zero_iff] at h
    simp [h] at hs
  | cons m marks ih =>
    cases m with
    | opens s' =>
      have h' : openBehind (s' :: pending).length marks = some 0 := h
      refine ih h' ?_
      rw [List.mem_cons, opens.injEq] at hs
      rw [List.mem_cons, or_right_comm, or_comm]
      tauto
    | single s' =>
      obtain ⟨span, hspan⟩ := ih h (by simpa using hs)
      exact ⟨span, List.mem_cons_of_mem _ hspan⟩
    | closes sp =>
      cases pending with
      | nil => exact absurd h (by simp [openBehind])
      | cons s' pending =>
        rw [List.mem_cons, List.mem_cons, or_assoc] at hs
        rcases hs with rfl | hs
        · exact ⟨sp, List.mem_cons_self⟩
        · have h' : openBehind pending.length marks = some 0 := h
          obtain ⟨span, hspan⟩ := ih h' (by simpa using hs)
          exact ⟨span, List.mem_cons_of_mem _ hspan⟩

/-- Where marks never close a tag that is not open, each close marker closes one. -/
theorem exists_pair_of_closes {pending : List Nat} {marks : List Mark} {e : Nat}
    (h : openBehind pending.length marks = some e) {span : Span} (hs : closes span ∈ marks) :
    ∃ s, (s, some span) ∈ pairs pending marks := by
  induction marks generalizing pending with
  | nil => exact absurd hs List.not_mem_nil
  | cons m marks ih =>
    cases m with
    | opens s' =>
      have h' : openBehind (s' :: pending).length marks = some e := h
      exact ih h' (by simpa using hs)
    | single s' =>
      obtain ⟨s, hpair⟩ := ih h (by simpa using hs)
      exact ⟨s, List.mem_cons_of_mem _ hpair⟩
    | closes sp =>
      cases pending with
      | nil => exact absurd h (by simp [openBehind])
      | cons s' pending =>
        rw [List.mem_cons, closes.injEq] at hs
        rcases hs with rfl | hs
        · exact ⟨s', List.mem_cons_self⟩
        · have h' : openBehind pending.length marks = some e := h
          obtain ⟨s, hpair⟩ := ih h' hs
          exact ⟨s, List.mem_cons_of_mem _ hpair⟩

end Mark

/-! ## The content of a tag -/

/-- The nesting in the content of a tag is balanced, where `after` is the text behind
    its opening tag: read as a text of its own, the content holds the marks that the
    search for the close marker has passed, every tag of the name in it that can be
    paired is paired, and so is every close marker. -/
structure Tag.BalancedIn (tag : Tag) (content after : Text) : Prop where
  met : (Mark.list tag.name 0 content).map (Mark.shift tag.openEnd) =
    Mark.passed 0 (Mark.list tag.name tag.openEnd after)
  paired : ∀ start, .opens start ∈ Mark.list tag.name 0 content →
    ∃ span, (start, some span) ∈ closePairs tag.name content
  used : ∀ span, .closes span ∈ Mark.list tag.name 0 content →
    ∃ start, (start, some span) ∈ closePairs tag.name content

/-- The nesting is balanced if the content holds the marks that the search has passed. -/
theorem Tag.balancedIn_iff_met {tag : Tag} {content after : Text} {inner later : List Mark}
    {span : Span} (h : Mark.list tag.name tag.openEnd after = inner ++ .closes span :: later)
    (hopen : Mark.openBehind 0 inner = some 0) :
    tag.BalancedIn content after ↔ Mark.list tag.name tag.openEnd content = inner := by
  have hpassed : Mark.passed 0 (Mark.list tag.name tag.openEnd after) = inner := by
    rw [h, Mark.passed_append hopen]
  have hshift : (Mark.list tag.name 0 content).map (Mark.shift tag.openEnd) =
      Mark.list tag.name tag.openEnd content := by
    rw [← Mark.list_add, Nat.zero_add]
  constructor
  · intro hbalanced
    rw [← hshift, hbalanced.met, hpassed]
  · intro hmet
    rw [← hmet, ← hshift, Mark.openBehind_map_shift] at hopen
    have hopen' : Mark.openBehind ([] : List Nat).length (Mark.list tag.name 0 content) = some 0 :=
      hopen
    refine ⟨by rw [hshift, hmet, hpassed], fun start hs => ?_, fun span hs => ?_⟩
    · exact Mark.exists_pair_of_opens hopen' (.inr hs)
    · exact Mark.exists_pair_of_closes hopen' hs

/-- A tag that a scanner answers with is located by the direct search. -/
theorem Scanner.exists_located_of_reply {t : Text} {queries : List Query} {tag : Tag}
    (h : .tag (some tag) ∈ ((queries.mapM Query.ask).run (ofText t)).1) :
    ∃ (known : Text → Bool) (u : Text) (l : Located u), t.from? tag.start = some u ∧
      Shortcode.locate? Closing.direct known tag.start u = some l ∧ l.tag = tag := by
  rw [replies_eq_direct, List.mem_map] at h
  obtain ⟨query, -, hquery⟩ := h
  cases query with
  | locate known start =>
    obtain ⟨u, hu, hfound⟩ := Option.bind_eq_some_iff.1 (Reply.tag.inj hquery)
    obtain ⟨l, hl, rfl⟩ := Option.map_eq_some_iff.1 hfound
    obtain ⟨-, -, rfl, -⟩ := locate?_direct_eq_some_iff.1 hl
    exact ⟨known, u, l, hu, hl, rfl⟩
  | escaped known start => exact absurd hquery (by simp [Query.direct])

/-- The nesting in the content of a tag that a scanner finds is balanced if and only
    if no mark that is tried in the content is torn by its end. -/
theorem content_balanced_iff {t : Text} {queries : List Scanner.Query} {tag : Tag}
    {content : Text}
    (h : .tag (some tag) ∈ ((queries.mapM Scanner.Query.ask).run (Scanner.ofText t)).1)
    (hcontent : tag.content = some content) :
    ∃ behind, t.from? tag.openEnd = some (content ++ behind) ∧
      (tag.BalancedIn content (content ++ behind) ↔
        ∀ s, Mark.Visits tag.name s content → ¬Mark.Torn tag.name s behind) := by
  obtain ⟨known, u, l, hu, hl, rfl⟩ := Scanner.exists_located_of_reply h
  obtain ⟨after, hr, -, -, happend, hclose⟩ := locate?_direct_eq_some_iff.1 hl
  -- the content stands behind the opening tag, in front of the close marker
  have hafter : after = content ++ (closeMarker l.tag.name ++ l.rest) := by
    have hsource := (Opening.source_append_of_read hr).trans happend
    rw [Tag.source_append, hcontent] at hsource
    exact List.append_cancel_left hsource
  have hopenEnd : t.from? l.tag.openEnd = some after :=
    Text.from?_of_append (hu.trans (congrArg some (Opening.source_append_of_read hr).symm))
  -- the search has come to the close marker past marks that balance
  rw [Tag.close?, hcontent, Option.map_some, closeOf] at hclose
  split at hclose
  · exact absurd hclose (by simp)
  obtain ⟨inner, later, hlist, hopen⟩ := Mark.close?_eq_some_iff.1 hclose.symm
  rw [hafter] at hopenEnd hlist
  refine ⟨_, hopenEnd, ?_⟩
  rw [Tag.balancedIn_iff_met hlist hopen]
  obtain ⟨-, hname, -⟩ := Opening.read?_eq_some_iff.1 hr
  exact Mark.list_eq_iff_of_cut (Opening.bracket_not_mem_of_isTagName hname) hlist rfl

/-- The nesting in the content of a tag with a tag of its own name in it. -/
theorem content_balanced_nested :
    let t : Text := "[n][n x=\"]\"]a[/n][/n]".toList
    let queries : List Scanner.Query := [.locate (· == ['n']) 0]
    let tag : Tag := ⟨0, ⟨['n'], []⟩, some "[n x=\"]\"]a[/n]".toList⟩
    let content : Text := "[n x=\"]\"]a[/n]".toList
    .tag (some tag) ∈ ((queries.mapM Scanner.Query.ask).run (Scanner.ofText t)).1 ∧
      tag.content = some content ∧
      ∃ behind, t.from? tag.openEnd = some (content ++ behind) ∧
        (tag.BalancedIn content (content ++ behind) ↔
          ∀ s, Mark.Visits tag.name s content → ¬Mark.Torn tag.name s behind) := by
  intro t queries tag content
  have h : .tag (some tag) ∈ ((queries.mapM Scanner.Query.ask).run (Scanner.ofText t)).1 := by
    rw [Scanner.replies_eq_direct]
    decide +kernel
  exact ⟨h, rfl, content_balanced_iff h rfl⟩

/-- The nesting is not balanced in every content: where a quote that is left open in a
    tag has a partner right in front of the close marker, the search meets the tag, but
    the content holds only its close marker. -/
theorem content_not_balanced_quote :
    let t : Text := "[n][n x=\"][/n]\"[/n]".toList
    let queries : List Scanner.Query := [.locate (· == ['n']) 0]
    let tag : Tag := ⟨0, ⟨['n'], []⟩, some "[n x=\"][/n]\"".toList⟩
    .tag (some tag) ∈ ((queries.mapM Scanner.Query.ask).run (Scanner.ofText t)).1 ∧
      ¬∃ content after, tag.content = some content ∧ t.from? tag.openEnd = some after ∧
        tag.BalancedIn content after := by
  intro t queries tag
  refine ⟨?_, ?_⟩
  · rw [Scanner.replies_eq_direct]
    decide +kernel
  · rintro ⟨content, after, hcontent, hafter, hbalanced⟩
    obtain rfl := Option.some.inj hcontent
    -- the content holds a close marker, and no opening tag that it could close
    have hmarker : .closes ⟨7, 11⟩ ∈ Mark.list ['n'] 0 "[n x=\"][/n]\"".toList := by decide +kernel
    have hpairs : closePairs ['n'] "[n x=\"][/n]\"".toList = [] := by decide +kernel
    obtain ⟨start, hpair⟩ := hbalanced.used _ hmarker
    rw [show tag.name = ['n'] from rfl, hpairs] at hpair
    exact List.not_mem_nil hpair

end Shortcode
