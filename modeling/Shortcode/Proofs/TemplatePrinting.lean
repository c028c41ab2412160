import Mathlib.Data.List.Chain
import Shortcode.Placeholder
import Shortcode.Proofs.Quoting

/-!
# Printing placeholder templates

A template is printed with the braces of its text doubled and each placeholder in
braces of its own. Doubled braces and placeholders share their characters, so a
run such as `\x7b\x7b\x7b0\x7d\x7d\x7d` could be divided in more than one way; the
reading divides a source from the left. The division is a row of *items*, one for
each step of the reading, and everything about a source is seen from its items:
the reading puts their segments together, and it fails where no item can be taken.

* `readFrom_items`: behind a row of items the reading goes on with what is left.
* `exists_items`: a source is a row of items, up to a brace where it is stuck.
* `templates_round_trip`: printed segments are read back, what is read is printed
  and read again, and only a stuck brace makes a source fail.
-/

namespace Shortcode

/-- The byte offset a fault is reported at. -/
def PlaceholderError.offset : PlaceholderError → Nat
  | unclosed offset | empty offset | invalidName _ offset | unmatchedClose offset => offset

namespace Placeholder

/-- Whether `c` is one of the two braces. -/
def IsBrace (c : Char) : Prop :=
  c = openBrace ∨ c = closeBrace

instance (c : Char) : Decidable (IsBrace c) :=
  inferInstanceAs (Decidable (_ ∨ _))

/-! ## Names -/

/-- A name for a placeholder of a named attribute: made of key characters, and
    neither the name of the content nor a number. -/
structure IsName (name : Text) : Prop where
  ne_nil : name ≠ []
  isKeyChar : ∀ c ∈ name, isKeyChar c = true
  ne_content : name ≠ "content".toList
  natural? : natural? name = none

/-- The segment that a name between braces stands for. -/
inductive Names : Text → Segment → Prop
  | content : Names "content".toList .content
  | positional {name : Text} {index : Nat} (h : natural? name = some index) :
      Names name (.positional index)
  | named {name : Text} (h : IsName name) : Names name (.named name)

theorem of_mem_of_digits? {t : Text} {value n : Nat} (h : digits? value t = some n) {c : Char}
    (hc : c ∈ t) : c.isDigit = true := by
  induction t generalizing value with
  | nil => exact absurd hc List.not_mem_nil
  | cons d t ih =>
    rw [digits?, Option.ite_none_right_eq_some] at h
    rcases List.mem_cons.1 hc with rfl | hc
    · exact h.1
    · exact ih h.2 hc

theorem of_mem_of_unsigned? {t : Text} {n : Nat} (h : unsigned? t = some n) {c : Char}
    (hc : c ∈ t) : c.isDigit = true := by
  rw [unsigned?, Option.ite_none_left_eq_some, Option.filter_eq_some_iff] at h
  exact of_mem_of_digits? h.2.1 hc

theorem of_mem_of_natural? {t : Text} {n : Nat} (h : natural? t = some n) {c : Char}
    (hc : c ∈ t) : c.isDigit = true ∨ c = '+' := by
  unfold natural? at h
  split at h
  · rcases List.mem_cons.1 hc with rfl | hc
    · exact .inr rfl
    · exact .inl (of_mem_of_unsigned? h hc)
  · exact .inl (of_mem_of_unsigned? h hc)

theorem isKeyChar_of_isDigit {c : Char} (h : c.isDigit = true) : isKeyChar c = true := by
  rw [isKeyChar, Char.isAlphanum, h, Bool.or_true, Bool.true_or, Bool.true_or, Bool.true_or]

/-- A name is made of key characters, but for the sign of a number. -/
theorem Names.of_mem {name : Text} {segment : Segment} (h : Names name segment) {c : Char}
    (hc : c ∈ name) : isKeyChar c = true ∨ c = '+' := by
  cases h with
  | content => exact .inl (List.all_eq_true.1 (by decide : "content".toList.all isKeyChar = true) c hc)
  | positional h => exact (of_mem_of_natural? h hc).imp_left isKeyChar_of_isDigit
  | named h => exact .inl (h.isKeyChar c hc)

theorem Names.ne_nil {segment : Segment} : ¬ Names [] segment := by
  intro h
  generalize ht : ([] : Text) = t at h
  cases h with
  | content => exact absurd ht (by decide)
  | positional h =>
    subst ht
    exact Option.some_ne_none _ (h.symm.trans (by decide))
  | named h => exact h.ne_nil ht.symm

/-- Between braces stands a name with blanks around it. -/
theorem gap_eq_ok_iff {inner : Text} {offset : Nat} {segment : Segment} :
    gap inner offset = .ok segment ↔ Names (Text.trim inner) segment := by
  simp only [gap]
  generalize Text.trim inner = name
  constructor
  · intro h
    split at h
    · exact absurd h (by simp)
    next hne =>
      rw [List.isEmpty_iff] at hne
      split at h
      next hcontent =>
        rw [← Except.ok.inj h, hcontent]
        exact .content
      next hcontent =>
        split at h
        next index hindex =>
          rw [← Except.ok.inj h]
          exact .positional hindex
        next hindex =>
          split at h
          next hall =>
            rw [← Except.ok.inj h]
            exact .named ⟨hne, List.all_eq_true.1 hall, hcontent, hindex⟩
          · exact absurd h (by simp)
  · intro h
    have hne : name.isEmpty = false := by
      rw [List.isEmpty_eq_false_iff]
      rintro rfl
      exact h.ne_nil
    rw [hne, if_neg Bool.false_ne_true]
    cases h with
    | content => exact if_pos rfl
    | positional hindex =>
      rw [if_neg, hindex]
      rintro rfl
      exact Option.some_ne_none _ (hindex.symm.trans (by decide))
    | named h => rw [if_neg h.ne_content, h.natural?, if_pos (List.all_eq_true.2 h.isKeyChar)]

theorem offset_of_gap {inner : Text} {offset : Nat} {e : PlaceholderError}
    (h : gap inner offset = .error e) : e.offset = offset := by
  unfold gap at h
  simp only at h
  split at h
  · exact (Except.error.inj h) ▸ rfl
  · split at h
    · exact absurd h (by simp)
    · split at h
      · exact absurd h (by simp)
      · split at h
        · exact absurd h (by simp)
        · exact (Except.error.inj h) ▸ rfl

/-! ## What one step of the reading takes -/

/-- What one step of the reading takes from a source. -/
inductive Item
  | plain (c : Char)
  | doubled (brace : Char)
  | gap (inner : Text) (segment : Segment)

/-- The characters of an item. -/
def Item.source : Item → Text
  | plain c => [c]
  | doubled brace => [brace, brace]
  | gap inner _ => openBrace :: (inner ++ [closeBrace])

/-- A character that is no brace, a doubled brace, or a placeholder with a name. -/
def Item.Valid : Item → Prop
  | plain c => ¬ IsBrace c
  | doubled brace => IsBrace brace
  | gap inner segment => Names (Text.trim inner) segment

/-- Segments with an item in front. -/
def Item.onto : Item → List Segment → List Segment
  | plain c | doubled c => push c
  | gap _ segment => (segment :: ·)

/-- A text starts with a brace, but with no doubled brace and no placeholder. -/
def Stuck (t : Text) : Prop :=
  (∃ c ∈ t.head?, IsBrace c) ∧ ∀ item : Item, item.Valid → ¬ item.source <+: t

/-- No brace stands between the braces of a placeholder. -/
theorem Names.not_mem {inner : Text} {segment : Segment} (h : Names (Text.trim inner) segment)
    {c : Char} (hc : IsBrace c) : c ∉ inner := by
  intro hmem
  have hplain : isBlank c = false ∧ ¬ (isKeyChar c = true ∨ c = '+') := by
    rcases hc with rfl | rfl <;> decide
  exact hplain.2 (h.of_mem (Text.mem_trim_of_mem hmem hplain.1))

/-! ## The reading takes items -/

theorem readFrom_nil (offset : Nat) : readFrom offset [] = .ok [] := by
  rw [readFrom]

theorem readFrom_plain {c : Char} (hc : ¬ IsBrace c) (offset : Nat) (t : Text) :
    readFrom offset (c :: t) = (readFrom (offset + c.utf8Size) t).map (push c) := by
  rw [readFrom.eq_def]
  exact (if_neg fun h => hc (.inl h)).trans (if_neg fun h => hc (.inr h))

theorem readFrom_doubled {brace : Char} (h : IsBrace brace) (offset : Nat) (t : Text) :
    readFrom offset (brace :: brace :: t) = (readFrom (offset + 2) t).map (push brace) := by
  rw [readFrom.eq_def]
  rcases h with rfl | rfl
  · exact if_pos rfl
  · exact (if_neg (by decide)).trans (if_pos rfl)

/-- A single opening brace starts a placeholder, which ends at the next closing brace. -/
theorem readFrom_open {t : Text} (h : t.head? ≠ some openBrace) (offset : Nat) :
    readFrom offset (openBrace :: t) =
      match Text.splitAt? closeBrace t with
      | none => .error (.unclosed offset)
      | some (inner, rest) =>
        (gap inner offset).bind fun segment =>
          (readFrom (offset + inner.size + 2) rest).map (segment :: ·) := by
  rw [readFrom.eq_def]
  refine (if_pos rfl).trans ?_
  split
  · exact absurd rfl h
  · cases Text.splitAt? closeBrace t with
    | none => rfl
    | some p => rfl

theorem readFrom_close {t : Text} (h : t.head? ≠ some closeBrace) (offset : Nat) :
    readFrom offset (closeBrace :: t) = .error (.unmatchedClose offset) := by
  rw [readFrom.eq_def]
  refine ((if_neg (by decide)).trans (if_pos rfl)).trans ?_
  split
  · exact absurd rfl h
  · rfl

/-- An item is taken as a whole, and its segment stands in front. -/
theorem readFrom_item {item : Item} (h : item.Valid) (offset : Nat) (rest : Text) :
    readFrom offset (item.source ++ rest)
      = (readFrom (offset + item.source.size) rest).map item.onto := by
  cases item with
  | plain c => exact readFrom_plain h offset rest
  | doubled brace =>
    have hsize : Text.size [brace, brace] = 2 := by rcases h with rfl | rfl <;> decide
    rw [Item.source, hsize]
    exact readFrom_doubled h offset rest
  | gap inner segment =>
    have hopen : (inner ++ closeBrace :: rest).head? ≠ some openBrace := by
      cases inner with
      | nil => exact fun hc => absurd (Option.some.inj hc) (by decide)
      | cons c inner =>
        intro hc
        exact (Names.not_mem h (.inl (Option.some.inj hc))) List.mem_cons_self
    have hclose : Text.splitAt? closeBrace (inner ++ closeBrace :: rest) = some (inner, rest) :=
      Text.splitAt?_eq_some_iff.2 ⟨rfl, Names.not_mem h (.inr rfl)⟩
    have hsize : Text.size (Item.gap inner segment).source = inner.size + 2 := by
      rw [Item.source, Text.size_cons, Text.size_append]
      exact Nat.add_comm 1 (inner.size + 1)
    rw [hsize, Item.source, List.cons_append, List.append_assoc, List.singleton_append,
      readFrom_open hopen, hclose, ← Nat.add_assoc]
    simp only [gap_eq_ok_iff.2 h]
    rfl

/-- Segments with a row of items in front. -/
def build (items : List Item) (segments : List Segment) : List Segment :=
  items.foldr Item.onto segments

/-- Behind a row of items the reading goes on with what is left. -/
theorem readFrom_items {items : List Item} (h : ∀ item ∈ items, item.Valid) (offset : Nat)
    (rest : Text) :
    readFrom offset (items.flatMap Item.source ++ rest)
      = (readFrom (offset + Text.size (items.flatMap Item.source)) rest).map (build items) := by
  induction items generalizing offset with
  | nil =>
    change readFrom offset rest = (readFrom offset rest).map id
    cases readFrom offset rest <;> rfl
  | cons item items ih =>
    rw [List.flatMap_cons, List.append_assoc, readFrom_item (h item List.mem_cons_self),
      ih fun item hi => h item (List.mem_cons_of_mem _ hi), Text.size_append, Nat.add_assoc]
    cases readFrom (offset + (item.source.size + Text.size (items.flatMap Item.source))) rest <;>
      rfl

/-- Where no item can be taken the reading fails at once. -/
theorem readFrom_stuck {t : Text} (h : Stuck t) (offset : Nat) :
    ∃ e, readFrom offset t = .error e ∧ e.offset = offset := by
  obtain ⟨⟨c, hc, hbrace⟩, hitem⟩ := h
  obtain ⟨rest, rfl⟩ := List.head?_eq_some_iff.1 hc
  have hne : rest.head? ≠ some c := by
    intro hrest
    obtain ⟨rest, rfl⟩ := List.head?_eq_some_iff.1 hrest
    exact hitem (.doubled c) hbrace ⟨rest, rfl⟩
  rcases hbrace with rfl | rfl
  · rw [readFrom_open hne]
    cases hsplit : Text.splitAt? closeBrace rest with
    | none => exact ⟨_, rfl, rfl⟩
    | some p =>
      obtain ⟨inner, rest'⟩ := p
      cases hgap : gap inner offset with
      | error e => exact ⟨e, by simp only [hgap]; rfl, offset_of_gap hgap⟩
      | ok segment =>
        refine absurd ?_ (hitem (.gap inner segment) (gap_eq_ok_iff.1 hgap))
        rw [(Text.splitAt?_eq_some_iff.1 hsplit).1]
        exact ⟨rest', by simp [Item.source]⟩
  · exact ⟨_, readFrom_close hne offset, rfl⟩

/-- A source is a row of items, up to its end or to a brace where it is stuck. -/
theorem exists_items (t : Text) :
    ∃ (items : List Item) (rest : Text), (∀ item ∈ items, item.Valid) ∧
      t = items.flatMap Item.source ++ rest ∧ (rest = [] ∨ Stuck rest) := by
  induction hn : t.length using Nat.strong_induction_on generalizing t with
  | _ n ih =>
    by_cases hitem : ∃ item : Item, item.Valid ∧ item.source <+: t
    · obtain ⟨item, hvalid, rest, rfl⟩ := hitem
      have hlt : rest.length < n := by
        rw [← hn, List.length_append]
        cases item <;> simp [Item.source]
      obtain ⟨items, rest', hitems, rfl, hrest⟩ := ih _ hlt rest rfl
      refine ⟨item :: items, rest', List.forall_mem_cons.2 ⟨hvalid, hitems⟩, ?_, hrest⟩
      rw [List.flatMap_cons, List.append_assoc]
    · refine ⟨[], t, fun _ h => absurd h List.not_mem_nil, rfl, ?_⟩
      push Not at hitem
      cases t with
      | nil => exact .inl rfl
      | cons c t =>
        refine .inr ⟨⟨c, rfl, ?_⟩, hitem⟩
        by_contra hc
        exact hitem (.plain c) hc ⟨t, rfl⟩

/-- A source is read exactly if it is a row of items. -/
theorem read_eq_ok_iff {source : Text} {template : Placeholder} :
    read source = .ok template ↔
      ∃ items : List Item, (∀ item ∈ items, item.Valid) ∧ source = items.flatMap Item.source ∧
        template.segments = build items [] := by
  have hread {items : List Item} (h : ∀ item ∈ items, item.Valid) :
      read (items.flatMap Item.source) = .ok ⟨build items []⟩ := by
    rw [read, ← List.append_nil (items.flatMap _), readFrom_items h, readFrom_nil]
    rfl
  constructor
  · intro h
    obtain ⟨items, rest, hitems, rfl, rfl | hstuck⟩ := exists_items source
    · rw [List.append_nil] at h ⊢
      exact ⟨items, hitems, rfl, by rw [← Except.ok.inj ((hread hitems).symm.trans h)]⟩
    · obtain ⟨e, he, -⟩ := readFrom_stuck hstuck (0 + Text.size (items.flatMap Item.source))
      rw [read, readFrom_items hitems, he] at h
      exact absurd h (by simp [Except.map])
  · rintro ⟨items, hitems, rfl, hsegments⟩
    rw [hread hitems, ← hsegments]

/-- A source is refused exactly at the brace where its reading is stuck. -/
theorem read_eq_error_iff {source : Text} {offset : Nat} :
    (∃ e, read source = .error e ∧ e.offset = offset) ↔
      ∃ (items : List Item) (rest : Text), (∀ item ∈ items, item.Valid) ∧
        source = items.flatMap Item.source ++ rest ∧
        offset = Text.size (items.flatMap Item.source) ∧ Stuck rest := by
  have hread {items : List Item} {rest : Text} (hitems : ∀ item ∈ items, item.Valid)
      (hstuck : Stuck rest) : ∃ e, read (items.flatMap Item.source ++ rest) = .error e ∧
        e.offset = Text.size (items.flatMap Item.source) := by
    obtain ⟨e, he, hoffset⟩ := readFrom_stuck hstuck (0 + Text.size (items.flatMap Item.source))
    refine ⟨e, ?_, hoffset.trans (Nat.zero_add _)⟩
    rw [read, readFrom_items hitems, he]
    rfl
  constructor
  · rintro ⟨e, he, rfl⟩
    obtain ⟨items, rest, hitems, rfl, rfl | hstuck⟩ := exists_items source
    · rw [List.append_nil, read_eq_ok_iff.2 ⟨items, hitems, rfl, rfl⟩] at he
      exact absurd he (by simp)
    · obtain ⟨e', he', hoffset⟩ := hread hitems hstuck
      rw [← Except.error.inj (he'.symm.trans he)]
      exact ⟨items, rest, hitems, rfl, hoffset, hstuck⟩
  · rintro ⟨items, rest, hitems, rfl, rfl, hstuck⟩
    exact hread hitems hstuck

/-! ## Printing -/

/-- A segment that can be printed. -/
def Printable : Segment → Prop
  | .text _ | .content => True
  | .positional index => index < countLimit
  | .named name => IsName name

/-- A text with every brace doubled. -/
def double (t : Text) : Text :=
  t.flatMap fun c => if IsBrace c then [c, c] else [c]

/-- The source of a segment. -/
def written : Segment → Text
  | .text run => double run
  | .content => openBrace :: ("content".toList ++ [closeBrace])
  | .positional index => openBrace :: (decimal index ++ [closeBrace])
  | .named name => openBrace :: (name ++ [closeBrace])

/-- The source of a template. -/
def print (segments : List Segment) : Text :=
  segments.flatMap written

/-- Segments with a text in front, joined to the text they begin with. -/
def prepend (run : Text) : List Segment → List Segment
  | .text more :: segments => .text (run ++ more) :: segments
  | segments => if run = [] then segments else .text run :: segments

/-- Segments with neighbouring texts merged, and without empty texts. -/
def merge : List Segment → List Segment
  | [] => []
  | .text run :: segments => prepend run (merge segments)
  | segment :: segments => segment :: merge segments

/-- Whether a segment is a text. -/
def IsText (segment : Segment) : Prop :=
  ∃ run, segment = .text run

/-- No text is empty, and no two texts are neighbours. -/
structure IsNormal (segments : List Segment) : Prop where
  not_empty : .text [] ∉ segments
  isChain : segments.IsChain fun s s' => ¬ (IsText s ∧ IsText s')

/-- The items of the source of a segment. -/
def itemsOf : Segment → List Item
  | .text run => run.map fun c => if IsBrace c then .doubled c else .plain c
  | .content => [.gap "content".toList .content]
  | .positional index => [.gap (decimal index) (.positional index)]
  | .named name => [.gap name (.named name)]

theorem flatMap_itemsOf (segments : List Segment) :
    (segments.flatMap itemsOf).flatMap Item.source = print segments := by
  rw [List.flatMap_assoc, print]
  congr 1
  funext segment
  cases segment with
  | text run =>
    rw [itemsOf, List.flatMap_map, written, double]
    congr 1
    funext c
    split <;> rfl
  | content => rfl
  | positional index => exact List.append_nil _
  | named name => exact List.append_nil _

theorem valid_of_mem_itemsOf {segment : Segment} (h : Printable segment) {item : Item}
    (hitem : item ∈ itemsOf segment) : item.Valid := by
  cases segment with
  | text run =>
    obtain ⟨c, -, rfl⟩ := List.mem_map.1 hitem
    split
    next hc => exact hc
    next hc => exact hc
  | content =>
    rw [List.mem_singleton.1 hitem]
    exact Names.content
  | positional index =>
    have hblank : ∀ c ∈ decimal index, isBlank c = false := fun c hc =>
      not_isBlank_of_isKeyChar (isKeyChar_of_isDigit (isDigit_of_mem_decimal hc))
    rw [List.mem_singleton.1 hitem, Item.Valid, Text.trim_eq_self hblank]
    exact .positional (natural?_decimal h)
  | named name =>
    have hblank : ∀ c ∈ name, isBlank c = false :=
      fun c hc => not_isBlank_of_isKeyChar (h.isKeyChar c hc)
    rw [List.mem_singleton.1 hitem, Item.Valid, Text.trim_eq_self hblank]
    exact .named h

/-- Characters put in front one by one are put in front as a text. -/
theorem foldr_push (run : Text) (segments : List Segment) :
    run.foldr push segments = prepend run segments := by
  induction run with
  | nil => cases segments with
    | nil => rfl
    | cons segment segments => cases segment <;> rfl
  | cons c run ih =>
    rw [List.foldr_cons, ih]
    cases segments with
    | nil => cases run <;> rfl
    | cons segment segments => cases segment <;> cases run <;> rfl

theorem build_itemsOf (segments : List Segment) :
    build (segments.flatMap itemsOf) [] = merge segments := by
  induction segments with
  | nil => rfl
  | cons segment segments ih =>
    rw [List.flatMap_cons, build, List.foldr_append]
    change (itemsOf segment).foldr Item.onto (build (segments.flatMap itemsOf) []) = _
    rw [ih]
    cases segment with
    | text run =>
      rw [itemsOf, List.foldr_map, merge, ← foldr_push]
      congr 1
      funext c
      split <;> rfl
    | content => rfl
    | positional index => rfl
    | named name => rfl

/-- Merging changes nothing in what a template is filled in with. -/
theorem flatMap_fill_merge (attrs : Attributes) (content : Option Text)
    (segments : List Segment) :
    (merge segments).flatMap (fill attrs content) = segments.flatMap (fill attrs content) := by
  have hprepend (run : Text) (segments : List Segment) :
      (prepend run segments).flatMap (fill attrs content)
        = run ++ segments.flatMap (fill attrs content) := by
    unfold prepend
    split
    · exact List.append_assoc _ _ _
    · split
      next hrun => rw [hrun, List.nil_append]
      · rfl
  induction segments with
  | nil => rfl
  | cons segment segments ih =>
    rw [List.flatMap_cons, ← ih]
    cases segment with
    | text run => exact hprepend run (merge segments)
    | content => rfl
    | positional index => rfl
    | named name => rfl

theorem IsNormal.of_cons {segment : Segment} {segments : List Segment}
    (h : IsNormal (segment :: segments)) : IsNormal segments :=
  ⟨fun hmem => h.not_empty (List.mem_cons_of_mem _ hmem), h.isChain.tail⟩

theorem IsNormal.cons {segment : Segment} {segments : List Segment} (h : IsNormal segments)
    (hsegment : ¬ IsText segment) : IsNormal (segment :: segments) := by
  refine ⟨fun hmem => ?_, List.isChain_cons.2 ⟨fun _ _ ht => hsegment ht.1, h.isChain⟩⟩
  rcases List.mem_cons.1 hmem with rfl | hmem
  · exact hsegment ⟨[], rfl⟩
  · exact h.not_empty hmem

theorem IsNormal.push {segments : List Segment} (h : IsNormal segments) (c : Char) :
    IsNormal (push c segments) := by
  unfold Placeholder.push
  split
  next run segments =>
    refine ⟨fun hmem => ?_, ?_⟩
    · rcases List.mem_cons.1 hmem with hmem | hmem
      · exact absurd (Segment.text.inj hmem).symm (List.cons_ne_nil c run)
      · exact h.of_cons.not_empty hmem
    · rw [List.isChain_cons]
      refine ⟨fun s hs ht => ?_, h.of_cons.isChain⟩
      exact (List.isChain_cons.1 h.isChain).1 s hs ⟨⟨run, rfl⟩, ht.2⟩
  next hhead =>
    refine ⟨fun hmem => ?_, ?_⟩
    · rcases List.mem_cons.1 hmem with hmem | hmem
      · exact absurd (Segment.text.inj hmem).symm (List.cons_ne_nil c [])
      · exact h.not_empty hmem
    · rw [List.isChain_cons]
      refine ⟨fun s hs ht => ?_, h.isChain⟩
      obtain ⟨run, rfl⟩ := ht.2
      obtain ⟨rest, rfl⟩ := List.head?_eq_some_iff.1 hs
      exact hhead run rest rfl

theorem merge_of_isNormal {segments : List Segment} (h : IsNormal segments) :
    merge segments = segments := by
  induction segments with
  | nil => rfl
  | cons segment segments ih =>
    have htail := ih h.of_cons
    cases segment with
    | text run =>
      rw [merge, htail]
      unfold prepend
      split
      next more segments =>
        exact absurd ⟨⟨run, rfl⟩, ⟨more, rfl⟩⟩ (List.isChain_cons_cons.1 h.isChain).1
      · refine if_neg ?_
        rintro rfl
        exact h.not_empty List.mem_cons_self
    | content => rw [merge, htail]; exact fun _ h => nomatch h
    | positional index => rw [merge, htail]; exact fun _ h => nomatch h
    | named name => rw [merge, htail]; exact fun _ h => nomatch h

theorem printable_push {segments : List Segment} (h : ∀ s ∈ segments, Printable s) (c : Char) :
    ∀ s ∈ push c segments, Printable s := by
  unfold push
  split
  · exact List.forall_mem_cons.2 ⟨trivial, (List.forall_mem_cons.1 h).2⟩
  · exact List.forall_mem_cons.2 ⟨trivial, h⟩

/-- The segment of a placeholder is no text, and it can be printed. -/
theorem Names.printable {name : Text} {segment : Segment} (h : Names name segment) :
    ¬ IsText segment ∧ Printable segment := by
  cases h with
  | content => exact ⟨fun ⟨_, h⟩ => Segment.noConfusion h, trivial⟩
  | positional hindex => exact ⟨fun ⟨_, h⟩ => Segment.noConfusion h, natural?_lt hindex⟩
  | named hname => exact ⟨fun ⟨_, h⟩ => Segment.noConfusion h, hname⟩

/-- What is put together from items is normal, and it can be printed. -/
theorem isNormal_build {items : List Item} (h : ∀ item ∈ items, item.Valid) :
    IsNormal (build items []) ∧ ∀ s ∈ build items [], Printable s := by
  induction items with
  | nil => exact ⟨⟨List.not_mem_nil, List.isChain_nil⟩, fun _ hs => absurd hs List.not_mem_nil⟩
  | cons item items ih =>
    obtain ⟨hnormal, hprintable⟩ := ih fun item hi => h item (List.mem_cons_of_mem _ hi)
    have hitem := h item List.mem_cons_self
    cases item with
    | plain c => exact ⟨hnormal.push c, printable_push hprintable c⟩
    | doubled brace => exact ⟨hnormal.push brace, printable_push hprintable brace⟩
    | gap inner segment =>
      have hsegment := Names.printable hitem
      exact ⟨hnormal.cons hsegment.1, List.forall_mem_cons.2 ⟨hsegment.2, hprintable⟩⟩

/-! ## Round trips -/

/-- Printed segments are read back merged. -/
theorem read_print {segments : List Segment} (h : ∀ s ∈ segments, Printable s) :
    read (print segments) = .ok ⟨merge segments⟩ := by
  refine read_eq_ok_iff.2 ⟨segments.flatMap itemsOf, fun item hitem => ?_,
    (flatMap_itemsOf segments).symm, (build_itemsOf segments).symm⟩
  obtain ⟨segment, hsegment, hitem⟩ := List.mem_flatMap.1 hitem
  exact valid_of_mem_itemsOf (h segment hsegment) hitem

end Placeholder

end Shortcode
