import Mathlib.Data.List.Basic
import Shortcode.Markup.Scanner
import Shortcode.Proofs.Cutting

/-!
# What a scanner remembers does not show

A scanner keeps the pairing of every name that it has been asked about. The
tables it keeps are those of its text, and every entry of such a table is what a
search behind the opening tag finds. So a scanner answers every question as if it
remembered nothing, in whatever order the questions are put.

* `Scanner.Remembers`: the invariant of a scanner that has been asked something.
* `Scanner.Answers`: a computation that keeps the invariant and has the same
  answer in every state that satisfies it.
* `scanner_answers_as_direct`: a scanner answers a row of questions as the direct
  search does.
* `pieces_eq_direct`: so a document has the pieces that the direct search cuts.
-/

namespace Shortcode

namespace Scanner

/-- A scanner of the text `t` that remembers pairings of `t` only. -/
structure Remembers (scanner : Scanner) (t : Text) : Prop where
  text : scanner.text = t
  tables : ∀ name table, (name, table) ∈ scanner.tables →
    table = Std.HashMap.ofList (closePairs name t)

theorem remembers_ofText (t : Text) : (ofText t).Remembers t :=
  ⟨rfl, fun _ _ h => absurd h List.not_mem_nil⟩

/-- A computation that gives `a` in every state of a scanner of `t`, and leaves
    such a state. -/
def Answers {α : Type} (t : Text) (m : StateM Scanner α) (a : α) : Prop :=
  ∀ scanner : Scanner, scanner.Remembers t →
    ∃ scanner' : Scanner, m.run scanner = (a, scanner') ∧ scanner'.Remembers t

section

variable {α β : Type} {t : Text}

theorem Answers.pure (a : α) : Answers t (Pure.pure a) a :=
  fun scanner h => ⟨scanner, rfl, h⟩

theorem Answers.bind {m : StateM Scanner α} {a : α} {f : α → StateM Scanner β} {b : β}
    (hm : Answers t m a) (hf : Answers t (f a) b) : Answers t (m >>= f) b := by
  intro scanner h
  obtain ⟨scanner₁, h₁, hr₁⟩ := hm scanner h
  obtain ⟨scanner₂, h₂, hr₂⟩ := hf scanner₁ hr₁
  refine ⟨scanner₂, ?_, hr₂⟩
  rw [StateT.run_bind, h₁]
  exact h₂

theorem Answers.map {m : StateM Scanner α} {a : α} (f : α → β) (hm : Answers t m a) :
    Answers t (f <$> m) (f a) := by
  rw [map_eq_pure_bind]
  exact hm.bind (Answers.pure _)

/-- A computation that looks at the state first. -/
theorem Answers.of_get {f : Scanner → StateM Scanner α} {a : α}
    (h : ∀ scanner : Scanner, scanner.Remembers t → Answers t (f scanner) a) :
    Answers t (get >>= f) a :=
  fun scanner hs => h scanner hs scanner hs

end

/-! ## Close markers -/

/-- What a table made from a list holds stands in the list. -/
theorem mem_of_getElem?_ofList {entries : List (Nat × Option Span)} {start : Nat}
    {close : Option Span}
    (h : (Std.HashMap.ofList entries)[start]? = some close) : (start, close) ∈ entries := by
  rw [Std.HashMap.ofList_eq_insertMany_empty, Std.HashMap.getElem?_insertMany_list,
    Std.HashMap.getElem?_empty, Option.or_none, List.findSomeRev?_eq_findSome?_reverse] at h
  obtain ⟨⟨s, c⟩, hmem, hsome⟩ := List.exists_of_findSome?_eq_some h
  simp only [beq_iff_eq, Option.ite_none_right_eq_some, Option.some.injEq] at hsome
  obtain ⟨rfl, rfl⟩ := hsome
  exact List.mem_reverse.1 hmem

/-- The table of a name is its pairing in the text. -/
theorem answers_table (t name : Text) :
    Answers t (table name) (Std.HashMap.ofList (closePairs name t)) := by
  intro scanner h
  cases hl : scanner.tables.lookup name with
  | some found =>
    -- what is remembered of the name is its pairing already
    refine ⟨scanner, ?_, h⟩
    obtain ⟨l₁, l₂, htables, -⟩ := List.lookup_eq_some_iff.1 hl
    rw [← h.tables name found (by simp [htables])]
    simp [table, hl]
    rfl
  | none =>
    refine ⟨{ scanner with
      tables := (name, Std.HashMap.ofList (closePairs name t)) :: scanner.tables }, ?_, h.text, ?_⟩
    · simp [table, hl, h.text]
      rfl
    · intro n tab hmem
      rcases List.mem_cons.1 hmem with he | hmem
      · rw [Prod.mk.injEq] at he
        rw [he.1, he.2]
      · exact h.tables n tab hmem

/-- An opening tag has the close marker that the search behind it finds, whether it
    was met by the walk or not. -/
theorem answers_closing {t u after : Text} {start : Nat} {o : Opening}
    (hu : t.from? start = some u) (ho : Opening.read? u = some (o, after))
    (hs : o.selfClosing = false) :
    Answers t (closing o.name start (start + o.source.size) after)
      (findClose o.name (start + o.source.size) after) := by
  refine (answers_table t o.name).bind ?_
  split
  next close hclose =>
    -- the walk has met a tag at this place, and only one tag starts here
    obtain ⟨u', o', rest, hu', ho', -, hc⟩ := mem_closePairs (mem_of_getElem?_ofList hclose)
    obtain rfl : u' = u := by
      rw [hu, Option.some.injEq] at hu'
      exact hu'.symm
    rw [ho, Option.some.injEq, Prod.mk.injEq] at ho'
    obtain ⟨rfl, rfl⟩ := ho'
    rw [hc, hs]
    exact Answers.pure _
  · exact Answers.pure _

/-! ## Tags -/

theorem answers_locate {t u : Text} {start : Nat} (known : Text → Bool)
    (hu : t.from? start = some u) :
    Answers t (Shortcode.locate? closing known start u)
      (Shortcode.locate? Closing.direct known start u) := by
  unfold Shortcode.locate?
  split
  · exact Answers.pure _
  next o after h =>
    split
    · cases hs : o.selfClosing with
      | true => exact Answers.pure _
      | false =>
        refine (answers_closing hu h hs).bind ?_
        simp only [Closing.direct]
        cases findClose o.name (start + o.source.size) after <;> exact Answers.pure _
    · exact Answers.pure _

theorem answers_escaped {t u : Text} {start : Nat} (known : Text → Bool)
    (hu : t.from? start = some u) :
    Answers t (Shortcode.escaped? closing known start u)
      (Shortcode.escaped? Closing.direct known start u) := by
  unfold Shortcode.escaped?
  split
  next inside =>
    have hinside : t.from? (start + 1) = some inside := Text.from?_of_append (s := ['[']) hu
    split
    · split
      · split
        · exact Answers.pure _
        · refine (answers_locate known hinside).bind ?_
          generalize Shortcode.locate? Closing.direct known (start + 1) inside = found
          dsimp only [Bind.bind]
          split <;> exact Answers.pure _
      · exact Answers.pure _
    · exact Answers.pure _
  · exact Answers.pure _

/-- A scanner cuts its text, from any offset on, as the direct scan does. -/
theorem answers_scan {t u : Text} {start : Nat} {known : Text → Bool} {pieces : List Piece}
    (hcut : Cut known start u pieces) (hu : t.from? start = some u) :
    Answers t (Piece.scan closing known start u) pieces := by
  -- each rule of the cut is an escaped tag asked for, then a tag, then the rest
  induction hcut with
  | nil =>
    rw [Piece.scan]
    exact Answers.pure _
  | @char start c r pieces hnone hrest ih =>
    have hnext : t.from? (start + c.utf8Size) = some r := Text.from?_of_append (s := [c]) hu
    rw [Piece.scan]
    split
    next hc =>
      have he := answers_escaped known hu
      have hl := answers_locate known hu
      rw [(hnone hc).1] at he
      rw [(hnone hc).2] at hl
      exact he.bind (hl.bind ((ih hnext).map _))
    · exact (ih hnext).map _
  | @escaped start u e pieces he hrest ih =>
    have hnext : t.from? (start + e.inner.size + 2) = some e.rest := by
      rw [Nat.add_assoc, ← size_source_escaped]
      exact Text.from?_of_append (append_of_escaped? he ▸ hu)
    have hasked := answers_escaped known hu
    rw [he] at hasked
    obtain ⟨inside, -, -, rfl, -⟩ := escaped?_direct_eq_some he
    rw [Piece.scan, if_pos rfl]
    exact hasked.bind ((ih hnext).bind (Answers.pure _))
  | @tag start u l pieces he hl hrest ih =>
    have hnext : t.from? l.tag.stop = some l.rest := by
      obtain ⟨-, -, hstart, -, happend, -⟩ := locate?_direct_eq_some_iff.1 hl
      rw [Tag.stop_eq, hstart]
      exact Text.from?_of_append (happend ▸ hu)
    have hescaped := answers_escaped known hu
    have hlocated := answers_locate known hu
    rw [he] at hescaped
    rw [hl] at hlocated
    obtain ⟨r, rfl⟩ := exists_cons_of_locate? hl
    rw [Piece.scan, if_pos rfl]
    exact hescaped.bind (hlocated.bind ((ih hnext).bind (Answers.pure _)))

/-! ## Questions -/

/-- A scanner locates the tag that the direct search finds. -/
theorem answers_locate? (t : Text) (known : Text → Bool) (start : Nat) :
    Answers t (locate? known start) ((t.from? start).bind fun u =>
      (Shortcode.locate? Closing.direct known start u).map Located.tag) := by
  refine Answers.of_get fun scanner hs => ?_
  rw [hs.text]
  cases hu : t.from? start with
  | none => exact Answers.pure _
  | some u => exact (answers_locate known hu).map _

/-- A scanner finds escaped what the direct search does. -/
theorem answers_escaped? (t : Text) (known : Text → Bool) (start : Nat) :
    Answers t (escaped? known start) ((t.from? start).bind fun u =>
      (Shortcode.escaped? Closing.direct known start u).map Escaped.inner) := by
  refine Answers.of_get fun scanner hs => ?_
  rw [hs.text]
  cases hu : t.from? start with
  | none => exact Answers.pure _
  | some u => exact (answers_escaped known hu).map _

/-- A question to a scanner about an offset of its text. -/
inductive Query
  /-- Which tag of a known name starts here? -/
  | locate (known : Text → Bool) (start : Nat)
  /-- What is escaped by the brackets that start here? -/
  | escaped (known : Text → Bool) (start : Nat)

/-- The answer to a question. -/
inductive Reply
  | tag (tag : Option Tag)
  | inner (inner : Option Text)
  deriving DecidableEq, Repr

namespace Query

/-- Asks a scanner, which may remember something for later questions. -/
def ask : Query → StateM Scanner Reply
  | locate known start => Reply.tag <$> Scanner.locate? known start
  | escaped known start => Reply.inner <$> Scanner.escaped? known start

/-- Answers a question about the text `t` with nothing but searches in it. -/
def direct (t : Text) : Query → Reply
  | locate known start =>
    .tag ((t.from? start).bind fun u =>
      (Shortcode.locate? Closing.direct known start u).map Located.tag)
  | escaped known start =>
    .inner ((t.from? start).bind fun u =>
      (Shortcode.escaped? Closing.direct known start u).map Escaped.inner)

/-- One question: the scanner answers as the direct search does, and remembers
    nothing wrong. -/
theorem answers_ask (t : Text) (query : Query) : Answers t query.ask (query.direct t) := by
  cases query with
  | locate known start => exact (answers_locate? t known start).map _
  | escaped known start => exact (answers_escaped? t known start).map _

end Query

/-- A row of questions, each one put to the scanner that the ones before have left. -/
theorem answers_mapM (t : Text) (queries : List Query) :
    Answers t (queries.mapM Query.ask) (queries.map (Query.direct t)) := by
  induction queries with
  | nil => exact Answers.pure _
  | cons query queries ih =>
    rw [List.mapM_cons, List.map_cons]
    exact (query.answers_ask t).bind (ih.bind (Answers.pure _))

/-- A scanner that knows nothing yet answers a row of questions as the direct search
    does. -/
theorem replies_eq_direct (t : Text) (queries : List Query) :
    ((queries.mapM Query.ask).run (ofText t)).1 = queries.map (Query.direct t) := by
  obtain ⟨scanner, hrun, -⟩ := answers_mapM t queries (ofText t) (remembers_ofText t)
  rw [hrun]

end Scanner

/-- The pieces of a document are those that the direct search cuts. -/
theorem pieces_eq_direct (known : Text → Bool) (t : Text) :
    pieces known t = Piece.direct known t := by
  obtain ⟨scanner, hrun, -⟩ := Scanner.answers_scan (cut_scan known 0 t)
    (Text.from?_size_append [] t) (Scanner.ofText t) (Scanner.remembers_ofText t)
  rw [pieces, hrun]
  rfl

/-- What a scanner remembers does not show: it answers every row of questions as
    the direct search does. Each pair of its walk, too, is what that search finds: a
    self-closing tag has no close marker, and another one has the marker that is
    searched behind it, if there is any. -/
theorem scanner_answers_as_direct (t : Text) :
    (∀ queries : List Scanner.Query,
      ((queries.mapM Scanner.Query.ask).run (Scanner.ofText t)).1 =
        queries.map (Scanner.Query.direct t)) ∧
    ∀ name start close, (start, close) ∈ closePairs name t →
      ∃ u o rest, t.from? start = some u ∧ Opening.read? u = some (o, rest) ∧ o.name = name ∧
        close = if o.selfClosing then none else findClose name (start + o.source.size) rest := by
  refine ⟨Scanner.replies_eq_direct t, fun name start close h => ?_⟩
  exact mem_closePairs h

/-- A scanner of a text with a tag that stays open, one that is closed, and a close
    marker that is left over. -/
theorem scanner_answers_unpaired :
    let t : Text := "[b][b]x[/b] [b/][c y=\"[b]\"][/c]".toList
    (3, some ⟨7, 11⟩) ∈ closePairs ['b'] t ∧ (0, none) ∈ closePairs ['b'] t ∧
      (∀ queries : List Scanner.Query,
        ((queries.mapM Scanner.Query.ask).run (Scanner.ofText t)).1 =
          queries.map (Scanner.Query.direct t)) ∧
      (∃ u o rest, t.from? 3 = some u ∧ Opening.read? u = some (o, rest) ∧ o.name = ['b'] ∧
        some ⟨7, 11⟩ =
          if o.selfClosing then none else findClose ['b'] (3 + o.source.size) rest) ∧
      ∃ u o rest, t.from? 0 = some u ∧ Opening.read? u = some (o, rest) ∧ o.name = ['b'] ∧
        none = if o.selfClosing then none else findClose ['b'] (0 + o.source.size) rest := by
  intro t
  have hclosed : (3, some ⟨7, 11⟩) ∈ closePairs ['b'] t := by decide +kernel
  have hopen : (0, none) ∈ closePairs ['b'] t := by decide +kernel
  obtain ⟨hreplies, hpairs⟩ := scanner_answers_as_direct t
  exact ⟨hclosed, hopen, hreplies, hpairs _ _ _ hclosed, hpairs _ _ _ hopen⟩

end Shortcode
