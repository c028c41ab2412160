import Mathlib.Data.List.Forall2
import Shortcode.Engine.Expand
import Shortcode.Proofs.Remembering

/-!
# Runs and expansions

How runs are taken apart and how an expansion is put together from the pieces of
its text, so that nothing behind these lemmas unfolds the monad of runs or the
recursion over the depth.

* `Run.outcome_bind_eq_ok_iff`: a run that ends well has ended well in each part.
* `Engine.Built`: an engine made by binding names, all of which a tag can have.
* `Engine.expandWithin_eq`: an expansion puts together the pieces that the direct
  search cuts; `Engine.inner` expands the content of their tags.
* `Engine.replace`: what takes the place of a piece, and
  `Engine.outcome_assemble_eq_ok_iff`: what is put together is a text for each piece.
-/

namespace Shortcode

namespace Run

variable {ε α β : Type}

@[simp] theorem pure_eq (a : α) : (Pure.pure a : Run ε α) = ⟨[], .ok a⟩ := rfl

/-- A run that ends well has ended well in each of its parts. -/
theorem outcome_bind_eq_ok_iff {r : Run ε α} {f : α → Run ε β} {b : β} :
    (r >>= f).outcome = .ok b ↔ ∃ a, r.outcome = .ok a ∧ (f a).outcome = .ok b := by
  change (r.bind f).outcome = .ok b ↔ _
  cases h : r.outcome with
  | ok a => simp [Run.bind, h]
  | error e => simp [Run.bind, h]

theorem outcome_map_eq_ok_iff {r : Run ε α} {f : α → β} {b : β} :
    (f <$> r).outcome = .ok b ↔ ∃ a, r.outcome = .ok a ∧ f a = b := by
  change (r.outcome.map f) = .ok b ↔ _
  cases r.outcome with
  | ok a => simp [Except.map]
  | error e => simp [Except.map]

/-- A run that went well, followed by another one. -/
theorem ok_bind (calls : List Call) (a : α) (f : α → Run ε β) :
    (⟨calls, .ok a⟩ : Run ε α) >>= f = ⟨calls ++ (f a).calls, (f a).outcome⟩ := rfl

theorem map_ok (f : α → β) (calls : List Call) (a : α) :
    f <$> (⟨calls, .ok a⟩ : Run ε α) = ⟨calls, .ok (f a)⟩ := rfl

theorem id_map (r : Run ε α) : (fun a => a) <$> r = r := by
  obtain ⟨calls, outcome⟩ := r
  cases outcome <;> rfl

theorem map_map {γ : Type} (g : β → γ) (f : α → β) (r : Run ε α) :
    g <$> f <$> r = (fun a => g (f a)) <$> r := by
  obtain ⟨calls, outcome⟩ := r
  cases outcome <;> rfl

end Run

namespace Engine

/-- An engine that has been made by binding names to handlers. -/
inductive Built {η : Type} : Engine η → Prop
  | empty (config : EngineConfig) : Built (.empty config)
  | register {e e' : Engine η} {name : Text} {handler : η} (he : Built e)
      (hregister : e.register name handler = .ok e') : Built e'

/-- The bound names are names that a tag can have. -/
theorem Built.isTagName_of_contains {η : Type} {e : Engine η} (he : e.Built) {name : Text}
    (h : e.contains name = true) : isTagName name = true := by
  induction he with
  | empty config => exact absurd h (by simp [contains, handler?, Engine.empty])
  | @register e e' n handler _ hregister ih =>
    rw [contains, handler?_register hregister] at h
    by_cases hn : name = n
    · rw [hn]
      exact isTagName_of_register hregister
    · rw [if_neg hn] at h
      exact ih h

/-- A name with a handler is a known one. -/
theorem contains_of_handler? {η : Type} {e : Engine η} {name : Text} {handler : η}
    (h : e.handler? name = some handler) : e.contains name = true :=
  Option.isSome_iff_exists.2 ⟨handler, h⟩

variable {ε η : Type} (render : Render ε η) (e : Engine η)

/-- Expands the content of the tags of a text that stands `depth` levels above the
    depth limit; at the limit the content stays as it is. -/
def inner : (depth : Nat) → Text → Run ε Text
  | 0 => pure
  | depth + 1 => e.expandWithin render depth

/-- An expansion puts together the pieces that the direct search cuts. -/
theorem expandWithin_eq (depth : Nat) (text : Text) :
    e.expandWithin render depth text =
      e.assemble render (e.inner render depth) (Piece.direct e.contains text) := by
  cases depth <;> rw [expandWithin, pieces_eq_direct] <;> rfl

/-- The tags of a document are the tags among its pieces. -/
theorem tags_eq_direct (text : Text) :
    e.tags text = (Piece.direct e.contains text).filterMap Piece.tag? := by
  rw [tags, Shortcode.tags_eq, pieces_eq_direct]

variable {inner : Text → Run ε Text}

/-- A character in front of pieces is copied. -/
theorem assemble_push (c : Char) (pieces : List Piece) :
    e.assemble render inner (Piece.push c pieces) =
      (c :: ·) <$> e.assemble render inner pieces := by
  cases pieces with
  | nil => rfl
  | cons piece pieces =>
    cases piece with
    | text run => exact (Run.map_map (c :: ·) (run ++ ·) _).symm
    | escaped tag => rfl
    | tag tag => rfl

/-- What takes the place of a piece. -/
def replace (inner : Text → Run ε Text) : Piece → Run ε Text
  | .text run => pure run
  | .escaped tag => pure tag
  | .tag tag => e.dispatch render inner tag

theorem assemble_cons (piece : Piece) (pieces : List Piece) :
    e.assemble render inner (piece :: pieces) = (do
      let answer ← e.replace render inner piece
      (answer ++ ·) <$> e.assemble render inner pieces) := by
  cases piece <;> rfl

variable {render e}

/-! ## Dispatching a tag -/

/-- A call ends well with the answer of the handler, or with the tag as written if
    failures are isolated. -/
theorem outcome_call_eq_ok_iff {tag : Tag} {handler : η} {content : Option Text} {out : Text} :
    (e.call render tag handler content).outcome = .ok out ↔
      (∃ answer, render handler tag.opening.attrs content = .ok answer ∧ out = answer.getD []) ∨
      (∃ cause, render handler tag.opening.attrs content = .error cause ∧
        e.config.onError = .isolate ∧ out = tag.source) := by
  simp only [call]
  cases render handler tag.opening.attrs content with
  | ok answer => simp [eq_comm]
  | error cause => cases e.config.onError <;> simp [eq_comm]

/-- The content that a handler gets for the content `raw` of its tag. -/
def Hands (inner : Text → Run ε Text) : (raw content : Option Text) → Prop
  | none, content => content = none
  | some raw, content => ∃ expanded, (inner raw).outcome = .ok expanded ∧ content = some expanded

/-- A tag is dispatched by a call with what its content is expanded to. -/
theorem outcome_dispatch_eq_ok_iff {tag : Tag} {handler : η} {out : Text}
    (h : e.handler? tag.name = some handler) :
    (e.dispatch render inner tag).outcome = .ok out ↔
      ∃ content, Hands inner tag.content content ∧
        (e.call render tag handler content).outcome = .ok out := by
  simp only [dispatch, h]
  cases tag.content with
  | none => simp [Hands]
  | some raw =>
    simp only [Hands]
    rw [Run.outcome_bind_eq_ok_iff]
    constructor
    · rintro ⟨expanded, he, hout⟩
      exact ⟨some expanded, ⟨expanded, he, rfl⟩, hout⟩
    · rintro ⟨_, ⟨expanded, he, rfl⟩, hout⟩
      exact ⟨expanded, he, hout⟩

/-- The run of a call that is answered. -/
theorem call_of_ok {tag : Tag} {handler : η} {content answer : Option Text}
    (h : render handler tag.opening.attrs content = .ok answer) :
    e.call render tag handler content =
      ⟨[⟨tag.name, tag.opening.attrs, content⟩], .ok (answer.getD [])⟩ := by
  rw [call, h]

/-! ## Putting pieces together -/

/-- What is put together is a text for each piece. -/
theorem outcome_assemble_eq_ok_iff {pieces : List Piece} {out : Text} :
    (e.assemble render inner pieces).outcome = .ok out ↔
      ∃ answers, List.Forall₂ (fun piece answer =>
        (e.replace render inner piece).outcome = .ok answer) pieces answers ∧
        out = answers.flatten := by
  induction pieces generalizing out with
  | nil =>
    constructor
    · intro h
      rw [assemble, Run.pure_eq, Except.ok.injEq] at h
      exact ⟨[], .nil, h.symm⟩
    · rintro ⟨answers, hanswers, rfl⟩
      cases hanswers
      rfl
  | cons piece pieces ih =>
    rw [assemble_cons, Run.outcome_bind_eq_ok_iff]
    constructor
    · rintro ⟨answer, ha, hout⟩
      obtain ⟨rest, hrest, rfl⟩ := Run.outcome_map_eq_ok_iff.1 hout
      obtain ⟨answers, hanswers, rfl⟩ := ih.1 hrest
      exact ⟨answer :: answers, .cons ha hanswers, rfl⟩
    · rintro ⟨answers, hanswers, rfl⟩
      obtain _ | ⟨ha, hanswers⟩ := hanswers
      exact ⟨_, ha, Run.outcome_map_eq_ok_iff.2 ⟨_, ih.2 ⟨_, hanswers, rfl⟩, rfl⟩⟩

end Engine

end Shortcode
