import Shortcode.Engine.Basic
import Shortcode.Markup.Scanner

/-!
# Expanding a document

Every tag of a bound name is replaced by what its handler answers. The content of
a paired tag is expanded before the handler sees it, down to the depth limit;
below the limit the handler gets it as written. What a handler answers is copied,
never scanned again.

The calls of handlers are part of the result: a *run* has the text or the failure
it ends with, and its calls in order, the failing one included.

* `Run.calls_bind_ok`: a run behind another one adds its calls at the end.
* `Run.bind_error`: nothing is called behind a failure.
* `Run.map_eq_bind`: nothing is called when a result is changed.
-/

namespace Shortcode

/-- A call of a handler: the name and the attributes of the tag, and the expanded
    content of a paired one. -/
structure Call where
  tag : Text
  attrs : Attributes
  content : Option Text
  deriving DecidableEq, Repr

/-- The failure of the handler of a tag. -/
structure TagFailure (ε : Type) where
  tag : Text
  cause : ε
  deriving DecidableEq, Repr

/-- A computation that calls handlers: the calls it made, and how it ended. -/
structure Run (ε α : Type) where
  calls : List Call
  outcome : Except (TagFailure ε) α

namespace Run

variable {ε α β : Type}

/-- A run that calls nothing. -/
def pure (a : α) : Run ε α :=
  ⟨[], .ok a⟩

/-- A run followed by another one that uses its result. -/
def bind (r : Run ε α) (f : α → Run ε β) : Run ε β :=
  match r.outcome with
  | .ok a => ⟨r.calls ++ (f a).calls, (f a).outcome⟩
  | .error e => ⟨r.calls, .error e⟩

/-- A run with its result changed. -/
def map (f : α → β) (r : Run ε α) : Run ε β :=
  ⟨r.calls, r.outcome.map f⟩

instance : Monad (Run ε) where
  pure := Run.pure
  bind := Run.bind
  map := Run.map

theorem calls_bind_ok {r : Run ε α} {a : α} (h : r.outcome = .ok a) (f : α → Run ε β) :
    (r.bind f).calls = r.calls ++ (f a).calls := by
  simp [bind, h]

/-- Changing a result is a run that calls nothing more. -/
theorem map_eq_bind (f : α → β) (r : Run ε α) : r.map f = r.bind fun a => pure (f a) := by
  obtain ⟨calls, outcome⟩ := r
  cases outcome <;> simp [map, bind, pure, Except.map]

theorem bind_error {r : Run ε α} {e : TagFailure ε} (h : r.outcome = .error e)
    (f : α → Run ε β) : r.bind f = ⟨r.calls, .error e⟩ := by
  simp [bind, h]

end Run

/-- What a handler does: from the attributes and the expanded content of a tag, the
    text in its place, or none. -/
abbrev Render (ε η : Type) :=
  η → Attributes → Option Text → Except ε (Option Text)

namespace Engine

variable {ε η : Type} (render : Render ε η) (e : Engine η)

/-- Calls the handler of a tag whose content has been expanded to `content`. -/
def call (tag : Tag) (handler : η) (content : Option Text) : Run ε Text :=
  let attrs := tag.opening.attrs
  ⟨[⟨tag.name, attrs, content⟩],
    match render handler attrs content with
    | .ok answer => .ok (answer.getD [])
    | .error cause =>
      match e.config.onError with
      | .propagate => .error ⟨tag.name, cause⟩
      | .isolate => .ok tag.source⟩

/-- Replaces a tag, where `inner` expands its content. -/
def dispatch (inner : Text → Run ε Text) (tag : Tag) : Run ε Text :=
  match e.handler? tag.name with
  | none => pure tag.source
  | some handler =>
    match tag.content with
    | none => e.call render tag handler none
    | some raw => do
      let content ← inner raw
      e.call render tag handler (some content)

/-- Replaces the tags among pieces, where `inner` expands the content of tags. -/
def assemble (inner : Text → Run ε Text) : List Piece → Run ε Text
  | [] => pure []
  | .text run :: rest => (run ++ ·) <$> assemble inner rest
  | .escaped tag :: rest => (tag ++ ·) <$> assemble inner rest
  | .tag tag :: rest => do
    let answer ← e.dispatch render inner tag
    (answer ++ ·) <$> assemble inner rest

/-- Expands a text that stands `depth` levels above the depth limit. -/
def expandWithin : (depth : Nat) → Text → Run ε Text
  | 0, text => e.assemble render pure (pieces e.contains text)
  | depth + 1, text => e.assemble render (expandWithin depth) (pieces e.contains text)

/-- Expands a document. -/
def expand (text : Text) : Run ε Text :=
  e.expandWithin render e.config.maxDepth text

/-- The tags of a document that `expand` replaces, those in the content of other
    tags apart. -/
def tags (text : Text) : List Tag :=
  Shortcode.tags e.contains text

end Engine

end Shortcode
