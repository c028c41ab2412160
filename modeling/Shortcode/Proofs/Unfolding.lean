import Shortcode.Proofs.Nesting

/-!
# Documents unfolded

A text unfolds into the row of its pieces, in which every paired tag holds the unfolding of
its content, and so on until no content has a paired tag. What an unfolding expands to is
told from the inside out, with no word about depth: a handler is handed what the content of
its tag has expanded to, after all calls for that content have been made. This is said
without the expansion of engines, which is compared with it where the depth limit leaves
room.

* `Unfolding.Of`: what a row of pieces unfolds to; it is one unfolding at most.
* `Unfolding.expand`: what an unfolding expands to, and the calls on the way.
* `Unfolding.exists_of_mem_calls`: whatever content a handler is handed, it is expanded.
-/

namespace Shortcode

/-- A row of pieces in which every paired tag holds what its content unfolds to. -/
inductive Unfolding
  /-- No piece. -/
  | done
  /-- Text that is copied, that of an escaped tag included. -/
  | copied (run : Text) (rest : Unfolding)
  /-- A tag without content. -/
  | single (tag : Tag) (rest : Unfolding)
  /-- A tag around what its content unfolds to. -/
  | paired (tag : Tag) (content rest : Unfolding)
  deriving DecidableEq, Repr

namespace Unfolding

/-- What a row of pieces unfolds to. -/
inductive Of (known : Text → Bool) : List Piece → Unfolding → Prop
  | done : Of known [] .done
  | text {run : Text} {pieces : List Piece} {rest : Unfolding} (hrest : Of known pieces rest) :
      Of known (.text run :: pieces) (.copied run rest)
  | escaped {inner : Text} {pieces : List Piece} {rest : Unfolding}
      (hrest : Of known pieces rest) : Of known (.escaped inner :: pieces) (.copied inner rest)
  | single {tag : Tag} {pieces : List Piece} {rest : Unfolding} (hnone : tag.content = none)
      (hrest : Of known pieces rest) : Of known (.tag tag :: pieces) (.single tag rest)
  | paired {tag : Tag} {raw : Text} {pieces : List Piece} {content rest : Unfolding}
      (hraw : tag.content = some raw) (hcontent : Of known (Shortcode.pieces known raw) content)
      (hrest : Of known pieces rest) : Of known (.tag tag :: pieces) (.paired tag content rest)

/-- The paired tags of an unfolding, each with what its content unfolds to, in the order in
    which they end. -/
def contents : Unfolding → List (Tag × Unfolding)
  | done => []
  | copied _ rest => rest.contents
  | single _ rest => rest.contents
  | paired tag content rest => content.contents ++ (tag, content) :: rest.contents

variable {known : Text → Bool} {pieces : List Piece} {u u' : Unfolding}

/-- A row of pieces unfolds in one way at most. -/
theorem Of.unique (h : Of known pieces u) (h' : Of known pieces u') : u = u' := by
  induction h generalizing u' with
  | done =>
    cases h'
    rfl
  | text _ ih =>
    obtain _ | ⟨hrest⟩ := h'
    rw [ih hrest]
  | escaped _ ih =>
    obtain _ | _ | ⟨hrest⟩ := h'
    rw [ih hrest]
  | single hnone _ ih =>
    cases h' with
    | single _ hrest => rw [ih hrest]
    | paired hraw => exact absurd (hnone.symm.trans hraw) (by simp)
  | paired hraw _ _ ihContent ihRest =>
    cases h' with
    | single hnone => exact absurd (hraw.symm.trans hnone) (by simp)
    | paired hraw' hcontent hrest =>
      obtain rfl := Option.some.inj (hraw.symm.trans hraw')
      rw [ihContent hcontent, ihRest hrest]

/-- A row of pieces unfolds if the contents of its tags do. -/
theorem exists_of (h : ∀ tag, .tag tag ∈ pieces → ∀ raw, tag.content = some raw →
    ∃ u, Of known (Shortcode.pieces known raw) u) : ∃ u, Of known pieces u := by
  induction pieces with
  | nil => exact ⟨.done, .done⟩
  | cons piece pieces ih =>
    obtain ⟨rest, hrest⟩ := ih fun tag hmem => h tag (List.mem_cons_of_mem _ hmem)
    cases piece with
    | text run => exact ⟨_, .text hrest⟩
    | escaped inner => exact ⟨_, .escaped hrest⟩
    | tag tag =>
      cases hraw : tag.content with
      | none => exact ⟨_, .single hraw hrest⟩
      | some raw =>
        obtain ⟨content, hcontent⟩ := h tag List.mem_cons_self raw hraw
        exact ⟨_, .paired hraw hcontent hrest⟩

/-- A paired tag of an unfolding holds what its own content unfolds to. -/
theorem Of.of_mem_contents (h : Of known pieces u) {tag : Tag} {content : Unfolding}
    (hmem : (tag, content) ∈ u.contents) :
    ∃ raw, tag.content = some raw ∧ Of known (Shortcode.pieces known raw) content := by
  induction h with
  | done => exact absurd hmem List.not_mem_nil
  | text _ ih => exact ih hmem
  | escaped _ ih => exact ih hmem
  | single _ _ ih => exact ih hmem
  | paired hraw hcontent _ ihContent ihRest =>
    rw [contents, List.mem_append, List.mem_cons] at hmem
    rcases hmem with hmem | heq | hmem
    · exact ihContent hmem
    · obtain ⟨rfl, rfl⟩ := Prod.mk.inj heq
      exact ⟨_, hraw, hcontent⟩
    · exact ihRest hmem

/-! ## What an unfolding expands to -/

variable {ε η : Type}

section

variable (render : Render ε η) (e : Engine η)

/-- What stands in the place of a tag when its handler is done: the answer, or else what the
    error policy makes of the failure. -/
def settle (tag : Tag) : Except ε (Option Text) → Except (TagFailure ε) Text
  | .ok answer => .ok (answer.getD [])
  | .error cause =>
    match e.config.onError with
    | .propagate => .error ⟨tag.name, cause⟩
    | .isolate => .ok tag.source

/-- Hands a content to the handler of a tag. -/
def hand (tag : Tag) (content : Option Text) : Run ε Text :=
  match e.handler? tag.name with
  | some handler =>
    ⟨[⟨tag.name, tag.opening.attrs, content⟩],
      settle e tag (render handler tag.opening.attrs content)⟩
  | none => ⟨[], .ok tag.source⟩

/-- What an unfolding expands to: all contents first, then what they stand in. -/
def expand : Unfolding → Run ε Text
  | done => pure []
  | copied run rest => (run ++ ·) <$> rest.expand
  | single tag rest => do
    let answer ← hand render e tag none
    (answer ++ ·) <$> rest.expand
  | paired tag content rest => do
    let expanded ← content.expand
    let answer ← hand render e tag (some expanded)
    (answer ++ ·) <$> rest.expand

end

variable {render : Render ε η} {e e' : Engine η}

/-- For a tag its handler is called, and nothing else. -/
theorem calls_hand_of_mem {tag : Tag} {content : Option Text} {call : Call}
    (h : call ∈ (hand render e tag content).calls) :
    call = ⟨tag.name, tag.opening.attrs, content⟩ ∧
      (hand render e tag content).calls = [call] := by
  rw [hand] at h ⊢
  split at h
  · obtain rfl := List.mem_singleton.1 h
    exact ⟨rfl, rfl⟩
  · exact absurd h List.not_mem_nil

/-- Where a tag has been replaced, the calls for what is behind it are the last ones. -/
theorem calls_rest_suffix {first : Run ε Text} {answer : Text} (h : first.outcome = .ok answer)
    (rest : Unfolding) :
    (rest.expand render e).calls <:+
      (first >>= fun answer => (answer ++ ·) <$> rest.expand render e).calls :=
  Run.calls_suffix_bind h fun answer => (answer ++ ·) <$> rest.expand render e

/-- For a paired tag whose content expands, the calls for the content are the first ones. -/
theorem calls_paired {content : Unfolding} {expanded : Text}
    (h : (content.expand render e).outcome = .ok expanded) (tag : Tag) (rest : Unfolding) :
    ((paired tag content rest).expand render e).calls =
      (content.expand render e).calls ++ (hand render e tag (some expanded) >>=
        fun answer => (answer ++ ·) <$> rest.expand render e).calls :=
  Run.calls_bind_ok h fun expanded =>
    hand render e tag (some expanded) >>= fun answer => (answer ++ ·) <$> rest.expand render e

/-- Whatever content a handler is handed, it is that of a paired tag, expanded, and all calls
    for it have just been made. -/
theorem exists_of_mem_calls {call : Call} (h : call ∈ (u.expand render e).calls) {handed : Text}
    (hhanded : call.content = some handed) :
    ∃ tag content, (tag, content) ∈ u.contents ∧ call = ⟨tag.name, tag.opening.attrs, some handed⟩ ∧
      (content.expand render e).outcome = .ok handed ∧
      (content.expand render e).calls ++ [call] <:+: (u.expand render e).calls := by
  induction u with
  | done => exact absurd h List.not_mem_nil
  | copied run rest ih => exact ih h
  | single tag rest ih =>
    rcases Run.mem_calls_bind h with hcall | ⟨answer, hanswer, hlater⟩
    · rw [(calls_hand_of_mem hcall).1] at hhanded
      exact absurd hhanded (by simp)
    · obtain ⟨tag', content, hmem, heq, hcontent, hcalls⟩ := ih hlater
      exact ⟨tag', content, hmem, heq, hcontent,
        hcalls.trans (calls_rest_suffix hanswer rest).isInfix⟩
  | paired tag content rest ihContent ihRest =>
    rcases Run.mem_calls_bind h with hinner | ⟨expanded, hexpanded, hbehind⟩
    · obtain ⟨tag', content', hmem, heq, hcontent, hcalls⟩ := ihContent hinner
      exact ⟨tag', content', List.mem_append_left _ hmem, heq, hcontent,
        hcalls.trans (Run.calls_prefix_bind _ _).isInfix⟩
    rw [calls_paired hexpanded]
    rcases Run.mem_calls_bind hbehind with hcall | ⟨answer, hanswer, hlater⟩
    · -- the content has been expanded, and the call for the tag comes next
      obtain ⟨heq, hcalls⟩ := calls_hand_of_mem hcall
      rw [heq] at hhanded
      obtain rfl := Option.some.inj hhanded
      refine ⟨tag, content, List.mem_append_right _ List.mem_cons_self, heq, hexpanded, ?_⟩
      have hnext : [call] <+: (hand render e tag (some expanded) >>=
          fun answer => (answer ++ ·) <$> rest.expand render e).calls :=
        hcalls ▸ Run.calls_prefix_bind _ _
      exact ((List.prefix_append_right_inj _).2 hnext).isInfix
    · obtain ⟨tag', content', hmem, heq, hcontent, hcalls⟩ := ihRest hlater
      refine ⟨tag', content', ?_, heq, hcontent, hcalls.trans ?_⟩
      · exact List.mem_append_right _ (List.mem_cons_of_mem _ hmem)
      · exact ((calls_rest_suffix hanswer rest).trans (List.suffix_append _ _)).isInfix

end Unfolding

end Shortcode
