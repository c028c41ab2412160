import Shortcode.Proofs.Policies

/-!
# What is dispatched is planned by the document

Which handlers an expansion calls, in which order, with which attributes and whether
with a content, hangs on the document as it is written, the names that are known and
the depth limit. What handlers answer is copied and never read, so it cannot bring a
tag in, hide one or change one, neither where it stands nor in the contents around it.

* `Call.shape`: a call without the text of its content.
* `planned`: the shapes of the calls for a text, told without any handler.
* `Engine.shapes_inner`: an expansion that ends well makes the calls that are planned.
* `dispatch_ignores_answers`: two engines with the same names dispatch the same tags.
-/

namespace Shortcode

/-- What is dispatched: the name and the attributes of a tag, and whether it is paired. -/
structure CallShape where
  tag : Text
  attrs : Attributes
  paired : Bool
  deriving DecidableEq, Repr

/-- A call without the text of its content. -/
def Call.shape (call : Call) : CallShape :=
  ⟨call.tag, call.attrs, call.content.isSome⟩

/-- What is dispatched for a piece, where `inner` is dispatched for the content of a
    tag: that of the content first, then the tag. -/
def Piece.planned (inner : Text → List CallShape) : Piece → List CallShape
  | text _ => []
  | escaped _ => []
  | tag t => t.content.elim [] inner ++ [⟨t.name, t.opening.attrs, t.content.isSome⟩]

/-- What is dispatched for a text in which tags are expanded `depth` levels deep. -/
def planned (known : Text → Bool) : (depth : Nat) → Text → List CallShape
  | 0, _ => []
  | depth + 1, text => (Piece.direct known text).flatMap (Piece.planned (planned known depth))

namespace Engine

variable {ε η : Type} {render : Render ε η} {e : Engine η}

section

variable {inner : Text → Run ε Text} {plan : Text → List CallShape}

/-- A tag that is dispatched well is dispatched as planned, if its content is. -/
theorem shapes_dispatch {tag : Tag} {out : Text} (hknown : e.contains tag.name = true)
    (hinner : ∀ raw out, (inner raw).outcome = .ok out →
      (inner raw).calls.map Call.shape = plan raw)
    (hout : (e.dispatch render inner tag).outcome = .ok out) :
    (e.dispatch render inner tag).calls.map Call.shape = (Piece.tag tag).planned plan := by
  obtain ⟨handler, hhandler⟩ := Option.isSome_iff_exists.1 hknown
  rw [Piece.planned]
  cases hcontent : tag.content with
  | none =>
    rw [dispatch_of_no_content hhandler hcontent]
    rfl
  | some raw =>
    obtain ⟨⟨expanded, hexpanded⟩, -⟩ := inner_of_dispatch hknown hcontent hout
    rw [dispatch_of_content hhandler hcontent (Run.eq_of_outcome hexpanded), List.map_append,
      hinner raw expanded hexpanded]
    rfl

/-- Pieces that are put together well are dispatched as planned, if contents are. -/
theorem shapes_assemble {pieces : List Piece} {out : Text}
    (hknown : ∀ tag, .tag tag ∈ pieces → e.contains tag.name = true)
    (hinner : ∀ raw out, (inner raw).outcome = .ok out →
      (inner raw).calls.map Call.shape = plan raw)
    (hout : (e.assemble render inner pieces).outcome = .ok out) :
    (e.assemble render inner pieces).calls.map Call.shape =
      pieces.flatMap (Piece.planned plan) := by
  induction pieces generalizing out with
  | nil => rfl
  | cons piece pieces ih =>
    have hknown' : ∀ tag, .tag tag ∈ pieces → e.contains tag.name = true :=
      fun tag htag => hknown tag (List.mem_cons_of_mem _ htag)
    rw [List.flatMap_cons]
    cases piece with
    | text run =>
      obtain ⟨rest, hrest, -⟩ := Run.outcome_map_eq_ok_iff.1 hout
      exact ih hknown' hrest
    | escaped tag =>
      obtain ⟨rest, hrest, -⟩ := Run.outcome_map_eq_ok_iff.1 hout
      exact ih hknown' hrest
    | tag tag =>
      obtain ⟨answer, hanswer, htail⟩ := Run.outcome_bind_eq_ok_iff.1 hout
      obtain ⟨rest, hrest, -⟩ := Run.outcome_map_eq_ok_iff.1 htail
      -- the calls for the tag come first, and its answer is not looked at by the rest
      rw [← ih hknown' hrest,
        ← shapes_dispatch (hknown tag List.mem_cons_self) hinner hanswer, ← List.map_append]
      exact congrArg _ (Run.calls_bind_ok hanswer _)

end

/-- A content that is expanded well is expanded as planned. -/
theorem shapes_inner (depth : Nat) {raw out : Text}
    (hout : (e.inner render depth raw).outcome = .ok out) :
    (e.inner render depth raw).calls.map Call.shape = planned e.contains depth raw := by
  induction depth generalizing raw out with
  | zero => rfl
  | succ depth ih =>
    rw [inner, expandWithin_eq] at hout ⊢
    exact shapes_assemble (fun tag => known_of_mem_direct) (fun raw out => ih) hout

variable (render e)

/-- No failure ends the expansion of a text: failures are isolated, or no call fails. -/
def Undisturbed (text : Text) : Prop :=
  e.config.onError = .isolate ∨
    ∀ call ∈ (e.expand render text).calls, e.failure? render call = none

variable {render e}

/-- An expansion that no failure ends ends well. -/
theorem exists_ok_of_undisturbed {text : Text} (h : e.Undisturbed render text) :
    ∃ out, (e.expand render text).outcome = .ok out := by
  have hisolate := exists_ok_expandWithin_isolate render e e.config.maxDepth text
  cases hpolicy : e.config.onError with
  | isolate =>
    rw [← hpolicy] at hisolate
    exact hisolate
  | propagate =>
    rcases h with h | h
    · exact absurd (hpolicy.symm.trans h) (by simp)
    · -- the run is a stopped one, and nothing has been stopped in it
      have hstopped := expandWithin_propagate render e e.config.maxDepth text
      rw [← hpolicy, under_onError] at hstopped
      rw [expand, hstopped] at h ⊢
      rw [Run.stopped, Run.stop_of_forall_stop h]
      exact hisolate

end Engine

/-- Two engines with the same names and the same depth limit dispatch the same tags, in
    the same order and with the same attributes, in a document and in every content that
    its expansion comes to, whatever their handlers answer, if no failure ends the
    expansion of either. -/
theorem dispatch_ignores_answers {ε η ε' η' : Type} (render : Render ε η)
    (render' : Render ε' η') {e : Engine η} {e' : Engine η'}
    (hnames : ∀ name, e.contains name = e'.contains name)
    (hdepth : e.config.maxDepth = e'.config.maxDepth) {text : Text}
    (h : e.Undisturbed render text) (h' : e'.Undisturbed render' text) :
    (e.expand render text).calls.map Call.shape =
        (e'.expand render' text).calls.map Call.shape ∧
      ∀ level content, Reaches e.contains e.config.maxDepth text level content →
        (e.expandWithin render level content).calls.map Call.shape =
          (e'.expandWithin render' level content).calls.map Call.shape := by
  have hcontains : e.contains = e'.contains := funext hnames
  have hall : ∀ level content, Reaches e.contains e.config.maxDepth text level content →
      (e.expandWithin render level content).calls.map Call.shape =
        (e'.expandWithin render' level content).calls.map Call.shape := by
    intro level content hreaches
    obtain ⟨out, hout⟩ := (hreaches.of_ok (Engine.exists_ok_of_undisturbed h)).1
    rw [hcontains, hdepth] at hreaches
    obtain ⟨out', hout'⟩ := (hreaches.of_ok (Engine.exists_ok_of_undisturbed h')).1
    -- both runs follow the plan, which no handler takes part in
    have hplan := Engine.shapes_inner (level + 1) hout
    have hplan' := Engine.shapes_inner (level + 1) hout'
    rw [hcontains] at hplan
    exact hplan.trans hplan'.symm
  refine ⟨?_, hall⟩
  rw [Engine.expand, Engine.expand, ← hdepth]
  exact hall e.config.maxDepth text .here

/-- A tag in the content of a tag of its own name, where one engine answers with tags
    and fails, and the other one answers with what it is given. -/
theorem dispatch_ignores_echo :
    let e : Engine Text := ⟨{ onError := .isolate }, [(['a'], "[a][/a]".toList)]⟩
    let e' : Engine Unit := ⟨{}, [(['a'], ())]⟩
    let render : Render Unit Text := fun answer _ content =>
      if content = none then .ok (some answer) else .error ()
    let render' : Render Unit Unit := fun _ _ content => .ok content
    let text : Text := "[a][a x/][/a]".toList
    let content : Text := "[a x/]".toList
    ((∀ name, e.contains name = e'.contains name) ∧ e.config.maxDepth = e'.config.maxDepth ∧
        e.Undisturbed render text ∧ e'.Undisturbed render' text ∧
        Reaches e.contains e.config.maxDepth text 9 content) ∧
      (e.expand render text).calls.map Call.shape =
        (e'.expand render' text).calls.map Call.shape ∧
      (e.expandWithin render 9 content).calls.map Call.shape =
        (e'.expandWithin render' 9 content).calls.map Call.shape := by
  intro e e' render render' text content
  have hnames : ∀ name, e.contains name = e'.contains name := by
    intro name
    cases hname : name == ['a'] <;>
      simp [e, e', Engine.contains, Engine.handler?, List.lookup_cons, hname]
  have hrender' : e'.Undisturbed render' text := by
    refine .inr fun call _ => ?_
    rw [Engine.failure?]
    cases e'.handler? call.tag <;> rfl
  have hreaches : Reaches e.contains e.config.maxDepth text 9 content := by
    have hpieces : Piece.direct e.contains text =
        [.tag ⟨0, ⟨['a'], []⟩, some content⟩] := by decide +kernel
    exact .inside (hpieces ▸ List.mem_singleton.2 rfl) rfl .here
  obtain ⟨hexpand, hcontents⟩ :=
    dispatch_ignores_answers render render' hnames rfl (.inl rfl) hrender'
  exact ⟨⟨hnames, rfl, .inl rfl, hrender', hreaches⟩, hexpand, hcontents 9 content hreaches⟩

end Shortcode
