import Shortcode.Proofs.Nesting

/-!
# Failures that are isolated and failures that are propagated

Where failures are isolated, an expansion goes on behind a tag whose handler fails,
and leaves the tag as it was written. Where they are propagated, the expansion is the
same run up to the first call that fails, and ends there. Whatever is made of a
failure comes after the call, so up to it the two runs cannot be told apart.

* `Engine.failure?`: the failure of the handler that a call goes to.
* `Run.stopped`: a run that ends at the first of its calls that fails.
* `Engine.expandWithin_propagate`: an expansion that propagates failures is the one
  that isolates them, stopped.
* `Engine.KeepsFailed`: a tag whose call fails stays as it was written.
* `policies_agree_up_to_failure`: the two runs of a document.
-/

namespace Shortcode

namespace Run

variable {ε α β : Type} (failure? : Call → Option ε)

/-- Calls up to the first one that fails, and the outcome behind them if none does. -/
def stop (outcome : Except (TagFailure ε) α) : List Call → Run ε α
  | [] => ⟨[], outcome⟩
  | call :: calls =>
    match failure? call with
    | some cause => ⟨[call], .error ⟨call.tag, cause⟩⟩
    | none => ⟨call :: (stop outcome calls).calls, (stop outcome calls).outcome⟩

/-- A run that ends at the first of its calls that fails. -/
def stopped (r : Run ε α) : Run ε α :=
  stop failure? r.outcome r.calls

variable {failure?}

/-- Where no call fails, nothing is stopped. -/
theorem stop_of_forall {outcome : Except (TagFailure ε) α} {calls : List Call}
    (h : ∀ call ∈ calls, failure? call = none) :
    stop failure? outcome calls = ⟨calls, outcome⟩ := by
  induction calls with
  | nil => rfl
  | cons call calls ih =>
    obtain ⟨hcall, hcalls⟩ := List.forall_mem_cons.1 h
    rw [stop, hcall, ih hcalls]

/-- The first call that fails is the last one. -/
theorem stop_of_failure {outcome : Except (TagFailure ε) α} {earlier later : List Call}
    {call : Call} {cause : ε} (h : ∀ c ∈ earlier, failure? c = none)
    (hcall : failure? call = some cause) :
    stop failure? outcome (earlier ++ call :: later) =
      ⟨earlier ++ [call], .error ⟨call.tag, cause⟩⟩ := by
  induction earlier with
  | nil => rw [List.nil_append, stop, hcall, List.nil_append]
  | cons c earlier ih =>
    obtain ⟨hc, hearlier⟩ := List.forall_mem_cons.1 h
    rw [List.cons_append, stop, hc, ih hearlier, List.cons_append]

/-- Where a stopped run has no call that fails, nothing has been stopped. -/
theorem stop_of_forall_stop {outcome : Except (TagFailure ε) α} {calls : List Call}
    (h : ∀ call ∈ (stop failure? outcome calls).calls, failure? call = none) :
    stop failure? outcome calls = ⟨calls, outcome⟩ := by
  induction calls with
  | nil => rfl
  | cons call calls ih =>
    cases hcall : failure? call with
    | some cause =>
      rw [stop, hcall] at h
      exact absurd (h call List.mem_cons_self) (by simp [hcall])
    | none =>
      rw [stop, hcall] at h ⊢
      rw [ih fun c hc => h c (List.mem_cons_of_mem _ hc)]

/-- Calls behind calls are stopped one row behind the other. -/
theorem stop_append {outcome : Except (TagFailure ε) β} {earlier later : List Call} {a : α}
    {f : α → Run ε β} (hf : f a = stop failure? outcome later) :
    stop failure? outcome (earlier ++ later) = stop failure? (.ok a) earlier >>= f := by
  induction earlier with
  | nil => exact hf.symm
  | cons call earlier ih =>
    cases hcall : failure? call with
    | some cause =>
      rw [List.cons_append, stop, stop, hcall]
      rfl
    | none =>
      rw [List.cons_append, stop, stop, hcall, ih]
      change _ = Run.bind _ f
      cases h : (stop failure? (.ok a) earlier).outcome with
      | ok b => simp [Bind.bind, Run.bind, h]
      | error failure => simp [Bind.bind, Run.bind, h]

/-- A run behind one that has ended well is stopped where the first of both is. -/
theorem stopped_bind {r : Run ε α} {a : α} (h : r.outcome = .ok a) (f : α → Run ε β) :
    (r >>= f).stopped failure? = r.stopped failure? >>= fun a => (f a).stopped failure? := by
  rw [eq_of_outcome h, ok_bind]
  exact stop_append rfl

/-- Changing a result stops nothing. -/
theorem stopped_map {r : Run ε α} {a : α} (h : r.outcome = .ok a) (f : α → β) :
    (f <$> r).stopped failure? = f <$> r.stopped failure? := by
  rw [map_eq_pure_bind, map_eq_pure_bind, stopped_bind h]
  rfl

end Run

namespace Engine

variable {ε η : Type}

/-- An engine with another error policy. -/
def under (e : Engine η) (policy : ErrorPolicy) : Engine η :=
  { e with config := { e.config with onError := policy } }

@[simp] theorem handler?_under (e : Engine η) (policy : ErrorPolicy) (name : Text) :
    (e.under policy).handler? name = e.handler? name := rfl

@[simp] theorem contains_under (e : Engine η) (policy : ErrorPolicy) :
    (e.under policy).contains = e.contains := rfl

/-- An engine has the policy that it has. -/
theorem under_onError (e : Engine η) : e.under e.config.onError = e := rfl

/-- The failure of the handler that a call goes to, if it fails. -/
def failure? (render : Render ε η) (e : Engine η) (call : Call) : Option ε :=
  match e.handler? call.tag with
  | some handler =>
    match render handler call.attrs call.content with
    | .ok _ => none
    | .error cause => some cause
  | none => none

variable (render : Render ε η) (e : Engine η)

/-! ## Isolated failures -/

section

variable {inner : Text → Run ε Text}

/-- Where every content is expanded, each handler gets something for the content of its
    tag. -/
theorem exists_hands (hinner : ∀ raw, ∃ out, (inner raw).outcome = .ok out)
    (raw : Option Text) : ∃ content, Hands inner raw content := by
  cases raw with
  | none => exact ⟨none, rfl⟩
  | some raw =>
    obtain ⟨expanded, hexpanded⟩ := hinner raw
    exact ⟨some expanded, expanded, hexpanded, rfl⟩

/-- Where failures are isolated, a tag is replaced whatever its handler does. -/
theorem exists_ok_dispatch_isolate (hinner : ∀ raw, ∃ out, (inner raw).outcome = .ok out)
    (tag : Tag) : ∃ out, ((e.under .isolate).dispatch render inner tag).outcome = .ok out := by
  cases hhandler : (e.under .isolate).handler? tag.name with
  | none => exact ⟨tag.source, by rw [dispatch, hhandler]; rfl⟩
  | some handler =>
    obtain ⟨content, hcontent⟩ := exists_hands hinner tag.content
    simp only [outcome_dispatch_eq_ok_iff hhandler, outcome_call_eq_ok_iff]
    cases hanswer : render handler tag.opening.attrs content with
    | ok answer => exact ⟨_, content, hcontent, .inl ⟨answer, hanswer, rfl⟩⟩
    | error cause => exact ⟨_, content, hcontent, .inr ⟨cause, hanswer, rfl, rfl⟩⟩

/-- Where failures are isolated, every row of pieces is put together. -/
theorem exists_ok_assemble_isolate (hinner : ∀ raw, ∃ out, (inner raw).outcome = .ok out)
    (pieces : List Piece) :
    ∃ out, ((e.under .isolate).assemble render inner pieces).outcome = .ok out := by
  induction pieces with
  | nil => exact ⟨[], rfl⟩
  | cons piece pieces ih =>
    obtain ⟨rest, hrest⟩ := ih
    have hpiece : ∃ out, ((e.under .isolate).replace render inner piece).outcome = .ok out := by
      cases piece with
      | text run => exact ⟨run, rfl⟩
      | escaped tag => exact ⟨tag, rfl⟩
      | tag tag => exact exists_ok_dispatch_isolate render e hinner tag
    obtain ⟨answer, hanswer⟩ := hpiece
    rw [assemble_cons]
    exact ⟨answer ++ rest, Run.outcome_bind_eq_ok_iff.2
      ⟨answer, hanswer, Run.outcome_map_eq_ok_iff.2 ⟨rest, hrest, rfl⟩⟩⟩

end

/-- Where failures are isolated, every content is expanded. -/
theorem exists_ok_inner_isolate (depth : Nat) (raw : Text) :
    ∃ out, ((e.under .isolate).inner render depth raw).outcome = .ok out := by
  induction depth generalizing raw with
  | zero => exact ⟨raw, rfl⟩
  | succ depth ih =>
    rw [inner, expandWithin_eq]
    exact exists_ok_assemble_isolate render e ih _

/-- Where failures are isolated, every text is expanded. -/
theorem exists_ok_expandWithin_isolate (depth : Nat) (text : Text) :
    ∃ out, ((e.under .isolate).expandWithin render depth text).outcome = .ok out :=
  exists_ok_inner_isolate render e (depth + 1) text

/-! ## Propagated failures -/

/-- A call that propagates a failure is one that isolates it, stopped. -/
theorem call_propagate {tag : Tag} {handler : η} (h : e.handler? tag.name = some handler)
    (content : Option Text) :
    (e.under .propagate).call render tag handler content =
      ((e.under .isolate).call render tag handler content).stopped (e.failure? render) := by
  have hfailure : e.failure? render ⟨tag.name, tag.opening.attrs, content⟩ =
      match render handler tag.opening.attrs content with
      | .ok _ => none
      | .error cause => some cause := by
    rw [failure?, h]
  cases hanswer : render handler tag.opening.attrs content <;>
    simp [call, Run.stopped, Run.stop, hfailure, hanswer, under]

section

variable {propagating isolating : Text → Run ε Text}

/-- A tag is dispatched up to the first call that fails. -/
theorem dispatch_propagate (hok : ∀ raw, ∃ out, (isolating raw).outcome = .ok out)
    (hinner : ∀ raw, propagating raw = (isolating raw).stopped (e.failure? render)) (tag : Tag) :
    (e.under .propagate).dispatch render propagating tag =
      ((e.under .isolate).dispatch render isolating tag).stopped (e.failure? render) := by
  rw [dispatch, dispatch, handler?_under, handler?_under]
  cases hhandler : e.handler? tag.name with
  | none => rfl
  | some handler =>
    cases tag.content with
    | none => exact call_propagate render e hhandler none
    | some raw =>
      obtain ⟨expanded, hexpanded⟩ := hok raw
      simp only [hinner, call_propagate render e hhandler]
      exact (Run.stopped_bind hexpanded _).symm

/-- Pieces are put together up to the first call that fails. -/
theorem assemble_propagate (hok : ∀ raw, ∃ out, (isolating raw).outcome = .ok out)
    (hinner : ∀ raw, propagating raw = (isolating raw).stopped (e.failure? render))
    (pieces : List Piece) :
    (e.under .propagate).assemble render propagating pieces =
      ((e.under .isolate).assemble render isolating pieces).stopped (e.failure? render) := by
  induction pieces with
  | nil => rfl
  | cons piece pieces ih =>
    obtain ⟨rest, hrest⟩ := exists_ok_assemble_isolate render e hok pieces
    cases piece with
    | text run => exact (congrArg _ ih).trans (Run.stopped_map hrest _).symm
    | escaped tag => exact (congrArg _ ih).trans (Run.stopped_map hrest _).symm
    | tag tag =>
      obtain ⟨answer, hanswer⟩ := exists_ok_dispatch_isolate render e hok tag
      rw [assemble, assemble, Run.stopped_bind hanswer, ih,
        dispatch_propagate render e hok hinner]
      simp only [Run.stopped_map hrest]

end

/-- A content is expanded up to the first call that fails. -/
theorem inner_propagate (depth : Nat) (raw : Text) :
    (e.under .propagate).inner render depth raw =
      ((e.under .isolate).inner render depth raw).stopped (e.failure? render) := by
  induction depth generalizing raw with
  | zero => rfl
  | succ depth ih =>
    rw [inner, inner, expandWithin_eq, expandWithin_eq]
    exact assemble_propagate render e (exists_ok_inner_isolate render e depth) ih _

/-- A text is expanded up to the first call that fails. -/
theorem expandWithin_propagate (depth : Nat) (text : Text) :
    (e.under .propagate).expandWithin render depth text =
      ((e.under .isolate).expandWithin render depth text).stopped (e.failure? render) :=
  inner_propagate render e (depth + 1) text

/-! ## Tags that fail -/

variable {render e}

/-- A call fails if its handler does. -/
theorem failure?_eq_some_iff {call : Call} {handler : η} {cause : ε}
    (h : e.handler? call.tag = some handler) :
    e.failure? render call = some cause ↔
      render handler call.attrs call.content = .error cause := by
  cases hanswer : render handler call.attrs call.content <;> simp [failure?, h, hanswer]

/-- A tag is called with what its content becomes. -/
theorem mem_calls_dispatch {inner : Text → Run ε Text} {tag : Tag} {handler : η}
    {given : Option Text} (h : e.handler? tag.name = some handler)
    (hgiven : Hands inner tag.content given) :
    ⟨tag.name, tag.opening.attrs, given⟩ ∈ (e.dispatch render inner tag).calls := by
  rw [dispatch, h]
  cases hcontent : tag.content with
  | none =>
    rw [hcontent] at hgiven
    obtain rfl := hgiven
    exact List.mem_cons_self
  | some raw =>
    rw [hcontent] at hgiven
    obtain ⟨expanded, hexpanded, rfl⟩ := hgiven
    exact Run.calls_subset_bind_right hexpanded _ List.mem_cons_self

variable (render e)

/-- The tag between the pieces `earlier` and `later` of a content is called, by one of
    the calls `calls`; if that call fails and failures are isolated, the tag stays
    between what the pieces become, as it was written. -/
structure KeepsFailed (calls : List Call) (level : Nat) (content : Text) (earlier : List Piece)
    (tag : Tag) (later : List Piece) : Prop where
  written : content = earlier.flatMap Piece.source ++ (tag.source ++ later.flatMap Piece.source)
  kept : ∃ given first last,
    Hands ((e.under .isolate).inner render level) tag.content given ∧
    ⟨tag.name, tag.opening.attrs, given⟩ ∈ calls ∧
    ((e.under .isolate).assemble render ((e.under .isolate).inner render level) earlier).outcome =
      .ok first ∧
    ((e.under .isolate).assemble render ((e.under .isolate).inner render level) later).outcome =
      .ok last ∧
    (e.failure? render ⟨tag.name, tag.opening.attrs, given⟩ ≠ none →
      ((e.under .isolate).expandWithin render level content).outcome =
        .ok (first ++ (tag.source ++ last)))

variable {e}

/-- A tag in a content is called where the content is expanded, and kept if it fails. -/
theorem keepsFailed_of_pieces (level : Nat) {content : Text} {earlier later : List Piece}
    {tag : Tag} (h : Piece.direct e.contains content = earlier ++ .tag tag :: later) :
    e.KeepsFailed render ((e.under .isolate).expandWithin render level content).calls level content
      earlier tag later := by
  have hmem : .tag tag ∈ Piece.direct e.contains content := by
    rw [h]
    exact List.mem_append_right _ List.mem_cons_self
  obtain ⟨handler, hhandler⟩ := Option.isSome_iff_exists.1 (known_of_mem_direct hmem)
  have hpieces := (cut_scan e.contains 0 content).flatMap_source
  have hexpand := expandWithin_eq render (e.under .isolate) level content
  rw [contains_under, h, assemble_append, assemble_cons] at hexpand
  obtain ⟨first, hfirst⟩ :=
    exists_ok_assemble_isolate render e (exists_ok_inner_isolate render e level) earlier
  obtain ⟨last, hlast⟩ :=
    exists_ok_assemble_isolate render e (exists_ok_inner_isolate render e level) later
  obtain ⟨given, hgiven⟩ :=
    exists_hands (exists_ok_inner_isolate render e level) tag.content
  refine ⟨?_, given, first, last, hgiven, ?_, hfirst, hlast, fun hfailure => ?_⟩
  · rw [← hpieces, ← Piece.direct, h, List.flatMap_append, List.flatMap_cons]
    rfl
  · rw [hexpand]
    refine Run.calls_subset_bind_right hfirst _ (Run.calls_subset_bind_left _ _ ?_)
    exact mem_calls_dispatch hhandler hgiven
  · obtain ⟨cause, hcause⟩ := Option.ne_none_iff_exists'.1 hfailure
    have hanswer : render handler tag.opening.attrs given = .error cause :=
      (failure?_eq_some_iff hhandler).1 hcause
    have hhandler' : (e.under .isolate).handler? tag.name = some handler := hhandler
    have hdispatch : ((e.under .isolate).dispatch render
        ((e.under .isolate).inner render level) tag).outcome = .ok tag.source :=
      (outcome_dispatch_eq_ok_iff hhandler').2
        ⟨given, hgiven, outcome_call_eq_ok_iff.2 (.inr ⟨cause, hanswer, rfl, rfl⟩)⟩
    rw [hexpand]
    refine Run.outcome_bind_eq_ok_iff.2 ⟨first, hfirst, Run.outcome_map_eq_ok_iff.2 ⟨_, ?_, rfl⟩⟩
    exact Run.outcome_bind_eq_ok_iff.2
      ⟨_, hdispatch, Run.outcome_map_eq_ok_iff.2 ⟨last, hlast, rfl⟩⟩

end Engine

/-- The expansion of a document that isolates failures always ends well. If none of
    its calls fails, the one that propagates failures is the same run; else the first
    call that fails is the last one there, and its failure is the outcome. And in every
    content that the isolating expansion comes to, a tag whose call fails stays as it
    was written. -/
theorem policies_agree_up_to_failure {ε η : Type} (render : Render ε η) (e : Engine η)
    (text : Text) :
    (∃ out, ((e.under .isolate).expand render text).outcome = .ok out) ∧
    ((∀ call ∈ ((e.under .isolate).expand render text).calls, e.failure? render call = none) →
      (e.under .propagate).expand render text = (e.under .isolate).expand render text) ∧
    (∀ earlier call later cause,
      ((e.under .isolate).expand render text).calls = earlier ++ call :: later →
      (∀ c ∈ earlier, e.failure? render c = none) → e.failure? render call = some cause →
      (e.under .propagate).expand render text =
        ⟨earlier ++ [call], .error ⟨call.tag, cause⟩⟩) ∧
    ∀ level content, Reaches e.contains e.config.maxDepth text level content →
      ∀ earlier tag later, Piece.direct e.contains content = earlier ++ .tag tag :: later →
        e.KeepsFailed render ((e.under .isolate).expand render text).calls level content
          earlier tag later := by
  have hok := Engine.exists_ok_expandWithin_isolate render e e.config.maxDepth text
  have hstopped := Engine.expandWithin_propagate render e e.config.maxDepth text
  refine ⟨hok, fun h => ?_, fun earlier call later cause hcalls hearlier hcall => ?_,
    fun level content hreaches earlier tag later hpieces => ?_⟩
  · exact hstopped.trans (Run.stop_of_forall h)
  · refine hstopped.trans ?_
    rw [Run.stopped, ← Run.stop_of_failure hearlier hcall, ← hcalls]
    rfl
  · -- the calls for a content are calls of the whole run
    obtain ⟨hwritten, given, first, last, hgiven, hcall, hkept⟩ :=
      Engine.keepsFailed_of_pieces render level hpieces
    have hreached : Reaches (e.under .isolate).contains e.config.maxDepth text level content :=
      hreaches
    exact ⟨hwritten, given, first, last, hgiven, (hreached.of_ok hok).2 hcall, hkept⟩

/-- A handler that fails in the content of a tag, and again behind the tag. -/
theorem policies_agree_up_to_nested_failure :
    let e : Engine Bool := ⟨{}, [(['a'], true), (['f'], false)]⟩
    let render : Render Unit Bool := fun answers _ content =>
      if answers then .ok content else .error ()
    let text : Text := "[a]x[f]y[/f][/a][f]".toList
    let content : Text := "x[f]y[/f]".toList
    let calls : List Call :=
      [⟨['f'], ⟨[]⟩, some ['y']⟩, ⟨['a'], ⟨[]⟩, some content⟩, ⟨['f'], ⟨[]⟩, none⟩]
    let tag : Tag := ⟨1, ⟨['f'], []⟩, some ['y']⟩
    (e.under .isolate).expand render text = ⟨calls, .ok "x[f]y[/f][f]".toList⟩ ∧
      (e.under .propagate).expand render text = ⟨[⟨['f'], ⟨[]⟩, some ['y']⟩], .error ⟨['f'], ()⟩⟩ ∧
      e.KeepsFailed render calls 9 content [.text ['x']] tag [] := by
  intro e render text content calls tag
  have htext : Piece.direct e.contains text =
      [.tag ⟨0, ⟨['a'], []⟩, some content⟩, .tag ⟨16, ⟨['f'], []⟩, none⟩] := by decide +kernel
  have hcontent : Piece.direct e.contains content = [.text ['x'], .tag tag] := by decide +kernel
  have hleaf : Piece.direct e.contains ['y'] = [.text ['y']] := by decide +kernel
  have hleafRun : (e.under .isolate).inner render 9 ['y'] = ⟨[], .ok ['y']⟩ := by
    rw [Engine.inner, Engine.expandWithin_eq, Engine.contains_under, hleaf]
    rfl
  have hinner : (e.under .isolate).inner render 10 content =
      ⟨[⟨['f'], ⟨[]⟩, some ['y']⟩], .ok content⟩ := by
    rw [Engine.inner, Engine.expandWithin_eq, Engine.contains_under, hcontent, Engine.assemble,
      Engine.assemble, Engine.dispatch_of_content rfl rfl hleafRun]
    simp only [Engine.call, tag, Opening.attrs_of_empty]
    rfl
  have hrun : (e.under .isolate).expand render text = ⟨calls, .ok "x[f]y[/f][f]".toList⟩ := by
    rw [Engine.expand, show (e.under .isolate).config.maxDepth = 10 from rfl,
      Engine.expandWithin_eq, Engine.contains_under, htext, Engine.assemble, Engine.assemble,
      Engine.dispatch_of_content rfl rfl hinner, Engine.dispatch_of_no_content rfl rfl]
    simp only [Engine.call, Opening.attrs_of_empty]
    rfl
  obtain ⟨-, -, hpropagate, hkept⟩ := policies_agree_up_to_failure render e text
  refine ⟨hrun, hpropagate [] _ _ () (congrArg Run.calls hrun) (by simp) rfl, ?_⟩
  have hreaches : Reaches e.contains e.config.maxDepth text 9 content :=
    .inside (htext ▸ List.mem_cons_self) rfl .here
  have hcalls := hkept 9 content hreaches [.text ['x']] tag [] hcontent
  rwa [hrun] at hcalls

end Shortcode
