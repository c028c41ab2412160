import Shortcode.Proofs.Decomposition

/-!
# Contents within contents

The expansion of a document expands the contents of its paired tags, the contents of
the tags in those, and so on down to the depth limit. Each of these contents is a
part of the document as it was written: no answer of a handler is among them.

* `Reaches`: the contents that an expansion comes to.
* `Engine.assemble_append`: rows of pieces are put together one behind the other.
* `Engine.assemble_congr`: what a row of pieces becomes hangs on the handlers of its tags
  and on how their contents are expanded.
* `Reaches.of_ok`: where a document expands, so does every content in it, and the
  calls for the content are among those for the document.
* `Engine.writtenIn_of_mem_calls_inner`: what is called is written in the document.
-/

namespace Shortcode

/-- From a text that stands `depth` levels above the depth limit, an expansion comes
    to the text `content`, which stands `level` levels above it. -/
inductive Reaches (known : Text → Bool) : Nat → Text → Nat → Text → Prop
  /-- The text itself. -/
  | here {depth : Nat} {text : Text} : Reaches known depth text depth text
  /-- What is reached from the content of one of its tags. -/
  | inside {depth level : Nat} {text raw content : Text} {tag : Tag}
      (htag : .tag tag ∈ Piece.direct known text) (hraw : tag.content = some raw)
      (hreaches : Reaches known depth raw level content) :
      Reaches known (depth + 1) text level content

namespace Run

variable {ε α β : Type}

/-- A run that has ended well is given by its calls and its result. -/
theorem eq_of_outcome {r : Run ε α} {a : α} (h : r.outcome = .ok a) : r = ⟨r.calls, .ok a⟩ := by
  obtain ⟨calls, outcome⟩ := r
  rw [← h]

theorem bind_assoc {γ : Type} (r : Run ε α) (f : α → Run ε β) (g : β → Run ε γ) :
    r >>= f >>= g = r >>= fun a => f a >>= g := by
  change (r.bind f).bind g = r.bind fun a => (f a).bind g
  obtain ⟨calls, outcome⟩ := r
  cases outcome with
  | error failure => rfl
  | ok a => cases h : (f a).outcome <;> simp [Run.bind, h]

/-- A run begins with the calls of its first part. -/
theorem calls_prefix_bind (r : Run ε α) (f : α → Run ε β) : r.calls <+: (r >>= f).calls := by
  change r.calls <+: (r.bind f).calls
  cases h : r.outcome with
  | ok a => exact ⟨_, (calls_bind_ok h f).symm⟩
  | error failure => exact ⟨[], by rw [bind_error h, List.append_nil]⟩

theorem calls_subset_bind_left (r : Run ε α) (f : α → Run ε β) : r.calls ⊆ (r >>= f).calls :=
  (calls_prefix_bind r f).subset

/-- A run ends with the calls behind a part that has ended well. -/
theorem calls_suffix_bind {r : Run ε α} {a : α} (h : r.outcome = .ok a) (f : α → Run ε β) :
    (f a).calls <:+ (r >>= f).calls :=
  ⟨r.calls, (calls_bind_ok h f).symm⟩

theorem calls_subset_bind_right {r : Run ε α} {a : α} (h : r.outcome = .ok a)
    (f : α → Run ε β) : (f a).calls ⊆ (r >>= f).calls :=
  (calls_suffix_bind h f).subset

/-- A call of a run is one of its first part, or one behind a first part that has ended
    well. -/
theorem mem_calls_bind {r : Run ε α} {f : α → Run ε β} {call : Call}
    (h : call ∈ (r >>= f).calls) :
    call ∈ r.calls ∨ ∃ a, r.outcome = .ok a ∧ call ∈ (f a).calls := by
  change call ∈ (r.bind f).calls at h
  cases hr : r.outcome with
  | ok a =>
    rw [calls_bind_ok hr, List.mem_append] at h
    exact h.imp id fun hlater => ⟨a, rfl, hlater⟩
  | error failure =>
    rw [bind_error hr] at h
    exact .inl h

instance : LawfulMonad (Run ε) :=
  LawfulMonad.mk' (Run ε) id_map (fun _ _ => rfl) bind_assoc (fun _ _ => rfl) (fun _ _ => rfl)
    (fun _ _ => rfl) fun f r => (map_eq_bind f r).symm

end Run

namespace Engine

variable {ε η : Type} {render : Render ε η} {e : Engine η} {inner : Text → Run ε Text}

/-- Rows of pieces are put together one behind the other. -/
theorem assemble_append (earlier later : List Piece) :
    e.assemble render inner (earlier ++ later) = (do
      let first ← e.assemble render inner earlier
      (first ++ ·) <$> e.assemble render inner later) := by
  induction earlier with
  | nil =>
    change _ = (fun last => last) <$> _
    rw [Run.id_map, List.nil_append]
  | cons piece earlier ih =>
    rw [List.cons_append, assemble_cons, assemble_cons, ih, bind_assoc]
    simp only [map_bind, bind_map_left, Run.map_map, List.append_assoc]

/-- A row of one piece is what takes the place of that piece. -/
theorem assemble_singleton (piece : Piece) :
    e.assemble render inner [piece] = e.replace render inner piece := by
  rw [assemble_cons, assemble]
  simp only [map_pure, List.append_nil, bind_pure]

/-- Where a row of pieces expands, so does each of them, by calls that are among those
    for the row. -/
theorem replace_of_mem {pieces : List Piece} {piece : Piece} {out : Text}
    (hmem : piece ∈ pieces) (hout : (e.assemble render inner pieces).outcome = .ok out) :
    (∃ answer, (e.replace render inner piece).outcome = .ok answer) ∧
      (e.replace render inner piece).calls ⊆ (e.assemble render inner pieces).calls := by
  obtain ⟨earlier, later, rfl⟩ := List.append_of_mem hmem
  rw [assemble_append, assemble_cons] at hout ⊢
  obtain ⟨first, hfirst, hrest⟩ := Run.outcome_bind_eq_ok_iff.1 hout
  obtain ⟨last, hlast, -⟩ := Run.outcome_map_eq_ok_iff.1 hrest
  obtain ⟨answer, hanswer, -⟩ := Run.outcome_bind_eq_ok_iff.1 hlast
  refine ⟨⟨answer, hanswer⟩, ?_⟩
  -- the row in front of the piece has ended well, so the piece comes after it
  refine List.Subset.trans ?_ (Run.calls_subset_bind_right hfirst _)
  exact Run.calls_subset_bind_left _ _

/-- A tag without content is dispatched by a call. -/
theorem dispatch_of_no_content {tag : Tag} {handler : η} (h : e.handler? tag.name = some handler)
    (hcontent : tag.content = none) :
    e.dispatch render inner tag = e.call render tag handler none := by
  rw [dispatch, h, hcontent]

/-- A tag whose content expands is dispatched by a call behind those for its content. -/
theorem dispatch_of_content {tag : Tag} {handler : η} {raw expanded : Text} {calls : List Call}
    (h : e.handler? tag.name = some handler) (hcontent : tag.content = some raw)
    (hinner : inner raw = ⟨calls, .ok expanded⟩) :
    e.dispatch render inner tag =
      ⟨calls ++ (e.call render tag handler (some expanded)).calls,
        (e.call render tag handler (some expanded)).outcome⟩ := by
  rw [dispatch, h, hcontent]
  exact congrArg (· >>= fun content => e.call render tag handler (some content)) hinner

/-- A content that is expanded for a tag is expanded well where the tag is, by calls
    that are among those for the tag. -/
theorem inner_of_dispatch {tag : Tag} {raw out : Text} (hknown : e.contains tag.name = true)
    (hraw : tag.content = some raw) (hout : (e.dispatch render inner tag).outcome = .ok out) :
    (∃ expanded, (inner raw).outcome = .ok expanded) ∧
      (inner raw).calls ⊆ (e.dispatch render inner tag).calls := by
  obtain ⟨handler, hhandler⟩ := Option.isSome_iff_exists.1 hknown
  obtain ⟨content, hcontent, -⟩ := (outcome_dispatch_eq_ok_iff hhandler).1 hout
  rw [hraw] at hcontent
  obtain ⟨expanded, hexpanded, -⟩ := hcontent
  refine ⟨⟨expanded, hexpanded⟩, ?_⟩
  rw [dispatch, hhandler, hraw]
  exact Run.calls_subset_bind_left _ _

section

variable {e' : Engine η} {inner' : Text → Run ε Text}

/-- A tag is dispatched the same way where its name is bound alike and its content is
    expanded the same way. -/
theorem dispatch_congr {tag : Tag} (hpolicy : e'.config.onError = e.config.onError)
    (hhandler : e'.handler? tag.name = e.handler? tag.name)
    (hinner : ∀ raw, tag.content = some raw → inner' raw = inner raw) :
    e'.dispatch render inner' tag = e.dispatch render inner tag := by
  have hcall : ∀ handler content,
      e'.call render tag handler content = e.call render tag handler content := by
    intro handler content
    rw [call, call, hpolicy]
  rw [dispatch, dispatch, hhandler]
  cases e.handler? tag.name with
  | none => rfl
  | some handler =>
    cases hraw : tag.content with
    | none => exact hcall handler none
    | some raw => simp only [hinner raw hraw, hcall]

/-- Pieces are put together the same way where the names of their tags are bound alike
    and the contents of their tags are expanded the same way. -/
theorem assemble_congr {pieces : List Piece} (hpolicy : e'.config.onError = e.config.onError)
    (h : ∀ tag, .tag tag ∈ pieces → e'.handler? tag.name = e.handler? tag.name ∧
      ∀ raw, tag.content = some raw → inner' raw = inner raw) :
    e'.assemble render inner' pieces = e.assemble render inner pieces := by
  induction pieces with
  | nil => rfl
  | cons piece pieces ih =>
    have hrest := ih fun tag hmem => h tag (List.mem_cons_of_mem _ hmem)
    rw [assemble_cons, assemble_cons, hrest]
    cases piece with
    | text run => rfl
    | escaped tag => rfl
    | tag tag =>
      obtain ⟨hhandler, hinner⟩ := h tag List.mem_cons_self
      rw [replace, replace, dispatch_congr hpolicy hhandler hinner]

end

end Engine

variable {ε η : Type} {render : Render ε η} {e : Engine η}

/-- The tags among the pieces of a text have known names. -/
theorem known_of_mem_direct {known : Text → Bool} {text : Text} {tag : Tag}
    (h : .tag tag ∈ Piece.direct known text) : known tag.name = true := by
  exact ((cut_scan known 0 text).liesIn (Text.from?_size_append [] text) tag
    (Piece.mem_filterMap_tag?_iff.2 h)).1

/-- The content of a tag is a part of the tag as written. -/
theorem Tag.content_infix_source {tag : Tag} {raw : Text} (hraw : tag.content = some raw) :
    raw <:+: tag.source := by
  rw [source, hraw, ← List.append_assoc]
  exact ⟨_, _, rfl⟩

/-- A tag among the pieces of a text is a part of it, as it was written. -/
theorem Cut.source_infix {known : Text → Bool} {start : Nat} {text : Text} {pieces : List Piece}
    {tag : Tag} (hcut : Cut known start text pieces) (h : .tag tag ∈ pieces) :
    tag.source <:+: text := by
  obtain ⟨before, after, rfl⟩ := List.append_of_mem h
  rw [← hcut.flatMap_source, List.flatMap_append, List.flatMap_cons, ← List.append_assoc]
  exact ⟨_, _, rfl⟩

/-- Where a text expands, so does every content that is reached from it, by calls that
    are among those for the text. -/
theorem Reaches.of_ok {depth level : Nat} {text content : Text}
    (h : Reaches e.contains depth text level content)
    (hout : ∃ out, (e.expandWithin render depth text).outcome = .ok out) :
    (∃ out, (e.expandWithin render level content).outcome = .ok out) ∧
      (e.expandWithin render level content).calls ⊆ (e.expandWithin render depth text).calls := by
  induction h with
  | here => exact ⟨hout, List.Subset.refl _⟩
  | @inside depth level text raw content tag htag hraw _ ih =>
    obtain ⟨out, hout⟩ := hout
    rw [Engine.expandWithin_eq render e (depth + 1) text] at hout ⊢
    obtain ⟨⟨answer, hanswer⟩, hcalls⟩ := Engine.replace_of_mem htag hout
    -- the content is expanded for its tag, and all in it for the content
    obtain ⟨hexpanded, htagCalls⟩ :=
      Engine.inner_of_dispatch (known_of_mem_direct htag) hraw hanswer
    obtain ⟨hcontent, hcontentCalls⟩ := ih hexpanded
    exact ⟨hcontent, List.Subset.trans hcontentCalls (List.Subset.trans htagCalls hcalls)⟩

/-! ## What is called -/

/-- A call is one for a tag that is written in a text. -/
def Call.WrittenIn (call : Call) (text : Text) : Prop :=
  ∃ tag : Tag, tag.source <:+: text ∧ tag.name = call.tag ∧ tag.opening.attrs = call.attrs

namespace Engine

section

variable {inner : Text → Run ε Text}

/-- A call for a tag is that of its handler, or one for its content. -/
theorem cases_of_mem_calls_dispatch {tag : Tag} {call : Call}
    (h : call ∈ (e.dispatch render inner tag).calls) :
    (call.tag = tag.name ∧ call.attrs = tag.opening.attrs) ∨
      ∃ raw, tag.content = some raw ∧ call ∈ (inner raw).calls := by
  rw [dispatch] at h
  split at h
  · exact absurd h List.not_mem_nil
  · split at h
    · rw [List.mem_singleton.1 h]
      exact .inl ⟨rfl, rfl⟩
    next raw hraw =>
      rcases Run.mem_calls_bind h with h | ⟨content, -, h⟩
      · exact .inr ⟨raw, hraw, h⟩
      · rw [List.mem_singleton.1 h]
        exact .inl ⟨rfl, rfl⟩

/-- A call for a row of pieces is one for a tag among them. -/
theorem exists_tag_of_mem_calls_assemble {pieces : List Piece} {call : Call}
    (h : call ∈ (e.assemble render inner pieces).calls) :
    ∃ tag, .tag tag ∈ pieces ∧ call ∈ (e.dispatch render inner tag).calls := by
  induction pieces with
  | nil => exact absurd h List.not_mem_nil
  | cons piece pieces ih =>
    have hlater (h : call ∈ (e.assemble render inner pieces).calls) :
        ∃ tag, .tag tag ∈ piece :: pieces ∧ call ∈ (e.dispatch render inner tag).calls := by
      obtain ⟨tag, hmem, hcall⟩ := ih h
      exact ⟨tag, List.mem_cons_of_mem _ hmem, hcall⟩
    cases piece with
    | text run => exact hlater h
    | escaped tag => exact hlater h
    | tag tag =>
      rcases Run.mem_calls_bind h with h | ⟨answer, -, h⟩
      · exact ⟨tag, List.mem_cons_self, h⟩
      · exact hlater h

/-- A call for the pieces of a text is one for a tag that is written in the text, if a
    call for a content is one for a tag that is written in the content. -/
theorem writtenIn_of_mem_calls_assemble {start : Nat} {text : Text} {pieces : List Piece}
    {call : Call} (hcut : Cut e.contains start text pieces)
    (hinner : ∀ raw, call ∈ (inner raw).calls → call.WrittenIn raw)
    (h : call ∈ (e.assemble render inner pieces).calls) : call.WrittenIn text := by
  obtain ⟨tag, hmem, hcall⟩ := exists_tag_of_mem_calls_assemble h
  have hsource := hcut.source_infix hmem
  rcases cases_of_mem_calls_dispatch hcall with ⟨hname, hattrs⟩ | ⟨raw, hraw, hcall⟩
  · exact ⟨tag, hsource, hname.symm, hattrs.symm⟩
  · obtain ⟨tag', hpart, hcall'⟩ := hinner raw hcall
    exact ⟨tag', hpart.trans ((Tag.content_infix_source hraw).trans hsource), hcall'⟩

end

/-- Every call for a content is one for a tag that is written in it: no answer of a
    handler brings one in. -/
theorem writtenIn_of_mem_calls_inner (depth : Nat) {raw : Text} {call : Call}
    (h : call ∈ (e.inner render depth raw).calls) : call.WrittenIn raw := by
  induction depth generalizing raw with
  | zero => exact absurd h List.not_mem_nil
  | succ depth ih =>
    rw [inner, expandWithin_eq] at h
    exact writtenIn_of_mem_calls_assemble (cut_scan e.contains 0 raw) (fun raw => ih) h

end Engine

end Shortcode
