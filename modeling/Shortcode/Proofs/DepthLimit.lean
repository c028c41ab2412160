import Shortcode.Proofs.Unfolding

/-!
# Depth limits that are not reached

The content of a tag stands between an opening tag of three bytes at least and a close
marker of four, so every level of nesting takes seven bytes of the document. Every document
therefore unfolds, and where as many levels are allowed as sevens of bytes fit into it, the
limit is never reached: the expansion is that of the unfolding, which knows of no limit.

* `Tag.size_content_add_le`: the seven bytes around a content.
* `Unfolding.existsUnique_of`: every document unfolds in one way.
* `Reaches.size_add_le`: a content is shorter by seven bytes for each level above it.
* `Engine.expandWithin_eq_unfolding`: a limit that is not reached does not show.
* `depth_limit_unreached`: engines with such limits, their runs, and what is handed over.
-/

namespace Shortcode

/-! ## What nesting costs -/

/-- A name takes at least one byte. -/
theorem one_le_size_of_isTagName {name : Text} (h : isTagName name = true) :
    1 ≤ Text.size name := by
  obtain ⟨c, name, rfl, -⟩ := exists_cons_of_isTagName h
  have hc := c.utf8Size_pos
  rw [Text.size_cons]
  omega

/-- The opening tag and the close marker of a tag take seven bytes at least. -/
theorem Tag.size_content_add_le {tag : Tag} {raw : Text} (hname : isTagName tag.name = true)
    (hraw : tag.content = some raw) : raw.size + 7 ≤ tag.source.size := by
  have hsize := one_le_size_of_isTagName hname
  have hopen : '['.utf8Size = 1 := rfl
  have hclose : ']'.utf8Size = 1 := rfl
  have hslash : '/'.utf8Size = 1 := rfl
  rw [name] at hsize
  simp only [source, hraw, Opening.source, closeMarker, name, Text.size_append, Text.size_cons,
    Text.size_nil, hopen, hclose, hslash]
  omega

/-- The tags among pieces have names that a tag can have. -/
theorem Cut.isTagName_of_mem {known : Text → Bool} {start : Nat} {t : Text} {pieces : List Piece}
    (h : Cut known start t pieces) :
    ∀ tag ∈ pieces.filterMap Piece.tag?, isTagName tag.name = true := by
  induction h with
  | nil => exact fun _ h => absurd h List.not_mem_nil
  | char _ _ ih => rwa [Piece.filterMap_tag?_push]
  | escaped _ _ ih => rwa [Piece.filterMap_tag?_escaped]
  | tag _ hl _ ih =>
    obtain ⟨after, hr, -⟩ := locate?_direct_eq_some_iff.1 hl
    obtain ⟨-, hname, -⟩ := Opening.read?_eq_some_iff.1 hr
    rw [Piece.filterMap_tag?_tag]
    exact List.forall_mem_cons.2 ⟨hname, ih⟩

/-- The content of a tag is seven bytes shorter than the text, at least. -/
theorem size_add_le_of_mem_direct {known : Text → Bool} {text raw : Text} {tag : Tag}
    (hmem : .tag tag ∈ Piece.direct known text) (hraw : tag.content = some raw) :
    raw.size + 7 ≤ text.size := by
  have hcut := cut_scan known 0 text
  have hname := hcut.isTagName_of_mem tag (Piece.mem_filterMap_tag?_iff.2 hmem)
  obtain ⟨before, after, htext⟩ := hcut.source_infix hmem
  calc raw.size + 7 ≤ tag.source.size := Tag.size_content_add_le hname hraw
    _ ≤ text.size := by
      rw [← htext, Text.size_append, Text.size_append]
      omega

/-- A content is shorter than the text that it is reached from by seven bytes for each
    level in between. -/
theorem Reaches.size_add_le {known : Text → Bool} {depth level : Nat} {text content : Text}
    (h : Reaches known depth text level content) :
    ∃ levels, depth = level + levels ∧ content.size + 7 * levels ≤ text.size := by
  induction h with
  | here => exact ⟨0, rfl, Nat.le_refl _⟩
  | inside htag hraw _ ih =>
    obtain ⟨levels, rfl, hsize⟩ := ih
    have hlt := size_add_le_of_mem_direct htag hraw
    exact ⟨levels + 1, rfl, by omega⟩

variable {ε η : Type} {render : Render ε η} {e e' : Engine η}

namespace Unfolding

variable {known : Text → Bool} {pieces : List Piece} {u : Unfolding}

/-! ## Documents unfold -/

/-- Every document unfolds in one way: the contents of its tags are shorter. -/
theorem existsUnique_of (known : Text → Bool) (text : Text) :
    ∃! u, Of known (Shortcode.pieces known text) u := by
  induction hn : text.size using Nat.strong_induction_on generalizing text with
  | _ n ih =>
    subst hn
    obtain ⟨u, hu⟩ : ∃ u, Of known (Shortcode.pieces known text) u := by
      refine exists_of fun tag hmem raw hraw => ?_
      rw [pieces_eq_direct] at hmem
      have hlt := size_add_le_of_mem_direct hmem hraw
      exact (ih raw.size (by omega) raw rfl).exists
    exact ⟨u, hu, fun _ hu' => hu'.unique hu⟩

end Unfolding

namespace Engine

/-- Two engines with the same handlers and the same error policy; their depth limits
    may differ. -/
structure Alike (e e' : Engine η) : Prop where
  handlers : ∀ name, e'.handler? name = e.handler? name
  policy : e'.config.onError = e.config.onError

theorem Alike.contains_eq (h : e.Alike e') : e'.contains = e.contains := by
  funext name
  rw [contains, contains, h.handlers]

end Engine

namespace Unfolding

variable {pieces : List Piece} {u : Unfolding}

/-- What an unfolding expands to hangs on no depth limit. -/
theorem expand_congr (h : e.Alike e') (u : Unfolding) :
    u.expand render e' = u.expand render e := by
  have hhand : ∀ tag content, hand render e' tag content = hand render e tag content := by
    intro tag content
    simp only [hand, settle, h.handlers, h.policy]
  induction u with
  | done => rfl
  | copied run rest ih => rw [expand, expand, ih]
  | single tag rest ih => rw [expand, expand, hhand, ih]
  | paired tag content rest ihContent ihRest =>
    simp only [expand, hhand, ihContent, ihRest]

/-- A handler is called by an engine as it is in an unfolding. -/
theorem hand_of_handler? {tag : Tag} {handler : η} (h : e.handler? tag.name = some handler)
    (content : Option Text) : hand render e tag content = e.call render tag handler content := by
  simp only [hand, h, Engine.call]
  cases render handler tag.opening.attrs content <;> rfl

/-- A tag without content is dispatched by handing over none. -/
theorem dispatch_of_none {inner : Text → Run ε Text} {tag : Tag}
    (hknown : e.contains tag.name = true) (hnone : tag.content = none) :
    e.dispatch render inner tag = hand render e tag none := by
  obtain ⟨handler, hhandler⟩ := Option.isSome_iff_exists.1 hknown
  rw [hand_of_handler? hhandler, Engine.dispatch_of_no_content hhandler hnone]

/-- A tag with a content is dispatched by expanding the content and handing it over. -/
theorem dispatch_of_some {inner : Text → Run ε Text} {tag : Tag} {raw : Text}
    (hknown : e.contains tag.name = true) (hraw : tag.content = some raw) :
    e.dispatch render inner tag =
      inner raw >>= fun expanded => hand render e tag (some expanded) := by
  obtain ⟨handler, hhandler⟩ := Option.isSome_iff_exists.1 hknown
  simp only [hand_of_handler? hhandler, Engine.dispatch, hhandler, hraw]

/-- The tags of a row of pieces have handlers, and all levels in their contents are
    allowed. -/
def Fits (e : Engine η) (depth : Nat) (pieces : List Piece) : Prop :=
  ∀ tag, .tag tag ∈ pieces →
    e.contains tag.name = true ∧ ∀ raw, tag.content = some raw → raw.size / 7 < depth

theorem Fits.tail {depth : Nat} {piece : Piece} (h : Fits e depth (piece :: pieces)) :
    Fits e depth pieces :=
  fun tag hmem => h tag (List.mem_cons_of_mem _ hmem)

/-- As many levels as sevens of bytes fit into a text are all that there are in it. -/
theorem fits_of_size {text : Text} {depth : Nat} (h : text.size / 7 ≤ depth) :
    Fits e depth (Shortcode.pieces e.contains text) := by
  rw [pieces_eq_direct]
  refine fun tag hmem => ⟨known_of_mem_direct hmem, fun raw hraw => ?_⟩
  have hlt := size_add_le_of_mem_direct hmem hraw
  omega

/-- A row of pieces is put together as its unfolding expands, if it fits. -/
theorem Of.assemble_eq (h : Of e.contains pieces u) {depth : Nat} (hfits : Fits e depth pieces) :
    e.assemble render (e.inner render depth) pieces = u.expand render e := by
  induction h generalizing depth with
  | done => rfl
  | text _ ih => rw [Engine.assemble, expand, ih hfits.tail]
  | escaped _ ih => rw [Engine.assemble, expand, ih hfits.tail]
  | @single tag _ _ hnone _ ih =>
    obtain ⟨hknown, -⟩ := hfits tag List.mem_cons_self
    rw [Engine.assemble, expand, dispatch_of_none hknown hnone, ih hfits.tail]
  | @paired tag raw _ content _ hraw _ _ ihContent ihRest =>
    obtain ⟨hknown, hlevels⟩ := hfits tag List.mem_cons_self
    have hsize := hlevels raw hraw
    -- at least one more level is allowed, and the content is put together on that level
    obtain ⟨depth, rfl⟩ := Nat.exists_eq_add_one_of_ne_zero (Nat.ne_zero_of_lt hsize)
    have hcontent : e.inner render (depth + 1) raw = content.expand render e := by
      rw [Engine.inner, Engine.expandWithin_eq, ← pieces_eq_direct]
      exact ihContent (fits_of_size (Nat.le_of_lt_succ hsize))
    rw [Engine.assemble, expand, dispatch_of_some hknown hraw, hcontent, ihRest hfits.tail,
      bind_assoc]

end Unfolding

/-- A limit that is not reached does not show. -/
theorem Engine.expandWithin_eq_unfolding {text : Text} {u : Unfolding}
    (hu : Unfolding.Of e.contains (pieces e.contains text) u) {depth : Nat}
    (hdepth : text.size / 7 ≤ depth) :
    e.expandWithin render depth text = u.expand render e := by
  rw [expandWithin_eq, ← pieces_eq_direct]
  exact hu.assemble_eq (Unfolding.fits_of_size hdepth)

/-- A depth limit of at least as many levels as sevens of bytes fit into a document is
    no limit. Whatever the limit is, a document unfolds in one way, because each content is
    at least seven bytes shorter than the text it is found in. With such a limit the run is
    that of the unfolding, and engines that differ in such limits only make the same run.
    Every content that is handed over belongs to a paired tag, is what the unfolding of that
    tag's content expands to, and comes right behind all calls for it; no content at the
    limit has a tag with a content. -/
theorem depth_limit_unreached {ε η : Type} (render : Render ε η) (e : Engine η) (text : Text) :
    (∃! u, Unfolding.Of e.contains (pieces e.contains text) u) ∧
    (∀ u, Unfolding.Of e.contains (pieces e.contains text) u →
      text.size / 7 ≤ e.config.maxDepth →
      e.expand render text = u.expand render e ∧
      (∀ e', e.Alike e' → text.size / 7 ≤ e'.config.maxDepth →
        e'.expand render text = e.expand render text) ∧
      (∀ call ∈ (e.expand render text).calls, ∀ handed, call.content = some handed →
        ∃ tag raw content, (tag, content) ∈ u.contents ∧ tag.content = some raw ∧
          Unfolding.Of e.contains (pieces e.contains raw) content ∧
          call = ⟨tag.name, tag.opening.attrs, some handed⟩ ∧
          (content.expand render e).outcome = .ok handed ∧
          (content.expand render e).calls ++ [call] <:+: (e.expand render text).calls) ∧
      ∀ level content, Reaches e.contains e.config.maxDepth text level content →
        ∀ tag ∈ e.tags content, tag.content ≠ none → 0 < level) ∧
    (∀ tag ∈ e.tags text, ∀ raw, tag.content = some raw → raw.size + 7 ≤ text.size) ∧
    ∀ depth level content, Reaches e.contains depth text level content →
      ∃ levels, depth = level + levels ∧ content.size + 7 * levels ≤ text.size := by
  refine ⟨Unfolding.existsUnique_of e.contains text, fun u hu hlimit => ?_, fun tag htag raw => ?_,
    fun _ _ _ => ?_⟩
  · have hexpand : e.expand render text = u.expand render e :=
      Engine.expandWithin_eq_unfolding hu hlimit
    refine ⟨hexpand, fun e' halike hlimit' => ?_, fun call hcall handed hhanded => ?_,
      fun level content hreaches tag htag hraw => ?_⟩
    · rw [← halike.contains_eq] at hu
      rw [hexpand, ← Unfolding.expand_congr halike]
      exact Engine.expandWithin_eq_unfolding hu hlimit'
    · rw [hexpand] at hcall ⊢
      obtain ⟨tag, content, hmem, heq, hcontent, hcalls⟩ :=
        Unfolding.exists_of_mem_calls hcall hhanded
      obtain ⟨raw, hraw, hof⟩ := hu.of_mem_contents hmem
      exact ⟨tag, raw, content, hmem, hraw, hof, heq, hcontent, hcalls⟩
    · obtain ⟨raw, hraw⟩ := Option.ne_none_iff_exists'.1 hraw
      obtain ⟨levels, hlevels, hsize⟩ := hreaches.size_add_le
      have hlt := size_add_le_of_mem_direct (Engine.mem_tags_iff.1 htag) hraw
      omega
  · exact size_add_le_of_mem_direct (Engine.mem_tags_iff.1 htag)
  · exact Reaches.size_add_le

/-- A tag in a tag in a document of fifteen bytes, for which a limit of two levels is as
    good as one of ten: the handler of `a` gets the answer of the handler of `b`. -/
theorem depth_limit_unreached_nested :
    let e : Engine Text := ⟨⟨2, .propagate⟩, [(['a'], ['<']), (['b'], ['|'])]⟩
    let e' : Engine Text := ⟨{}, [(['b'], ['|']), (['a'], ['<'])]⟩
    let render : Render Unit Text := fun mark _ content => .ok (some (mark ++ content.getD []))
    let text : Text := "[a][b]x[/b][/a]".toList
    let content : Text := "[b]x[/b]".toList
    let outer : Tag := ⟨0, ⟨['a'], []⟩, some content⟩
    let tag : Tag := ⟨0, ⟨['b'], []⟩, some ['x']⟩
    let u : Unfolding := .paired outer (.paired tag (.copied ['x'] .done) .done) .done
    let last : Call := ⟨['a'], .empty, some ['|', 'x']⟩
    (e.Alike e' ∧ text.size / 7 = 2 ∧ Unfolding.Of e.contains (pieces e.contains text) u ∧
        Reaches e.contains e.config.maxDepth text 1 content ∧ tag ∈ e.tags content) ∧
      (∀ u', Unfolding.Of e.contains (pieces e.contains text) u' → u' = u) ∧
      (e.expand render text).calls = [⟨['b'], .empty, some ['x']⟩, last] ∧
      (e.expand render text).outcome = .ok ['<', '|', 'x'] ∧
      e'.expand render text = e.expand render text ∧
      (∃ inside : Unfolding, Unfolding.Of e.contains (pieces e.contains content) inside ∧
        (inside.expand render e).outcome = .ok ['|', 'x'] ∧
        (inside.expand render e).calls ++ [last] <:+: (e.expand render text).calls) ∧ 0 < 1 ∧
      Text.size ['x'] + 7 ≤ content.size ∧ content.size + 7 ≤ text.size := by
  intro e e' render text content outer tag u last
  have halike : e.Alike e' := by
    refine ⟨fun name => ?_, rfl⟩
    by_cases ha : name = ['a']
    · rw [ha]
      rfl
    · have ha' : (name == ['a']) = false := by simpa using ha
      by_cases hb : name = ['b']
      · rw [hb]
        rfl
      · have hb' : (name == ['b']) = false := by simpa using hb
        simp only [e, e', Engine.handler?, List.lookup_cons, List.lookup_nil, ha', hb']
  have htext : Piece.direct e.contains text = [.tag outer] := by decide +kernel
  have hcontent : Piece.direct e.contains content = [.tag tag] := by decide +kernel
  have hx : Piece.direct e.contains ['x'] = [.text ['x']] := by decide +kernel
  have hu : Unfolding.Of e.contains (pieces e.contains text) u := by
    rw [pieces_eq_direct, htext]
    refine .paired rfl ?_ .done
    rw [pieces_eq_direct, hcontent]
    refine .paired rfl ?_ .done
    rw [pieces_eq_direct, hx]
    exact .text .done
  have htag : tag ∈ e.tags content := by
    rw [Engine.mem_tags_iff, hcontent]
    exact List.mem_cons_self
  have hreaches : Reaches e.contains e.config.maxDepth text 1 content :=
    .inside (htext ▸ List.mem_cons_self) rfl .here
  have hsize : text.size / 7 ≤ 2 := by decide
  obtain ⟨hunique, hunlimited, -, hshorter⟩ := depth_limit_unreached render e text
  obtain ⟨hexpand, hsame, hhanded, hlevels⟩ := hunlimited u hu hsize
  obtain ⟨-, -, hinside, -⟩ := depth_limit_unreached render e content
  have hcalls : (e.expand render text).calls = [⟨['b'], .empty, some ['x']⟩, last] := by
    rw [hexpand]
    decide +kernel
  have houtcome : (e.expand render text).outcome = .ok ['<', '|', 'x'] := by
    rw [hexpand]
    rfl
  have hlast : last ∈ (e.expand render text).calls := by
    rw [hcalls]
    exact List.mem_cons_of_mem _ List.mem_cons_self
  obtain ⟨tag', raw, inside, hmem, hraw, hof, heq, hout, hbehind⟩ := hhanded last hlast _ rfl
  -- of the two paired tags only the outer one has the name of the last call
  obtain rfl : raw = content := by
    rcases List.mem_cons.1 hmem with hinner | houter
    · obtain ⟨rfl, -⟩ := Prod.mk.inj hinner
      exact absurd (congrArg Call.tag heq) (by decide)
    · obtain ⟨rfl, -⟩ := Prod.mk.inj (List.mem_singleton.1 houter)
      exact (Option.some.inj hraw).symm
  obtain ⟨levels, hlevel, hbound⟩ := hshorter _ 1 content hreaches
  obtain rfl : levels = 1 := (Nat.add_left_cancel (hlevel : 1 + 1 = 1 + levels)).symm
  exact ⟨⟨halike, by decide, hu, hreaches, htag⟩, fun u' hu' => hunique.unique hu' hu, hcalls,
    houtcome, hsame e' halike (by decide), ⟨inside, hof, hout, hbehind⟩,
    hlevels 1 content hreaches tag htag (by simp [tag]), hinside tag htag _ rfl, hbound⟩

end Shortcode
