import Shortcode.Proofs.Nesting
import Shortcode.Proofs.Shifting

/-!
# What stands behind a tag

Behind a tag a scan resumes with nothing but the rest of the document. Opening tags in
front of it that are still open, close markers that were left over and brackets in
quoted values are all forgotten there: the rest is cut and expanded as a document of
its own, and the document is put together from what is in front of the tag, the tag,
and the rest.

* `Cut.rest_of_append`: what is cut behind a tag is the cut of what stands behind it.
* `Engine.assemble_map_shift`: pieces become the same wherever they stand.
* `rest_stands_alone`: the tags and the expansion of the rest of a document.
-/

namespace Shortcode

/-! ## Cutting behind a tag -/

namespace Piece

/-- A tag behind a character in front of pieces is one of the pieces. -/
theorem exists_of_push_eq_append {c : Char} {pieces before after : List Piece} {t : Tag}
    (h : push c pieces = before ++ tag t :: after) :
    ∃ before', pieces = before' ++ tag t :: after ∧
      before.flatMap source = c :: before'.flatMap source := by
  obtain ⟨first, before, rfl⟩ : ∃ first before', before = first :: before' := by
    refine List.exists_cons_of_ne_nil ?_
    rintro rfl
    cases pieces with
    | nil => simp [push] at h
    | cons piece pieces => cases piece <;> simp [push] at h
  cases pieces with
  | nil => simp [push] at h
  | cons piece pieces =>
    cases piece with
    | text run =>
      obtain ⟨rfl, rfl⟩ := List.cons.inj h
      exact ⟨text run :: before, rfl, rfl⟩
    | escaped inner =>
      obtain ⟨rfl, hrest⟩ := List.cons.inj h
      exact ⟨before, hrest, rfl⟩
    | tag t' =>
      obtain ⟨rfl, hrest⟩ := List.cons.inj h
      exact ⟨before, hrest, rfl⟩

end Piece

/-- What is cut behind a tag is the cut of what stands behind it. -/
theorem Cut.rest_of_append {known : Text → Bool} {start : Nat} {t : Text}
    {before after : List Piece} {tag : Tag} (h : Cut known start t (before ++ .tag tag :: after)) :
    ∃ rest, t = before.flatMap Piece.source ++ (tag.source ++ rest) ∧
      tag.start = start + Text.size (before.flatMap Piece.source) ∧
      Cut known tag.stop rest after := by
  generalize hpieces : before ++ .tag tag :: after = pieces at h
  induction h generalizing before with
  | nil => exact absurd hpieces (by simp)
  | @char start c r pieces _ _ ih =>
    obtain ⟨before', rfl, hsource⟩ := Piece.exists_of_push_eq_append hpieces.symm
    obtain ⟨rest, rfl, hstart, hcut⟩ := ih rfl
    refine ⟨rest, ?_, ?_, hcut⟩
    · rw [hsource, List.cons_append]
    · rw [hsource, Text.size_cons, hstart, Nat.add_assoc]
  | @escaped start t e pieces he _ ih =>
    cases before with
    | nil => exact absurd hpieces (by simp)
    | cons first before =>
      obtain ⟨rfl, rfl⟩ := List.cons.inj hpieces
      obtain ⟨rest, hrest, hstart, hcut⟩ := ih rfl
      refine ⟨rest, ?_, ?_, hcut⟩
      · refine (append_of_escaped? he).trans ?_
        rw [hrest, List.flatMap_cons, List.append_assoc]
      · rw [List.flatMap_cons, Text.size_append, size_source_escaped, hstart]
        omega
  | @tag start t l pieces _ hl hrest ih =>
    obtain ⟨-, -, hstart, -, happend, -⟩ := locate?_direct_eq_some_iff.1 hl
    cases before with
    | nil =>
      obtain ⟨htag, rfl⟩ := List.cons.inj hpieces
      obtain rfl := Piece.tag.inj htag
      exact ⟨l.rest, happend, hstart, hrest⟩
    | cons first before =>
      obtain ⟨rfl, rfl⟩ := List.cons.inj hpieces
      obtain ⟨rest, hrest, hstart', hcut⟩ := ih rfl
      refine ⟨rest, ?_, ?_, hcut⟩
      · rw [List.flatMap_cons, List.append_assoc, ← hrest]
        exact happend
      · rw [List.flatMap_cons, Text.size_append, hstart', Tag.stop_eq, hstart, Nat.add_assoc]
        rfl

/-- Behind a tag, the pieces of a text are those of what stands there, further on by the
    end of the tag. -/
theorem exists_rest_of_direct {known : Text → Bool} {text : Text} {before after : List Piece}
    {tag : Tag} (h : Piece.direct known text = before ++ .tag tag :: after) :
    ∃ rest, text = before.flatMap Piece.source ++ (tag.source ++ rest) ∧
      text.from? tag.stop = some rest ∧
      after = (Piece.direct known rest).map (Piece.shift tag.stop) := by
  have hcut := cut_scan known 0 text
  rw [← Piece.direct, h] at hcut
  obtain ⟨rest, htext, hstart, hrest⟩ := hcut.rest_of_append
  refine ⟨rest, htext, ?_, ?_⟩
  · rw [Text.from?_eq_some_iff]
    refine ⟨before.flatMap Piece.source ++ tag.source, ?_, ?_⟩
    · rw [htext, List.append_assoc]
    · rw [Text.size_append, Tag.stop_eq, hstart, Nat.zero_add]
  · rw [cut_iff.1 hrest, Piece.direct, ← scan_add, Nat.zero_add]

/-! ## Expanding behind a tag -/

namespace Engine

variable {ε η : Type} {render : Render ε η} {e : Engine η} {inner : Text → Run ε Text}

/-- A tag of a document stands among its pieces, between those of the tags in front of it
    and those of the tags behind it. -/
theorem exists_direct_eq_append {text : Text} {earlier later : List Tag} {tag : Tag}
    (h : e.tags text = earlier ++ tag :: later) :
    ∃ before after, Piece.direct e.contains text = before ++ .tag tag :: after ∧
      before.filterMap Piece.tag? = earlier ∧ after.filterMap Piece.tag? = later := by
  rw [e.tags_eq_direct, List.filterMap_eq_append_iff] at h
  obtain ⟨before, behind, hdirect, hbefore, hbehind⟩ := h
  obtain ⟨between, piece, after, rfl, hbetween, hpiece, hafter⟩ :=
    List.filterMap_eq_cons_iff.1 hbehind
  obtain rfl := Piece.tag?_eq_some_iff.1 hpiece
  refine ⟨before ++ between, after, ?_, ?_, hafter⟩
  · rw [hdirect, List.append_assoc]
  · rw [List.filterMap_append, hbefore, List.filterMap_eq_nil_iff.2 hbetween, List.append_nil]

/-- Pieces become the same wherever they stand. -/
theorem assemble_map_shift (d : Nat) (pieces : List Piece) :
    e.assemble render inner (pieces.map (Piece.shift d)) = e.assemble render inner pieces := by
  induction pieces with
  | nil => rfl
  | cons piece pieces ih =>
    have hpiece : e.replace render inner (piece.shift d) = e.replace render inner piece := by
      cases piece <;> rfl
    rw [List.map_cons, assemble_cons, assemble_cons, hpiece, ih]

/-- A document expands to what the pieces in front of a tag become, what takes the place
    of the tag, and the expansion of the rest. -/
theorem expand_eq_of_direct (render : Render ε η) {text rest : Text}
    {before after : List Piece} {tag : Tag}
    (h : Piece.direct e.contains text = before ++ .tag tag :: after)
    (hafter : after = (Piece.direct e.contains rest).map (Piece.shift tag.stop)) :
    e.expand render text = (do
      let first ← e.assemble render (e.inner render e.config.maxDepth) before
      let answer ← e.dispatch render (e.inner render e.config.maxDepth) tag
      let last ← e.expand render rest
      pure (first ++ (answer ++ last))) := by
  have hlast : e.expand render rest =
      e.assemble render (e.inner render e.config.maxDepth) after := by
    rw [hafter, assemble_map_shift, expand, expandWithin_eq]
  rw [hlast, expand, expandWithin_eq, h, assemble_append, assemble]
  simp only [map_eq_pure_bind, bind_assoc, pure_bind]

end Engine

/-- Behind each tag of a document, its pieces and its tags are those of the rest of the
    document read on its own, further on by the end of the tag; and its expansion is that
    of what stands in front of the tag, of the tag and of the rest, one after the other. -/
theorem rest_stands_alone {ε η : Type} (render : Render ε η) {e : Engine η} {text : Text}
    {earlier later : List Tag} {tag : Tag} (h : e.tags text = earlier ++ tag :: later) :
    ∃ before after rest, pieces e.contains text = before ++ .tag tag :: after ∧
      before.filterMap Piece.tag? = earlier ∧
      text = before.flatMap Piece.source ++ (tag.source ++ rest) ∧
      text.from? tag.stop = some rest ∧
      after = (pieces e.contains rest).map (Piece.shift tag.stop) ∧
      later = (e.tags rest).map (Tag.shift tag.stop) ∧
      e.expand render text = (do
        let first ← e.assemble render (e.inner render e.config.maxDepth) before
        let answer ← e.dispatch render (e.inner render e.config.maxDepth) tag
        let last ← e.expand render rest
        pure (first ++ (answer ++ last))) ∧
      ∀ out, (e.expand render text).outcome = .ok out →
        ∃ first answer last,
          (e.assemble render (e.inner render e.config.maxDepth) before).outcome = .ok first ∧
          (e.dispatch render (e.inner render e.config.maxDepth) tag).outcome = .ok answer ∧
          (e.expand render rest).outcome = .ok last ∧ out = first ++ (answer ++ last) := by
  obtain ⟨before, after, hdirect, hearlier, hlater⟩ := Engine.exists_direct_eq_append h
  obtain ⟨rest, htext, hfrom, hafter⟩ := exists_rest_of_direct hdirect
  have hexpand := Engine.expand_eq_of_direct render hdirect hafter
  refine ⟨before, after, rest, ?_, hearlier, htext, hfrom, ?_, ?_, hexpand, fun out hout => ?_⟩
  · rw [pieces_eq_direct, hdirect]
  · rw [pieces_eq_direct, hafter]
  · rw [← hlater, hafter, Piece.filterMap_tag?_map_shift, e.tags_eq_direct]
  · rw [hexpand] at hout
    obtain ⟨first, hfirst, hout⟩ := Run.outcome_bind_eq_ok_iff.1 hout
    obtain ⟨answer, hanswer, hout⟩ := Run.outcome_bind_eq_ok_iff.1 hout
    obtain ⟨last, hlast, hout⟩ := Run.outcome_bind_eq_ok_iff.1 hout
    exact ⟨first, answer, last, hfirst, hanswer, hlast, (Except.ok.inj hout).symm⟩

/-- A tag behind one that stays open, with a tag of that name in its value, and in front
    of a close marker of its own name. -/
theorem rest_stands_alone_unpaired :
    let e : Engine Text := ⟨{}, [(['a'], ['<']), (['b'], ['|'])]⟩
    let render : Render Unit Text := fun mark _ content => .ok (some (mark ++ content.getD []))
    let text : Text := "[a][b x=\"[a]\"/][/b][a]y[/a]".toList
    let rest : Text := "[/b][a]y[/a]".toList
    let tag : Tag := ⟨3, ⟨['b'], " x=\"[a]\"/".toList⟩, none⟩
    let later : Tag := ⟨19, ⟨['a'], []⟩, some ['y']⟩
    (e.tags text = [⟨0, ⟨['a'], []⟩, none⟩] ++ tag :: [later] ∧
        (e.expand render text).outcome = .ok "<|[/b]<y".toList) ∧
      text.from? tag.stop = some rest ∧ [later] = (e.tags rest).map (Tag.shift tag.stop) ∧
      ∃ first answer last, (e.expand render rest).outcome = .ok last ∧
        "<|[/b]<y".toList = first ++ (answer ++ last) := by
  intro e render text rest tag later
  have hpieces : Piece.direct e.contains text =
      [.tag ⟨0, ⟨['a'], []⟩, none⟩, .tag tag, .text "[/b]".toList, .tag later] := by
    decide +kernel
  have hcontent : Piece.direct e.contains ['y'] = [.text ['y']] := by decide +kernel
  have hinner : e.inner render e.config.maxDepth ['y'] = ⟨[], .ok ['y']⟩ := by
    rw [show e.config.maxDepth = 9 + 1 from rfl, Engine.inner, Engine.expandWithin_eq, hcontent]
    rfl
  have hdispatch : (e.dispatch render (e.inner render e.config.maxDepth) later).outcome =
      .ok "<y".toList := by
    rw [Engine.dispatch_of_content rfl rfl hinner]
    rfl
  have htags : e.tags text = [⟨0, ⟨['a'], []⟩, none⟩] ++ tag :: [later] := by
    rw [e.tags_eq_direct, hpieces]
    rfl
  have hout : (e.expand render text).outcome = .ok "<|[/b]<y".toList := by
    rw [Engine.expand, Engine.expandWithin_eq, hpieces, Engine.outcome_assemble_eq_ok_iff]
    refine ⟨["<".toList, "|".toList, "[/b]".toList, "<y".toList], ?_, rfl⟩
    exact .cons rfl (.cons rfl (.cons rfl (.cons hdispatch .nil)))
  obtain ⟨before, after, rest', -, -, -, hfrom, -, hlater, -, hexpand⟩ :=
    rest_stands_alone render htags
  have hrest : text.from? tag.stop = some rest := by decide +kernel
  obtain rfl := Option.some.inj (hrest.symm.trans hfrom)
  obtain ⟨first, answer, last, -, -, hlast, hsplit⟩ := hexpand _ hout
  exact ⟨⟨htags, hout⟩, hrest, hlater, first, answer, last, hlast, hsplit⟩

end Shortcode
