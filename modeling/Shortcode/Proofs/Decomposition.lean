import Shortcode.Proofs.Expansion

/-!
# Documents are made of their pieces

A document is the row of its pieces as written, each tag of it stands where its
offsets say, and an expansion is the row of what takes the place of the pieces.
So what is listed as the tags of a document is what an expansion replaces, and
nothing else of the document is touched.

* `Piece.Placed`: every tag of a row of pieces starts where the pieces in front of
  it end.
* `Tag.LiesIn`: the places of a tag are places of the text, and hold what they
  should.
* `expansion_replaces_tags`: pieces, places and expansion of a document.
-/

namespace Shortcode

/-! ## Places -/

namespace Piece

/-- Every tag of a row of pieces that starts at an offset stands at its own offset. -/
def Placed : Nat → List Piece → Prop
  | _, [] => True
  | start, piece :: pieces =>
    (∀ tag, piece = .tag tag → tag.start = start) ∧ Placed (start + piece.source.size) pieces

theorem placed_push {start : Nat} {c : Char} {pieces : List Piece} :
    Placed start (push c pieces) ↔ Placed (start + c.utf8Size) pieces := by
  cases pieces with
  | nil => simp [push, Placed]
  | cons piece pieces => cases piece <;> simp [push, Placed, source, Nat.add_assoc]

theorem tag?_eq_some_iff {piece : Piece} {t : Tag} : piece.tag? = some t ↔ piece = tag t := by
  cases piece <;> simp [tag?]

theorem mem_filterMap_tag?_iff {pieces : List Piece} {t : Tag} :
    t ∈ pieces.filterMap tag? ↔ tag t ∈ pieces := by
  simp [List.mem_filterMap, tag?_eq_some_iff]

theorem mem_of_mem_push {c : Char} {inner : Text} {pieces : List Piece}
    (h : escaped inner ∈ push c pieces) : escaped inner ∈ pieces := by
  cases pieces with
  | nil => simp [push] at h
  | cons piece pieces => cases piece <;> simpa [push] using h

end Piece

/-- The places of a tag are places of the text `t`: none lies inside a character,
    they follow each other, and the name, the brackets and the close marker stand
    where they should. -/
structure Tag.LiesIn (tag : Tag) (t : Text) : Prop where
  opens : ∃ rest, t.from? tag.start = some ('[' :: (tag.name ++ rest))
  start_le : tag.start ≤ tag.openEnd
  bracket : ∃ rest, t.from? (tag.openEnd - 1) = some (']' :: rest) ∧
    t.from? tag.openEnd = some rest
  closes : ∀ span, tag.close? = some span → tag.openEnd ≤ span.start ∧ span.start ≤ span.stop ∧
    span.stop = tag.stop ∧ ∃ rest, t.from? span.start = some (closeMarker tag.name ++ rest) ∧
      t.from? span.stop = some rest
  content : ∀ content, tag.content = some content → ∃ rest, t.from? tag.openEnd =
    some (content ++ (closeMarker tag.name ++ rest))
  unpaired : tag.close? = none → tag.stop = tag.openEnd
  selfClosing : tag.opening.selfClosing = true → tag.close? = none
  stop_le : tag.stop ≤ t.size

/-- A tag that stands in the text at its offset, and has no close marker if it is
    self-closing, lies in the text. -/
theorem Tag.liesIn_of_source {tag : Tag} {t rest : Text}
    (hsource : t.from? tag.start = some (tag.source ++ rest))
    (hself : tag.opening.selfClosing = true → tag.close? = none) : tag.LiesIn t := by
  have hstop : t.from? tag.stop = some rest := by
    rw [Tag.stop_eq]
    exact Text.from?_of_append hsource
  rw [Tag.source_append] at hsource
  have hopens : ∃ rest, t.from? tag.start = some ('[' :: (tag.name ++ rest)) := by
    rw [hsource]
    simp only [Opening.source, Tag.name, List.cons_append, List.append_assoc]
    exact ⟨_, rfl⟩
  have hopenEnd := Text.from?_of_append hsource
  rw [← Tag.openEnd] at hopenEnd
  -- the last character of the opening tag takes one byte
  have hbracket : ∃ u, tag.opening.source = u ++ [']'] ∧ tag.openEnd - 1 = tag.start + u.size := by
    refine ⟨'[' :: (tag.name ++ tag.opening.body), by simp [Opening.source, Tag.name], ?_⟩
    have hclose : ']'.utf8Size = 1 := rfl
    simp only [Tag.openEnd, Opening.source, Tag.name, Text.size_cons, Text.size_append,
      Text.size_nil, hclose]
    omega
  refine ⟨hopens, Nat.le_add_right _ _, ?_, ?_, ?_, ?_, hself, ?_⟩
  · obtain ⟨u, hu, hsize⟩ := hbracket
    rw [hu, List.append_assoc] at hsource
    rw [hsize]
    exact ⟨_, Text.from?_of_append hsource, hopenEnd⟩
  · intro span hspan
    obtain ⟨content, hcontent, rfl⟩ := Option.map_eq_some_iff.1 hspan
    rw [hcontent] at hopenEnd
    have hmarker := Text.from?_of_append hopenEnd
    refine ⟨Nat.le_add_right _ _, Nat.le_add_right _ _, ?_, _, hmarker, ?_⟩
    · simp [Tag.stop, Tag.close?, hcontent]
    · exact Text.from?_of_append hmarker
  · intro content hcontent
    rw [hcontent] at hopenEnd
    exact ⟨_, hopenEnd⟩
  · intro hnone
    rw [Tag.stop, hnone]
    rfl
  · obtain ⟨before, rfl, hbefore⟩ := Text.from?_eq_some_iff.1 hstop
    rw [Text.size_append, ← hbefore]
    exact Nat.le_add_right _ _

namespace Cut

variable {known : Text → Bool} {start : Nat} {t : Text} {pieces : List Piece}

/-- The pieces as written make up the text. -/
theorem flatMap_source (h : Cut known start t pieces) : pieces.flatMap Piece.source = t := by
  induction h with
  | nil => rfl
  | char _ _ ih => rw [Piece.flatMap_source_push, ih]
  | escaped he _ ih => rw [List.flatMap_cons, ih, ← append_of_escaped? he]
  | tag _ hl _ ih =>
    obtain ⟨-, -, -, -, happend, -⟩ := locate?_direct_eq_some_iff.1 hl
    rw [List.flatMap_cons, ih]
    exact happend.symm

/-- Every tag stands at its own offset. -/
theorem placed (h : Cut known start t pieces) : Piece.Placed start pieces := by
  induction h with
  | nil => trivial
  | char _ _ ih => exact Piece.placed_push.2 ih
  | escaped _ _ ih =>
    refine ⟨fun _ h => absurd h (by simp), ?_⟩
    rwa [size_source_escaped, ← Nat.add_assoc]
  | @tag start t l pieces _ hl _ ih =>
    obtain ⟨-, -, hstart, -⟩ := locate?_direct_eq_some_iff.1 hl
    refine ⟨fun tag h => ?_, ?_⟩
    · obtain rfl := Piece.tag.inj h
      exact hstart
    · rwa [Tag.stop_eq, hstart] at ih

/-- The tags stand one behind the other, all behind the start of the text. -/
theorem pairwise_tags (h : Cut known start t pieces) :
    (pieces.filterMap Piece.tag?).Pairwise (fun a b => a.stop ≤ b.start) ∧
      ∀ tag ∈ pieces.filterMap Piece.tag?, start ≤ tag.start ∧ tag.start < tag.stop := by
  induction h with
  | nil => exact ⟨List.Pairwise.nil, fun _ h => absurd h List.not_mem_nil⟩
  | char _ _ ih =>
    rw [Piece.filterMap_tag?_push]
    exact ⟨ih.1, fun tag htag => ⟨Nat.le_of_add_right_le (ih.2 tag htag).1, (ih.2 tag htag).2⟩⟩
  | escaped _ _ ih =>
    rw [Piece.filterMap_tag?_escaped]
    refine ⟨ih.1, fun tag htag => ⟨?_, (ih.2 tag htag).2⟩⟩
    have := (ih.2 tag htag).1
    omega
  | @tag start t l pieces _ hl _ ih =>
    obtain ⟨-, -, hstart, -⟩ := locate?_direct_eq_some_iff.1 hl
    -- every tag takes its first bracket at least
    have hlt : l.tag.start < l.tag.stop := by
      rw [Tag.stop_eq]
      have := '['.utf8Size_pos
      simp only [Tag.source, Opening.source, Text.size_append, Text.size_cons]
      omega
    rw [Piece.filterMap_tag?_tag]
    refine ⟨List.pairwise_cons.2 ⟨fun tag htag => (ih.2 tag htag).1, ih.1⟩, fun tag htag => ?_⟩
    rcases List.mem_cons.1 htag with rfl | htag
    · exact ⟨hstart.ge, hlt⟩
    · have := ih.2 tag htag
      omega

/-- The tags have known names and lie in any text of which `t` is the rest. -/
theorem liesIn (h : Cut known start t pieces) {whole : Text} (hwhole : whole.from? start = some t) :
    ∀ tag ∈ pieces.filterMap Piece.tag?, known tag.name = true ∧ tag.LiesIn whole := by
  induction h with
  | nil => exact fun _ h => absurd h List.not_mem_nil
  | @char start c r pieces _ _ ih =>
    rw [Piece.filterMap_tag?_push]
    exact ih (Text.from?_of_append (s := [c]) hwhole)
  | @escaped start t e pieces he _ ih =>
    rw [Piece.filterMap_tag?_escaped]
    refine ih ?_
    rw [Nat.add_assoc, ← size_source_escaped]
    exact Text.from?_of_append (append_of_escaped? he ▸ hwhole)
  | @tag start t l pieces _ hl _ ih =>
    obtain ⟨after, hr, rfl, hk, happend, hclose⟩ := locate?_direct_eq_some_iff.1 hl
    rw [Piece.filterMap_tag?_tag]
    have htag : whole.from? l.tag.start = some (l.tag.source ++ l.rest) := happend ▸ hwhole
    intro tag hmem
    rcases List.mem_cons.1 hmem with rfl | hmem
    · refine ⟨hk, Tag.liesIn_of_source htag fun hself => ?_⟩
      rw [hclose, closeOf, if_pos hself]
    · refine ih ?_ tag hmem
      rw [Tag.stop_eq]
      exact Text.from?_of_append htag

/-- What is escaped is a tag of a known name as written. -/
theorem exists_tag_of_escaped (h : Cut known start t pieces) {inner : Text}
    (hmem : .escaped inner ∈ pieces) : ∃ tag : Tag, known tag.name = true ∧ inner = tag.source := by
  induction h with
  | nil => exact absurd hmem List.not_mem_nil
  | char _ _ ih => exact ih (Piece.mem_of_mem_push hmem)
  | @escaped start t e pieces he _ ih =>
    rcases List.mem_cons.1 hmem with hinner | hmem
    · obtain rfl := Piece.escaped.inj hinner
      obtain ⟨inside, o, after, -, -, hk, -, ⟨-, hsource⟩ | ⟨l, hl, -, hsource⟩⟩ :=
        escaped?_direct_eq_some he
      · exact ⟨⟨start + 1, o, none⟩, hk, by rw [hsource, Tag.source, List.append_nil]⟩
      · obtain ⟨-, -, -, hk, -⟩ := locate?_direct_eq_some_iff.1 hl
        exact ⟨l.tag, hk, hsource⟩
    · exact ih hmem
  | tag _ _ _ ih =>
    rcases List.mem_cons.1 hmem with hinner | hmem
    · exact absurd hinner (by simp)
    · exact ih hmem

end Cut

/-! ## Expansions -/

namespace Engine

variable {ε η : Type} {render : Render ε η} {e : Engine η}

/-- The tags of a document are among its pieces. -/
theorem mem_tags_iff {text : Text} {tag : Tag} :
    tag ∈ e.tags text ↔ .tag tag ∈ Piece.direct e.contains text := by
  rw [e.tags_eq_direct, Piece.mem_filterMap_tag?_iff]

/-- What takes the place of a piece: text stays, an escaped tag loses its outer
    brackets, and a tag becomes the answer of its handler, or stays as it is if the
    handler fails and failures are isolated. -/
inductive Becomes (render : Render ε η) (e : Engine η) (inner : Text → Run ε Text) :
    Piece → Text → Prop
  | text (run : Text) : Becomes render e inner (.text run) run
  | escaped (tag : Text) : Becomes render e inner (.escaped tag) tag
  | answered {tag : Tag} {handler : η} {content answer : Option Text}
      (hhandler : e.handler? tag.name = some handler) (hcontent : Hands inner tag.content content)
      (hanswer : render handler tag.opening.attrs content = .ok answer) :
      Becomes render e inner (.tag tag) (answer.getD [])
  | kept {tag : Tag} {handler : η} {content : Option Text} {cause : ε}
      (hhandler : e.handler? tag.name = some handler) (hcontent : Hands inner tag.content content)
      (hcause : render handler tag.opening.attrs content = .error cause)
      (hpolicy : e.config.onError = .isolate) :
      Becomes render e inner (.tag tag) tag.source

theorem becomes_of_replace {inner : Text → Run ε Text} {piece : Piece} {answer : Text}
    (hknown : ∀ tag, piece = .tag tag → e.contains tag.name = true)
    (h : (e.replace render inner piece).outcome = .ok answer) :
    Becomes render e inner piece answer := by
  cases piece with
  | text run =>
    obtain rfl := Except.ok.inj h
    exact .text run
  | escaped tag =>
    obtain rfl := Except.ok.inj h
    exact .escaped tag
  | tag tag =>
    obtain ⟨handler, hhandler⟩ := Option.isSome_iff_exists.1 (hknown tag rfl)
    obtain ⟨content, hcontent, hcall⟩ := (outcome_dispatch_eq_ok_iff hhandler).1 h
    rcases outcome_call_eq_ok_iff.1 hcall with ⟨answer, ha, rfl⟩ | ⟨cause, hc, hp, rfl⟩
    · exact .answered hhandler hcontent ha
    · exact .kept hhandler hcontent hc hp

end Engine

/-- A document splits into text, escaped tags and its listed tags, each of these once
    and at its own offset, and an expansion that ends well is the row of what takes
    their places. The listed tags have known names, stand one behind the other, and
    lie in the document. -/
theorem expansion_replaces_tags {ε η : Type} (render : Render ε η) (e : Engine η) (text : Text) :
    (∀ out, (e.expand render text).outcome = .ok out →
      ∃ pieces answers, pieces.flatMap Piece.source = text ∧
        pieces.filterMap Piece.tag? = e.tags text ∧ Piece.Placed 0 pieces ∧
        (∀ inner, .escaped inner ∈ pieces →
          ∃ tag : Tag, e.contains tag.name = true ∧ inner = tag.source) ∧
        List.Forall₂ (e.Becomes render (e.inner render e.config.maxDepth)) pieces answers ∧
        out = answers.flatten) ∧
    (e.tags text).Pairwise (fun a b => a.stop ≤ b.start) ∧
    ∀ tag ∈ e.tags text, tag.start < tag.stop ∧ e.contains tag.name = true ∧ tag.LiesIn text := by
  have hcut := cut_scan e.contains 0 text
  have htags := e.tags_eq_direct text
  have hlies := hcut.liesIn (Text.from?_size_append [] text)
  obtain ⟨hpairwise, hstop⟩ := hcut.pairwise_tags
  refine ⟨fun out h => ?_, ?_, fun tag htag => ?_⟩
  · rw [Engine.expand, Engine.expandWithin_eq] at h
    obtain ⟨answers, hanswers, rfl⟩ := Engine.outcome_assemble_eq_ok_iff.1 h
    refine ⟨Piece.direct e.contains text, answers, hcut.flatMap_source, htags.symm, hcut.placed,
      fun inner => hcut.exists_tag_of_escaped, ?_, rfl⟩
    -- no tag is located whose name is not bound, so each has a handler
    have hknown : ∀ piece ∈ Piece.direct e.contains text, ∀ tag, piece = .tag tag →
        e.contains tag.name = true := by
      rintro _ hmem tag rfl
      exact (hlies tag (List.mem_filterMap.2 ⟨_, hmem, rfl⟩)).1
    exact (List.forall₂_and_left _ _ |>.2 ⟨hknown, hanswers⟩).imp fun _ _ h =>
      Engine.becomes_of_replace h.1 h.2
  · rw [htags]
    exact hpairwise
  · rw [htags] at htag
    exact ⟨(hstop tag htag).2, hlies tag htag⟩

/-- A document with an escaped tag and a paired one. -/
theorem expansion_replaces_bold :
    let e : Engine Unit := ⟨{}, [(['b'], ())]⟩
    let render : Render Unit Unit := fun _ _ content => .ok content
    let text : Text := "[[b]] [b]x[/b]".toList
    let tag : Tag := ⟨6, ⟨['b'], []⟩, some ['x']⟩
    ((e.expand render text).outcome = .ok "[b] x".toList ∧ tag ∈ e.tags text) ∧
      (∃ pieces answers, pieces.flatMap Piece.source = text ∧
        pieces.filterMap Piece.tag? = e.tags text ∧ Piece.Placed 0 pieces ∧
        (∀ inner, .escaped inner ∈ pieces →
          ∃ tag : Tag, e.contains tag.name = true ∧ inner = tag.source) ∧
        List.Forall₂ (e.Becomes render (e.inner render e.config.maxDepth)) pieces answers ∧
        "[b] x".toList = answers.flatten) ∧
      tag.start < tag.stop ∧ e.contains tag.name = true ∧ tag.LiesIn text := by
  intro e render text tag
  have hpieces : Piece.direct e.contains text =
      [.escaped "[b]".toList, .text [' '], .tag tag] := by decide +kernel
  have hcontent : Piece.direct e.contains ['x'] = [.text ['x']] := by decide +kernel
  have hinner : e.inner render e.config.maxDepth ['x'] = ⟨[], .ok ['x']⟩ := by
    rw [show e.config.maxDepth = 9 + 1 from rfl, Engine.inner, Engine.expandWithin_eq, hcontent]
    rfl
  have hout : (e.expand render text).outcome = .ok "[b] x".toList := by
    rw [Engine.expand, Engine.expandWithin_eq, hpieces]
    refine Engine.outcome_assemble_eq_ok_iff.2
      ⟨["[b]".toList, [' '], ['x']], .cons rfl (.cons rfl (.cons ?_ .nil)), rfl⟩
    have hhandler : e.handler? tag.name = some () := rfl
    refine (Engine.outcome_dispatch_eq_ok_iff hhandler).2 ⟨some ['x'], ?_, rfl⟩
    exact ⟨['x'], congrArg Run.outcome hinner, rfl⟩
  have hmem : tag ∈ e.tags text := by
    rw [Engine.tags_eq_direct, hpieces]
    exact List.mem_singleton.2 rfl
  obtain ⟨hexpand, -, htags⟩ := expansion_replaces_tags render e text
  exact ⟨⟨hout, hmem⟩, hexpand _ hout, htags tag hmem⟩

end Shortcode
