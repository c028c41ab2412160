import Shortcode.Proofs.Decomposition
import Shortcode.Proofs.DoubledBrackets

/-!
# Protecting a document

A document that is to be shown as it is written is protected by brackets around each
of its tags. The brackets double those at both ends of a tag, so nothing else in the
document is read in another way: a tag is escaped now, and a bracket that was copied
before is copied still.

A tag with content is escaped as a whole unless its content starts with a `]`, which
would be taken for the bracket that escapes the opening tag alone.

* `Tag.bracketAll`: a text with each of the given tags in brackets.
* `Cut.protect`: the pieces of a protected document are those of the document, each
  tag escaped.
* `expand_protect`: a protected document expands to the document.
-/

namespace Shortcode

/-! ## Brackets around tags -/

/-- The text `t` at offset `start` with each of the tags in brackets of its own. -/
def Tag.bracketAll (start : Nat) (t : Text) : List Tag → Text
  | [] => t
  | tag :: tags =>
    let before := Text.takeSize (tag.start - start) t
    let rest := Text.dropSize (tag.start - start) t
    before ++ '[' :: (Text.takeSize (tag.stop - tag.start) rest ++
      ']' :: bracketAll tag.stop (Text.dropSize (tag.stop - tag.start) rest) tags)

/-- The document with brackets around each of the tags that an expansion replaces. -/
def Engine.protect {η : Type} (e : Engine η) (text : Text) : Text :=
  Tag.bracketAll 0 text (e.tags text)

/-- A character in front of all tags stays in front. -/
theorem Tag.bracketAll_cons {start : Nat} {c : Char} {t : Text} {tags : List Tag}
    (h : ∀ tag ∈ tags, start + c.utf8Size ≤ tag.start) :
    bracketAll start (c :: t) tags = c :: bracketAll (start + c.utf8Size) t tags := by
  cases tags with
  | nil => rfl
  | cons tag tags =>
    have hstart := h tag List.mem_cons_self
    have hsub : tag.start - start - c.utf8Size = tag.start - (start + c.utf8Size) := by omega
    simp only [bracketAll, Text.takeSize, Text.dropSize, hsub,
      if_pos (show c.utf8Size ≤ tag.start - start by omega), List.cons_append]

namespace Piece

/-- A tag in brackets of its own; text stays as it is. -/
def protect : Piece → Piece
  | tag t => escaped t.source
  | text run => text run
  | escaped inner => escaped inner

theorem map_protect_push (c : Char) (pieces : List Piece) :
    (push c pieces).map protect = push c (pieces.map protect) := by
  cases pieces with
  | nil => rfl
  | cons piece pieces => cases piece <;> rfl

/-- A piece that is no text stays a piece with a character in front of all. -/
theorem mem_push {c : Char} {piece : Piece} {pieces : List Piece} (h : piece ∈ pieces)
    (hne : ∀ run, piece ≠ text run) : piece ∈ push c pieces := by
  cases pieces with
  | nil => exact absurd h List.not_mem_nil
  | cons first pieces =>
    rcases List.mem_cons.1 h with rfl | hrest
    · cases piece with
      | text run => exact absurd rfl (hne run)
      | escaped inner => exact List.mem_cons_of_mem _ List.mem_cons_self
      | tag t => exact List.mem_cons_of_mem _ List.mem_cons_self
    · cases first <;> simp [push, hrest]

theorem not_escaped_of_push {c : Char} {pieces : List Piece}
    (h : ∀ inner, escaped inner ∉ push c pieces) (inner : Text) : escaped inner ∉ pieces :=
  fun hmem => h inner (mem_push hmem (by simp))

theorem not_escaped_of_cons {piece : Piece} {pieces : List Piece}
    (h : ∀ inner, escaped inner ∉ piece :: pieces) (inner : Text) : escaped inner ∉ pieces :=
  fun hmem => h inner (List.mem_cons_of_mem _ hmem)

theorem filterMap_tag?_protect (pieces : List Piece) :
    (pieces.map protect).filterMap tag? = [] := by
  rw [List.filterMap_eq_nil_iff]
  intro piece hmem
  obtain ⟨piece, -, rfl⟩ := List.mem_map.1 hmem
  cases piece <;> rfl

end Piece

/-- Protected pieces are put together to the text that they protect, and nothing is
    called. -/
theorem Engine.assemble_map_protect {ε η : Type} (render : Render ε η) (e : Engine η)
    (inner : Text → Run ε Text) {pieces : List Piece}
    (hescaped : ∀ inner, .escaped inner ∉ pieces) :
    e.assemble render inner (pieces.map Piece.protect) =
      ⟨[], .ok (pieces.flatMap Piece.source)⟩ := by
  induction pieces with
  | nil => rfl
  | cons piece pieces ih =>
    have hrest := ih (Piece.not_escaped_of_cons hescaped)
    rw [List.map_cons, assemble_cons, hrest, List.flatMap_cons]
    cases piece with
    | text run => rfl
    | escaped tag => exact absurd List.mem_cons_self (hescaped tag)
    | tag tag => rfl

/-! ## Escaping a tag -/

section

variable {known : Text → Bool} {after rest : Text} {o : Opening}

/-- The opening tag of a tag is read as before where brackets from the end of the tag on
    are doubled. -/
theorem read?_source_append_of_doubled {tag : Tag} {t rest' : Text}
    (hr : Opening.read? t = some (tag.opening, after)) (ht : t = tag.source ++ rest)
    (hrest : Doubled (']' :: rest) (']' :: rest')) :
    Opening.read? (tag.source ++ rest') = some (tag.opening,
      match tag.content with
      | some content => content ++ (closeMarker tag.name ++ rest')
      | none => rest') := by
  have hafter := Tag.after_eq_of_read hr ht
  rw [Tag.source_append]
  cases hcontent : tag.content with
  | none =>
    rw [hcontent] at hafter
    subst hafter
    exact Opening.read?_append_of_doubled hr hrest
  | some content =>
    rw [hcontent] at hafter
    subst hafter
    exact Opening.read?_append_of_doubled hr ((hrest.closeMarker _).append_left content).char

/-- The close marker of a paired tag is found as before where brackets from its end on are
    doubled, wherever the tag stands. -/
theorem closeOf_of_doubled {start : Nat} {content rest' : Text} (hname : isTagName o.name = true)
    (hclose : (⟨start, o, some content⟩ : Tag).close? =
      closeOf start o (content ++ (closeMarker o.name ++ rest)))
    (hrest : Doubled (']' :: rest) (']' :: rest')) (k : Nat) :
    (⟨k, o, some content⟩ : Tag).close? =
      closeOf k o (content ++ (closeMarker o.name ++ rest')) := by
  unfold closeOf at hclose ⊢
  split at hclose
  · exact absurd hclose (by simp [Tag.close?])
  next hself =>
    rw [if_neg hself]
    exact (findClose_of_doubled hname hrest hclose.symm (k + o.source.size)).symm

/-- A paired tag is located as before where brackets from its end on are doubled, wherever
    it stands. -/
theorem locate?_of_doubled {start : Nat} {t rest' content : Text} {l : Located t}
    (hl : locate? Closing.direct known start t = some l) (hcontent : l.tag.content = some content)
    (hrest : Doubled (']' :: l.rest) (']' :: rest')) (k : Nat) :
    ∃ l' : Located (l.tag.source ++ rest'),
      locate? Closing.direct known k (l.tag.source ++ rest') = some l' ∧
        l'.tag.source = l.tag.source ∧ l'.rest = rest' := by
  obtain ⟨after, hr, rfl, hk, ht, hclose⟩ := locate?_direct_eq_some_iff.1 hl
  obtain ⟨-, hname, -⟩ := Opening.read?_eq_some_iff.1 hr
  obtain rfl : after = content ++ (closeMarker l.tag.name ++ l.rest) := by
    rw [Tag.after_eq_of_read hr ht, hcontent]
  have hsource : l.tag.source = (⟨k, l.tag.opening, some content⟩ : Tag).source := by
    rw [Tag.source, Tag.source, hcontent]
    rfl
  have hread := read?_source_append_of_doubled hr ht hrest
  rw [hcontent] at hread
  refine ⟨⟨⟨k, l.tag.opening, some content⟩, rest', Tag.length_lt_source_append _ _⟩,
    locate?_direct_eq_some_iff.2 ⟨_, hread, rfl, hk, congrArg (· ++ rest') hsource, ?_⟩,
    hsource.symm, rfl⟩
  have hclose' : (⟨l.tag.start, l.tag.opening, some content⟩ : Tag).close? =
      closeOf l.tag.start l.tag.opening (content ++ (closeMarker l.tag.name ++ l.rest)) := by
    rw [← hclose, Tag.close?, Tag.close?, hcontent]
    rfl
  exact closeOf_of_doubled hname hclose' hrest k

/-- A located tag in brackets is escaped, unless its content starts with a `]`. -/
theorem escaped?_of_located {start : Nat} {t rest' : Text} {l : Located t}
    (hl : locate? Closing.direct known start t = some l)
    (hcontent : ∀ s, l.tag.content ≠ some (']' :: s)) (hrest : Doubled l.rest rest') (k : Nat) :
    ∃ e : Escaped ('[' :: (l.tag.source ++ ']' :: rest')),
      escaped? Closing.direct known k ('[' :: (l.tag.source ++ ']' :: rest')) = some e ∧
        e.inner = l.tag.source ∧ e.rest = rest' := by
  obtain ⟨after, hr, -, hk, ht, -⟩ := locate?_direct_eq_some_iff.1 hl
  have hread := read?_source_append_of_doubled hr ht hrest.right
  cases hc : l.tag.content with
  | none =>
    rw [hc] at hread
    have hsource : l.tag.source = l.tag.opening.source := by
      rw [Tag.source, hc]
      exact List.append_nil _
    rw [hsource]
    exact escaped?_direct_of_read (hsource ▸ hread) hk k
  | some content =>
    rw [hc] at hread
    obtain ⟨l', hl', hsource, hrest'⟩ := locate?_of_doubled hl hc hrest.right (k + 1)
    -- no `]` stands behind the opening tag: its content or the close marker does
    have hafter : ∀ s, content ++ (closeMarker l.tag.name ++ ']' :: rest') ≠ ']' :: s := by
      intro s hs
      cases content with
      | nil => exact absurd (List.cons.inj hs).1 (by decide)
      | cons c content =>
        rw [(List.cons.inj hs).1] at hc
        exact hcontent _ hc
    obtain ⟨e, he, hinner, herest⟩ := escaped?_direct_of_located hread hk hafter hl' hrest'
    exact ⟨e, he, hinner.trans hsource, herest⟩

end

/-! ## Protected pieces -/

/-- A tag starts and ends with a bracket. -/
theorem Tag.exists_source_eq (tag : Tag) : ∃ s, tag.source = '[' :: (s ++ [']']) := by
  obtain ⟨start, o, content⟩ := tag
  cases content with
  | none => exact ⟨o.name ++ o.body, by simp [source, Opening.source]⟩
  | some content =>
    exact ⟨o.name ++ o.body ++ ']' :: (content ++ '[' :: '/' :: o.name),
      by simp [source, Opening.source, closeMarker, name]⟩

/-- Brackets around a tag double the brackets at its ends. -/
theorem Doubled.bracket {t u : Text} (tag : Tag) (h : Doubled t u) :
    Doubled (tag.source ++ t) ((Piece.escaped tag.source).source ++ u) := by
  obtain ⟨s, hs⟩ := tag.exists_source_eq
  have hdoubled : Doubled ('[' :: (s ++ ']' :: t)) ('[' :: '[' :: (s ++ ']' :: ']' :: u)) :=
    (h.right.append_left s).left
  simpa [Piece.source, hs] using hdoubled

namespace Cut

variable {known : Text → Bool} {start : Nat} {t : Text} {pieces : List Piece}

/-- A protected text is the text with some brackets doubled. -/
theorem doubled_protect (h : Cut known start t pieces)
    (hescaped : ∀ inner, .escaped inner ∉ pieces) :
    Doubled t ((pieces.map Piece.protect).flatMap Piece.source) := by
  induction h with
  | nil => exact .nil
  | char _ _ ih =>
    rw [Piece.map_protect_push, Piece.flatMap_source_push]
    exact (ih (Piece.not_escaped_of_push hescaped)).char
  | escaped _ _ _ => exact absurd List.mem_cons_self (hescaped _)
  | tag _ hl _ ih =>
    obtain ⟨-, -, -, -, ht, -⟩ := locate?_direct_eq_some_iff.1 hl
    have hdoubled := ih (Piece.not_escaped_of_cons hescaped)
    rw [List.map_cons, List.flatMap_cons]
    exact (congrArg (Doubled · _) ht).mpr (hdoubled.bracket _)

/-- No tag of a known name starts a protected text. -/
theorem known_of_read_protect (h : Cut known start t pieces)
    (hescaped : ∀ inner, .escaped inner ∉ pieces) (o : Opening) (after : Text)
    (hr : Opening.read? ((pieces.map Piece.protect).flatMap Piece.source) = some (o, after)) :
    known o.name = false := by
  cases h with
  | nil => exact absurd hr (by simp [Opening.read?, Opening.name?])
  | @char _ c r pieces hnone hrest =>
    rw [Piece.map_protect_push, Piece.flatMap_source_push] at hr
    by_cases hc : c = '['
    · -- the text itself would start with a tag of that name
      subst hc
      have hdoubled := hrest.doubled_protect (Piece.not_escaped_of_push hescaped)
      have hname := Opening.map_name_read?_of_doubled hdoubled
      rw [hr, Option.map_some] at hname
      obtain ⟨⟨o', after'⟩, hr', hname'⟩ := Option.map_eq_some_iff.1 hname.symm
      rw [← hname']
      exact locate?_direct_eq_none_iff.1 (hnone rfl).2 _ _ hr'
    · obtain ⟨ht, -⟩ := Opening.read?_eq_some_iff.1 hr
      exact absurd (List.cons.inj ht).1 hc
  | escaped _ _ => exact absurd List.mem_cons_self (hescaped _)
  | @tag _ _ l pieces _ _ _ =>
    obtain ⟨s, hs⟩ := l.tag.exists_source_eq
    simp only [List.map_cons, List.flatMap_cons, Piece.protect, Piece.source, hs,
      List.cons_append, Opening.read?_bracket] at hr
    exact absurd hr (by simp)

/-- The pieces of a protected text are those of the text, each tag escaped. -/
theorem protect (h : Cut known start t pieces) (hescaped : ∀ inner, .escaped inner ∉ pieces)
    (hcontent : ∀ tag, .tag tag ∈ pieces → ∀ rest, tag.content ≠ some (']' :: rest)) (k : Nat) :
    Cut known k ((pieces.map Piece.protect).flatMap Piece.source) (pieces.map Piece.protect) := by
  induction h generalizing k with
  | nil => exact .nil
  | @char start c r pieces hnone hrest ih =>
    have hescaped' := Piece.not_escaped_of_push hescaped
    have hread := (Cut.char hnone hrest).known_of_read_protect hescaped
    have hreadRest := hrest.known_of_read_protect hescaped'
    rw [Piece.map_protect_push, Piece.flatMap_source_push] at hread ⊢
    -- no tag of a known name starts at the character, and none behind it to be escaped
    refine .char (fun hc => ⟨?_, ?_⟩)
      (ih hescaped' (fun tag h => hcontent tag (Piece.mem_push h (by simp))) _)
    · rw [Option.eq_none_iff_forall_ne_some]
      intro e he
      obtain ⟨inside, o, after, ht, hr, hk, -⟩ := escaped?_direct_eq_some he
      rw [← (List.cons.inj ht).2] at hr
      rw [hreadRest o after hr] at hk
      exact absurd hk (by simp)
    · exact locate?_direct_eq_none_iff.2 hread
  | escaped _ _ _ => exact absurd List.mem_cons_self (hescaped _)
  | @tag start t l pieces _ hl hrest ih =>
    have hescaped' := Piece.not_escaped_of_cons hescaped
    have hrest' := ih hescaped' (fun tag h => hcontent tag (List.mem_cons_of_mem _ h))
    obtain ⟨e, he, hinner, herest⟩ := escaped?_of_located hl (hcontent _ List.mem_cons_self)
      (hrest.doubled_protect hescaped') k
    have hcut := Cut.escaped he (herest ▸ hrest' _)
    rw [hinner] at hcut
    simpa [Piece.source, Piece.protect] using hcut

/-- Brackets around the tags of a text make it the text of its protected pieces. -/
theorem bracketAll_tags (h : Cut known start t pieces)
    (hescaped : ∀ inner, .escaped inner ∉ pieces) :
    Tag.bracketAll start t (pieces.filterMap Piece.tag?) =
      (pieces.map Piece.protect).flatMap Piece.source := by
  induction h with
  | nil => rfl
  | @char start c r pieces _ hrest ih =>
    have hstart := hrest.pairwise_tags.2
    rw [Piece.filterMap_tag?_push, Tag.bracketAll_cons fun tag htag => (hstart tag htag).1,
      ih (Piece.not_escaped_of_push hescaped), Piece.map_protect_push,
      Piece.flatMap_source_push]
  | escaped _ _ _ => exact absurd List.mem_cons_self (hescaped _)
  | @tag start t l pieces _ hl _ ih =>
    obtain ⟨-, -, rfl, -, ht, -⟩ := locate?_direct_eq_some_iff.1 hl
    have hbefore : Text.takeSize (l.tag.start - l.tag.start) t = [] := by
      rw [Nat.sub_self]
      exact Text.takeSize_size_append [] t
    have hbehind : Text.dropSize (l.tag.start - l.tag.start) t = t := by
      rw [Nat.sub_self]
      exact Text.dropSize_size_append [] t
    have hsize : l.tag.stop - l.tag.start = l.tag.source.size := by
      rw [Tag.stop_eq, Nat.add_sub_cancel_left]
    have htake : Text.takeSize l.tag.source.size t = l.tag.source :=
      (congrArg _ ht).trans (Text.takeSize_size_append _ _)
    have hdrop : Text.dropSize l.tag.source.size t = l.rest :=
      (congrArg _ ht).trans (Text.dropSize_size_append _ _)
    rw [Piece.filterMap_tag?_tag, Tag.bracketAll, hbefore, hbehind, hsize, htake, hdrop,
      ih (Piece.not_escaped_of_cons hescaped)]
    simp [Piece.protect, Piece.source]

end Cut

/-- A document without escaped tags in which the content of no tag starts with a `]` is
    protected by brackets around its tags: it expands to what it was, by no call, and
    has no tags. -/
theorem expand_protect {ε η : Type} (render : Render ε η) (e : Engine η) {text : Text}
    (hescaped : ∀ inner, .escaped inner ∉ pieces e.contains text)
    (hcontent : ∀ tag ∈ e.tags text, ∀ rest, tag.content ≠ some (']' :: rest)) :
    e.expand render (e.protect text) = ⟨[], .ok text⟩ ∧ e.tags (e.protect text) = [] := by
  rw [pieces_eq_direct] at hescaped
  have hcut := cut_scan e.contains 0 text
  have hmem (tag : Tag) (h : .tag tag ∈ Piece.direct e.contains text) : tag ∈ e.tags text := by
    rw [e.tags_eq_direct]
    exact List.mem_filterMap.2 ⟨_, h, rfl⟩
  have hprotect : e.protect text =
      ((Piece.direct e.contains text).map Piece.protect).flatMap Piece.source := by
    rw [Engine.protect, e.tags_eq_direct]
    exact hcut.bracketAll_tags hescaped
  -- the pieces of the protected document are those of the document, each tag escaped
  have hpieces : Piece.direct e.contains (e.protect text) =
      (Piece.direct e.contains text).map Piece.protect := by
    rw [hprotect]
    exact (cut_iff.1 (hcut.protect hescaped (fun tag h => hcontent tag (hmem tag h)) 0)).symm
  constructor
  · rw [Engine.expand, Engine.expandWithin_eq, hpieces,
      Engine.assemble_map_protect render e _ hescaped]
    exact congrArg (fun t => (⟨[], .ok t⟩ : Run ε Text)) hcut.flatMap_source
  · rw [e.tags_eq_direct, hpieces, Piece.filterMap_tag?_protect]

/-- A document with a literal bracket in front of a paired tag, one of its own name in
    its content, and a quote that is left open behind it. -/
theorem expand_protect_nested :
    let e : Engine Unit := ⟨{}, [(['b'], ()), (['i'], ())]⟩
    let render : Render Unit Unit := fun _ _ content => .ok content
    let text : Text := "[[b][b/][/b] [i x=\"].".toList
    (∀ inner, .escaped inner ∉ pieces e.contains text) ∧
      (∀ tag ∈ e.tags text, ∀ rest, tag.content ≠ some (']' :: rest)) ∧
      e.protect text = "[[[b][b/][/b]] [[i x=\"]].".toList ∧
      e.expand render (e.protect text) = ⟨[], .ok text⟩ ∧ e.tags (e.protect text) = [] := by
  intro e render text
  have hpieces : pieces e.contains text = [.text ['['], .tag ⟨1, ⟨['b'], []⟩, some "[b/]".toList⟩,
      .text [' '], .tag ⟨13, ⟨['i'], " x=\"".toList⟩, none⟩, .text ['.']] := by
    rw [pieces_eq_direct]
    decide +kernel
  have htags : e.tags text = [⟨1, ⟨['b'], []⟩, some "[b/]".toList⟩,
      ⟨13, ⟨['i'], " x=\"".toList⟩, none⟩] := by
    rw [Engine.tags, tags_eq, hpieces]
    rfl
  have hescaped : ∀ inner, .escaped inner ∉ pieces e.contains text := by
    rw [hpieces]
    simp
  have hcontent : ∀ tag ∈ e.tags text, ∀ rest, tag.content ≠ some (']' :: rest) := by
    rw [htags]
    simp
  refine ⟨hescaped, hcontent, ?_, expand_protect render e hescaped hcontent⟩
  rw [Engine.protect, htags]
  decide +kernel

end Shortcode
