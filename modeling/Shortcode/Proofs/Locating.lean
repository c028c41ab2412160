import Shortcode.Markup.Piece
import Shortcode.Proofs.Pairing

/-!
# Locating tags

What the direct readers of tags and of escaped tags find, as equations on the
text they read. A located tag and what is left behind it make up the text, its
offsets count the bytes of its parts, and its close marker is the one that the
search behind the opening tag finds.

* `locate?_direct_eq_some_iff`: what a located tag is.
* `escaped?_direct_eq_some`: what an escaped tag is.
* `escaped?_direct_of_read`, `escaped?_direct_of_located`: an opening tag or a tag in
  brackets is escaped.
-/

namespace Shortcode

namespace Tag

/-- A tag ends as many bytes behind its start as it is long. -/
theorem stop_eq (tag : Tag) : tag.stop = tag.start + tag.source.size := by
  obtain ⟨start, o, content⟩ := tag
  cases content with
  | none => simp [stop, close?, openEnd, source]
  | some content =>
    simp only [stop, close?, openEnd, source, Option.map_some, Option.getD_some, Text.size_append]
    omega

/-- A tag takes at least one character. -/
theorem length_lt_source_append (tag : Tag) (rest : Text) :
    rest.length < (tag.source ++ rest).length := by
  simp only [source, Opening.source, List.length_append, List.length_cons]
  omega

/-- A tag is its opening tag and what stands behind it. -/
theorem source_append {tag : Tag} {t : Text} :
    tag.source ++ t = tag.opening.source ++
      (match tag.content with
        | some content => content ++ (closeMarker tag.name ++ t)
        | none => t) := by
  obtain ⟨start, o, content⟩ := tag
  cases content <;> simp [source, name]

/-- Behind the opening tag of a tag stand its content and its close marker, if it has
    one, and what is left. -/
theorem after_eq_of_read {tag : Tag} {t after rest : Text}
    (hr : Opening.read? t = some (tag.opening, after)) (ht : t = tag.source ++ rest) :
    after = match tag.content with
      | some content => content ++ (closeMarker tag.name ++ rest)
      | none => rest := by
  have hsource := (Opening.source_append_of_read hr).trans ht
  rw [source_append] at hsource
  exact List.append_cancel_left hsource

end Tag

/-- The close marker that a located tag has. -/
def closeOf (start : Nat) (o : Opening) (after : Text) : Option Span :=
  if o.selfClosing then none else findClose o.name (start + o.source.size) after

/-- Behind an opening tag stand its content and its close marker, if it has one. -/
theorem append_of_closeOf {start : Nat} {o : Opening} {after : Text} {span : Span}
    (h : closeOf start o after = some span) :
    ∃ content rest, after = content ++ (closeMarker o.name ++ rest) ∧
      span.start - (start + o.source.size) = content.size ∧
      span.stop - (start + o.source.size) = (content ++ closeMarker o.name).size ∧
      (⟨start, o, some content⟩ : Tag).close? = some span := by
  unfold closeOf at h
  split at h
  · exact absurd h (by simp)
  · obtain ⟨content, rest, hafter, rfl⟩ := append_of_findClose h
    refine ⟨content, rest, hafter, by simp, ?_, rfl⟩
    simp only [Text.size_append]
    omega

namespace Located

variable {t : Text}

/-- A located tag is given by the tag and what is left. -/
theorem eq_of {l l' : Located t} (htag : l.tag = l'.tag) (hrest : l.rest = l'.rest) : l = l' := by
  obtain ⟨tag, rest, shorter⟩ := l
  obtain ⟨tag', rest', shorter'⟩ := l'
  simp only at htag hrest
  subst htag hrest
  rfl

/-- A located tag is given by its opening tag and the place of its close marker. -/
theorem eq_of_close? {l l' : Located t} (hstart : l.tag.start = l'.tag.start)
    (hopening : l.tag.opening = l'.tag.opening) (hclose : l.tag.close? = l'.tag.close?)
    (ht : t = l.tag.source ++ l.rest) (ht' : t = l'.tag.source ++ l'.rest) : l = l' := by
  have hopenEnd : l.tag.openEnd = l'.tag.openEnd := by
    rw [Tag.openEnd, Tag.openEnd, hstart, hopening]
  have hstop : l.tag.stop = l'.tag.stop := by rw [Tag.stop, Tag.stop, hclose, hopenEnd]
  rw [Tag.stop_eq, Tag.stop_eq, hstart, Nat.add_left_cancel_iff] at hstop
  obtain ⟨hsource, hrest⟩ := Text.append_inj_of_size (ht.symm.trans ht') hstop
  -- the close markers end at one place, so the tags take the same text
  refine eq_of ?_ hrest
  obtain ⟨⟨start, o, content⟩, rest, shorter⟩ := l
  obtain ⟨⟨start', o', content'⟩, rest', shorter'⟩ := l'
  simp only at hstart hopening hsource
  subst hstart hopening
  -- both tags are paired or none is, and then the texts tell the contents
  cases content with
  | none =>
    cases content' with
    | none => rfl
    | some c' => exact absurd hclose (by simp [Tag.close?])
  | some c =>
    cases content' with
    | none => exact absurd hclose (by simp [Tag.close?])
    | some c' =>
      have hcontent : c = c' := List.append_cancel_right (List.append_cancel_left hsource)
      rw [hcontent]

end Located

/-- How a located tag is put together. -/
theorem locate?_direct_of_read {known : Text → Bool} {start : Nat} {t after : Text} {o : Opening}
    (h : Opening.read? t = some (o, after)) (hk : known o.name = true) :
    locate? Closing.direct known start t =
      (match closeOf start o after with
        | none => some ⟨⟨start, o, none⟩, after, Opening.length_lt_of_read h⟩
        | some span =>
          some ⟨⟨start, o, some (Text.takeSize (span.start - (start + o.source.size)) after)⟩,
            Text.dropSize (span.stop - (start + o.source.size)) after,
            Nat.lt_of_le_of_lt (Text.length_dropSize_le _ _) (Opening.length_lt_of_read h)⟩) := by
  unfold locate?
  split
  next hr => rw [h] at hr; exact absurd hr (by simp)
  next o' after' hr =>
    rw [h, Option.some.injEq, Prod.mk.injEq] at hr
    obtain ⟨rfl, rfl⟩ := hr
    rw [if_pos hk]
    unfold closeOf
    cases o.selfClosing with
    | true => rfl
    | false =>
      simp only [Closing.direct]
      cases findClose o.name (start + o.source.size) after <;> rfl

/-- Where an opening tag of a known name is read, a tag is located. -/
theorem exists_locate?_direct {known : Text → Bool} {t after : Text} {o : Opening} (start : Nat)
    (hr : Opening.read? t = some (o, after)) (hk : known o.name = true) :
    ∃ l : Located t, locate? Closing.direct known start t = some l ∧ l.tag.opening = o ∧
      l.tag.start = start ∧ t = l.tag.source ++ l.rest ∧ l.tag.close? = closeOf start o after := by
  have hsource := Opening.source_append_of_read hr
  cases hc : closeOf start o after with
  | none =>
    refine ⟨⟨⟨start, o, none⟩, after, Opening.length_lt_of_read hr⟩, ?_, rfl, rfl, ?_, rfl⟩
    · rw [locate?_direct_of_read hr hk, hc]
    · simp [Tag.source, hsource]
  | some span =>
    obtain ⟨content, rest, hafter, hcontent, hmarker, hclose⟩ := append_of_closeOf hc
    have ht : t = (⟨start, o, some content⟩ : Tag).source ++ rest := by
      rw [Tag.source_append, ← hsource, hafter]
      rfl
    have hshorter : rest.length < t.length := ht ▸ Tag.length_lt_source_append _ rest
    refine ⟨⟨⟨start, o, some content⟩, rest, hshorter⟩, ?_, rfl, rfl, ht, hclose⟩
    rw [locate?_direct_of_read hr hk, hc]
    refine congrArg some (Located.eq_of ?_ ?_)
    · simp only [hcontent, hafter, Text.takeSize_size_append]
    · simp only [hmarker, hafter]
      rw [← List.append_assoc, Text.dropSize_size_append]

/-- Nothing is located where no opening tag of a known name is read. -/
theorem locate?_direct_eq_none_iff {known : Text → Bool} {start : Nat} {t : Text} :
    locate? Closing.direct known start t = (none : Option (Located t)) ↔
      ∀ o after, Opening.read? t = some (o, after) → known o.name = false := by
  constructor
  · intro h o after hr
    rw [← Bool.not_eq_true]
    intro hk
    obtain ⟨l, hl, -⟩ := exists_locate?_direct start hr hk
    rw [h] at hl
    exact absurd hl (by simp)
  · intro h
    unfold locate?
    split
    · rfl
    next o after hr =>
      rw [if_neg (by simp [h o after hr])]
      rfl

/-- A tag is located where an opening tag of a known name is read; what is left is
    what stands behind the tag, and its close marker is searched behind its opening
    tag. -/
theorem locate?_direct_eq_some_iff {known : Text → Bool} {start : Nat} {t : Text}
    {l : Located t} :
    locate? Closing.direct known start t = some l ↔
      ∃ after, Opening.read? t = some (l.tag.opening, after) ∧ l.tag.start = start ∧
        known l.tag.name = true ∧ t = l.tag.source ++ l.rest ∧
        l.tag.close? = closeOf start l.tag.opening after := by
  constructor
  · intro h
    by_cases hread : ∃ o after, Opening.read? t = some (o, after) ∧ known o.name = true
    · obtain ⟨o, after, hr, hk⟩ := hread
      obtain ⟨l', hl, rfl, hstart, ht, hclose⟩ := exists_locate?_direct start hr hk
      obtain rfl := Option.some.inj (h.symm.trans hl)
      exact ⟨after, hr, hstart, hk, ht, hclose⟩
    · have hnone : locate? Closing.direct known start t = (none : Option (Located t)) :=
        locate?_direct_eq_none_iff.2 fun o after hr => by
          rw [← Bool.not_eq_true]
          exact fun hk => hread ⟨o, after, hr, hk⟩
      exact absurd (h.symm.trans hnone) (by simp)
  · rintro ⟨after, hr, hstart, hk, ht, hclose⟩
    obtain ⟨l', hl, hopening', hstart', ht', hclose'⟩ := exists_locate?_direct start hr hk
    rw [hl, Located.eq_of_close? (hstart.trans hstart'.symm) hopening'.symm
      (hclose.trans hclose'.symm) ht ht']

/-! ## Escaped tags -/

/-- An escaped tag is a tag of a known name in brackets. If nothing but the bracket
    stands behind its opening tag it is that opening tag alone, and else it is the
    tag located there. -/
theorem escaped?_direct_eq_some {known : Text → Bool} {start : Nat} {t : Text} {e : Escaped t}
    (h : escaped? Closing.direct known start t = some e) :
    ∃ (inside : Text) (o : Opening) (after : Text), t = '[' :: inside ∧
      Opening.read? inside = some (o, after) ∧ known o.name = true ∧
      inside = e.inner ++ ']' :: e.rest ∧
      ((after = ']' :: e.rest ∧ e.inner = o.source) ∨
        ∃ l : Located inside, locate? Closing.direct known (start + 1) inside = some l ∧
          l.rest = ']' :: e.rest ∧ e.inner = l.tag.source) := by
  unfold escaped? at h
  split at h
  next inside =>
    split at h
    next o after hr =>
      split at h
      next hk =>
        have hsource := Opening.source_append_of_read hr
        split at h
        next after' rest hr' =>
          obtain rfl := Option.some.inj h
          exact ⟨inside, o, _, rfl, hr, hk, hsource.symm, .inl ⟨rfl, rfl⟩⟩
        next hne =>
          dsimp only [Bind.bind] at h
          split at h
          next tag rest shorter hl =>
            obtain rfl := Option.some.inj h
            obtain ⟨-, -, -, -, ht, -⟩ := locate?_direct_eq_some_iff.1 hl
            exact ⟨inside, o, _, rfl, hr, hk, ht, .inr ⟨_, hl, rfl, rfl⟩⟩
          · exact absurd h (by simp)
      · exact absurd h (by simp)
    · exact absurd h (by simp)
  · exact absurd h (by simp)

section

variable {known : Text → Bool} {inside after rest : Text} {o : Opening}

/-- An opening tag in brackets is escaped. -/
theorem escaped?_direct_of_read (hr : Opening.read? inside = some (o, ']' :: rest))
    (hk : known o.name = true) (start : Nat) :
    ∃ e : Escaped ('[' :: inside), escaped? Closing.direct known start ('[' :: inside) = some e ∧
      e.inner = o.source ∧ e.rest = rest := by
  rw [escaped?]
  split
  next o' after hr' =>
    obtain ⟨rfl, rfl⟩ := Prod.mk.inj (Option.some.inj (hr.symm.trans hr'))
    rw [if_pos hk]
    exact ⟨_, rfl, rfl, rfl⟩
  next hr' => exact absurd (hr.symm.trans hr') (by simp)

/-- A located tag in brackets is escaped, unless a bracket stands behind its opening tag
    already. -/
theorem escaped?_direct_of_located {start : Nat} {l : Located inside}
    (hr : Opening.read? inside = some (o, after)) (hk : known o.name = true)
    (hafter : ∀ rest, after ≠ ']' :: rest)
    (hl : locate? Closing.direct known (start + 1) inside = some l)
    (hrest : l.rest = ']' :: rest) :
    ∃ e : Escaped ('[' :: inside), escaped? Closing.direct known start ('[' :: inside) = some e ∧
      e.inner = l.tag.source ∧ e.rest = rest := by
  obtain ⟨tag, lrest, shorter⟩ := l
  obtain rfl : lrest = ']' :: rest := hrest
  rw [escaped?]
  split
  next o' after' hr' =>
    obtain ⟨rfl, rfl⟩ := Prod.mk.inj (Option.some.inj (hr.symm.trans hr'))
    rw [if_pos hk]
    split
    · exact absurd rfl (hafter _)
    · rw [hl]
      exact ⟨_, rfl, rfl, rfl⟩
  next hr' => exact absurd (hr.symm.trans hr') (by simp)

end

/-- Where an opening tag is read, no tag is escaped. -/
theorem escaped?_direct_eq_none_of_read {known : Text → Bool} {start : Nat} {t after : Text}
    {o : Opening} (h : Opening.read? t = some (o, after)) :
    escaped? Closing.direct known start t = (none : Option (Escaped t)) := by
  obtain ⟨ht, hname, -⟩ := Opening.read?_eq_some_iff.1 h
  rw [Option.eq_none_iff_forall_ne_some]
  intro e he
  obtain ⟨inside, o', after', ht', hr', -⟩ := escaped?_direct_eq_some he
  obtain ⟨hinside, -⟩ := Opening.read?_eq_some_iff.1 hr'
  obtain ⟨c, n, hn, hc⟩ := exists_cons_of_isTagName hname
  -- a name character stands behind the first bracket, so no second one does
  rw [ht, hn, hinside, List.cons_append, List.cons.injEq, List.cons.injEq] at ht'
  rw [ht'.2.1] at hc
  exact absurd hc (by decide)

/-- An escaped tag in its brackets and what is left behind it make up the text. -/
theorem append_of_escaped? {known : Text → Bool} {start : Nat} {t : Text} {e : Escaped t}
    (h : escaped? Closing.direct known start t = some e) :
    t = (Piece.escaped e.inner).source ++ e.rest := by
  obtain ⟨inside, -, -, rfl, -, -, hin, -⟩ := escaped?_direct_eq_some h
  simp [Piece.source, hin]

/-- The brackets of an escaped tag take two bytes. -/
theorem size_source_escaped (inner : Text) :
    (Piece.escaped inner).source.size = inner.size + 2 := by
  have hopen : '['.utf8Size = 1 := rfl
  have hclose : ']'.utf8Size = 1 := rfl
  simp only [Piece.source, Text.size_cons, Text.size_append, Text.size_nil, hopen, hclose]
  omega

end Shortcode
