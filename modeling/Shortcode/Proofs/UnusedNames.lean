import Mathlib.Data.List.Infix
import Shortcode.Proofs.Nesting

/-!
# Names that a document does not use

A document *mentions* a name where a `[`, the name and the end of a token stand in it.
Whether a name that it does not mention is bound, and to what, makes no difference to
the document: not to its tags, not to its expansion, not to what is called for it.

A content ends at a close marker, and there a name can come to an end that goes on in
no other way in the document: the content of `[t][n[/t]` is `[n`, which mentions `n`,
though the document does not. So what is passed on from a document to the contents in it
is not that a name is not mentioned, but that it is not *opened*: an opening tag has a
`]`, and none that is whole in a part of a text reads otherwise in the text.

* `Opens.of_part`, `Opens.mentions`: what a part opens the text opens, and mentions.
* `Cut.congr`: a text is cut the same way where the names that it opens are known alike.
* `Engine.expandWithin_congr`: it is expanded the same way where they are bound alike.
* `unused_name_inert`: binding a name that a document does not mention.
-/

namespace Shortcode

/-! ## What a text mentions and what it opens -/

/-- A `[`, the name and the end of a token stand in the text. -/
def Mentions (text name : Text) : Prop :=
  ∃ before after, text = before ++ '[' :: (name ++ after) ∧ endsToken after = true

theorem mentions_iff {text name : Text} :
    Mentions text name ↔
      ∃ t ∈ text.tails, (Text.after? ('[' :: name) t).any endsToken = true := by
  simp only [List.mem_tails, Option.any_eq_true, Text.after?_eq_some_iff]
  constructor
  · rintro ⟨before, after, rfl, hafter⟩
    exact ⟨_, ⟨before, rfl⟩, after, rfl, hafter⟩
  · rintro ⟨_, ⟨before, rfl⟩, after, rfl, hafter⟩
    exact ⟨before, after, rfl, hafter⟩

instance (text name : Text) : Decidable (Mentions text name) :=
  decidable_of_iff _ mentions_iff.symm

/-- An opening tag with the name can be read somewhere in the text, or in a part of it. -/
def Opens (text name : Text) : Prop :=
  ∃ (part : Text) (o : Opening) (rest : Text),
    part <:+: text ∧ Opening.read? part = some (o, rest) ∧ o.name = name

theorem Opens.of_read {t rest : Text} {o : Opening} (h : Opening.read? t = some (o, rest)) :
    Opens t o.name :=
  ⟨t, o, rest, List.infix_rfl, h, rfl⟩

/-- What a part of a text opens the text opens. -/
theorem Opens.of_part {part text name : Text} (h : Opens part name) (hpart : part <:+: text) :
    Opens text name := by
  obtain ⟨part', o, rest, hpart', hread, rfl⟩ := h
  exact ⟨part', o, rest, hpart'.trans hpart, hread, rfl⟩

/-- A name is mentioned where it is opened: behind it stands the body of the opening tag
    or the `]`, whatever follows the part that the tag was read in. -/
theorem Opens.mentions {text name : Text} (h : Opens text name) : Mentions text name := by
  obtain ⟨part, o, rest, ⟨before, after, rfl⟩, hread, rfl⟩ := h
  obtain ⟨rfl, -, hend, -⟩ := Opening.read?_eq_some_iff.1 hread
  refine ⟨before, o.body ++ ']' :: (rest ++ after), by simp, ?_⟩
  cases hbody : o.body with
  | nil => rfl
  | cons c body =>
    rw [hbody] at hend
    exact hend

/-! ## Cutting where names are known alike -/

section

variable {known known' : Text → Bool} {start : Nat} {t : Text}

theorem rest_suffix_of_escaped? {e : Escaped t}
    (h : escaped? Closing.direct known start t = some e) : e.rest <:+ t :=
  ⟨_, (append_of_escaped? h).symm⟩

theorem rest_suffix_of_locate? {l : Located t}
    (h : locate? Closing.direct known start t = some l) : l.rest <:+ t := by
  obtain ⟨-, -, -, -, ht, -⟩ := locate?_direct_eq_some_iff.1 h
  exact ⟨_, ht.symm⟩

theorem locate?_congr (h : ∀ name, Opens t name → known' name = known name) :
    locate? Closing.direct known' start t = locate? Closing.direct known start t := by
  rw [locate?, locate?]
  split
  · rfl
  next o after hread => rw [h _ (.of_read hread)]

theorem escaped?_congr (h : ∀ name, Opens t name → known' name = known name) :
    escaped? Closing.direct known' start t = escaped? Closing.direct known start t := by
  unfold escaped?
  split
  next inside =>
    have hinside : ∀ name, Opens inside name → known' name = known name :=
      fun name hname => h name (hname.of_part (List.suffix_cons _ _).isInfix)
    split
    next o after hread => rw [hinside _ (.of_read hread), locate?_congr hinside]
    · rfl
  · rfl

/-- A text is cut the same way where the names that it opens are known alike. -/
theorem Cut.congr {pieces : List Piece} (hcut : Cut known start t pieces)
    (h : ∀ name, Opens t name → known' name = known name) : Cut known' start t pieces := by
  -- what is left where the scan resumes is the end of the text, so it opens no more
  induction hcut with
  | nil => exact .nil
  | @char start c r pieces hnone _ ih =>
    refine .char (fun hc => ?_) (ih fun name hname => ?_)
    · rw [escaped?_congr h, locate?_congr h]
      exact hnone hc
    · exact h name (hname.of_part (List.suffix_cons _ _).isInfix)
  | @escaped start t e pieces he _ ih =>
    refine .escaped ((escaped?_congr h).trans he) (ih fun name hname => ?_)
    exact h name (hname.of_part (rest_suffix_of_escaped? he).isInfix)
  | @tag start t l pieces he hl _ ih =>
    refine .tag ((escaped?_congr h).trans he) ((locate?_congr h).trans hl) (ih fun name hname => ?_)
    exact h name (hname.of_part (rest_suffix_of_locate? hl).isInfix)

theorem direct_congr (h : ∀ name, Opens t name → known' name = known name) :
    Piece.direct known' t = Piece.direct known t :=
  (cut_iff.1 ((cut_scan known 0 t).congr h)).symm

end

/-- The name of a tag of a text is one that the text opens. -/
theorem Cut.opens_of_mem {known : Text → Bool} {start : Nat} {t : Text} {pieces : List Piece}
    (hcut : Cut known start t pieces) {tag : Tag} (hmem : .tag tag ∈ pieces) :
    Opens t tag.name := by
  induction hcut with
  | nil => exact absurd hmem List.not_mem_nil
  | @char start c r pieces _ _ ih =>
    rw [← Piece.mem_filterMap_tag?_iff, Piece.filterMap_tag?_push,
      Piece.mem_filterMap_tag?_iff] at hmem
    exact (ih hmem).of_part (List.suffix_cons _ _).isInfix
  | @escaped start t e pieces he _ ih =>
    refine (ih ?_).of_part (rest_suffix_of_escaped? he).isInfix
    simpa using hmem
  | @tag start t l pieces _ hl _ ih =>
    rcases List.mem_cons.1 hmem with htag | hmem
    · obtain rfl := Piece.tag.inj htag
      obtain ⟨after, hread, -⟩ := locate?_direct_eq_some_iff.1 hl
      exact .of_read hread
    · exact (ih hmem).of_part (rest_suffix_of_locate? hl).isInfix

/-! ## Expanding where names are bound alike -/

namespace Engine

variable {ε η : Type} {render : Render ε η} {e e' : Engine η}

/-- A text is cut the same way where the names that it opens are bound alike. -/
theorem direct_contains_congr {text : Text}
    (h : ∀ name, Opens text name → e'.handler? name = e.handler? name) :
    Piece.direct e'.contains text = Piece.direct e.contains text := by
  refine direct_congr fun name hname => ?_
  unfold contains
  rw [h name hname]

/-- A text is expanded the same way where the names that it opens are bound alike, if the
    contents in it are. -/
theorem expandWithin_congr_of_inner (hpolicy : e'.config.onError = e.config.onError) {depth : Nat}
    {text : Text} (h : ∀ name, Opens text name → e'.handler? name = e.handler? name)
    (hinner : ∀ raw, raw <:+: text → e'.inner render depth raw = e.inner render depth raw) :
    e'.expandWithin render depth text = e.expandWithin render depth text := by
  rw [expandWithin_eq, expandWithin_eq, direct_contains_congr h]
  have hcut := cut_scan e.contains 0 text
  refine assemble_congr hpolicy fun tag hmem => ⟨h tag.name (hcut.opens_of_mem hmem), ?_⟩
  intro raw hraw
  exact hinner raw ((Tag.content_infix_source hraw).trans (hcut.source_infix hmem))

/-- A text is expanded the same way where the names that it opens are bound alike. -/
theorem expandWithin_congr (hpolicy : e'.config.onError = e.config.onError) (depth : Nat)
    {text : Text} (h : ∀ name, Opens text name → e'.handler? name = e.handler? name) :
    e'.expandWithin render depth text = e.expandWithin render depth text := by
  induction depth generalizing text with
  | zero => exact expandWithin_congr_of_inner hpolicy h fun _ _ => rfl
  | succ depth ih =>
    refine expandWithin_congr_of_inner hpolicy h fun raw hraw => ?_
    -- what a content opens the text opens, though the content may mention more
    exact ih fun name hname => h name (hname.of_part hraw)

end Engine

/-- Binding a name that a document does not mention, or binding it to another handler,
    changes nothing for the document: it is cut into the same pieces, it has the same
    tags, and its expansion makes the same calls and ends the same way. -/
theorem unused_name_inert {ε η : Type} (render : Render ε η) (e : Engine η) {name : Text}
    (hname : isTagName name = true) (handler : η) {text : Text} (hunused : ¬ Mentions text name) :
    ∃ e', e.register name handler = .ok e' ∧ e'.handler? name = some handler ∧
      pieces e'.contains text = pieces e.contains text ∧ e'.tags text = e.tags text ∧
      e'.expand render text = e.expand render text := by
  obtain ⟨e', hregister⟩ : ∃ e', e.register name handler = .ok e' := ⟨_, if_pos hname⟩
  have hconfig := Engine.config_register hregister
  have hhandler := Engine.handler?_register hregister
  have hopens : ∀ other, Opens text other → e'.handler? other = e.handler? other := by
    intro other hother
    rw [hhandler, if_neg]
    rintro rfl
    exact hunused hother.mentions
  have hpieces := Engine.direct_contains_congr hopens
  refine ⟨e', hregister, by rw [hhandler, if_pos rfl], ?_, ?_, ?_⟩
  · rw [pieces_eq_direct, pieces_eq_direct, hpieces]
  · rw [Engine.tags_eq_direct, Engine.tags_eq_direct, hpieces]
  · rw [Engine.expand, Engine.expand, hconfig]
    exact Engine.expandWithin_congr (by rw [hconfig]) _ hopens

/-- A document in which a content ends in `[n`, next to a longer name and a close marker
    of the name. -/
theorem unused_name_inert_cut :
    let e : Engine Text := ⟨{}, [(['t'], ['<'])]⟩
    let render : Render Unit Text := fun mark _ content => .ok (some (mark ++ content.getD []))
    let text : Text := "[t][nn] [[n[/t][/n]".toList
    (isTagName ['n'] = true ∧ ¬ Mentions text ['n'] ∧ Mentions "[nn] [[n".toList ['n']) ∧
      ∃ e', e.register ['n'] ['|'] = .ok e' ∧ e'.handler? ['n'] = some ['|'] ∧
        pieces e'.contains text = pieces e.contains text ∧ e'.tags text = e.tags text ∧
        e'.expand render text = e.expand render text := by
  intro e render text
  have hname : isTagName ['n'] = true := by decide
  have hunused : ¬ Mentions text ['n'] := by decide +kernel
  exact ⟨⟨hname, hunused, by decide +kernel⟩, unused_name_inert render e hname ['|'] hunused⟩

end Shortcode
