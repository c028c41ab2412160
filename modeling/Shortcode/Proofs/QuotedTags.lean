import Shortcode.Proofs.AttributeValues
import Shortcode.Proofs.BalancedContent
import Shortcode.Proofs.EscapedContent

/-!
# Tags in quoted values

The body of an opening tag ends behind its quoted values, so brackets in them are no
brackets of the text. A search for the close marker of another tag does not look at the
opening tags that it comes by, and meets what stands in their values. So a tag around a
tag with a quoted value gets that tag as its content if and only if the marks of its
name in it are balanced: an opening tag too many takes the close marker, and a close
marker too many ends the content inside the value.

* `Mark.list_append_of_no_quote`: a walk over the marks of a text goes on behind a cut
  without quotes.
* `Mark.Balanced`, `findClose_append_closeMarker`: where the search ends that comes to a
  close marker behind a text.
* `Tag.count_lt_source`: no tag holds fewer brackets than its values, so a tag that is
  torn gives no handler the value that was written.
* `quoted_value_opaque_iff`: when a quoted value is opaque to the tag around its tag.
-/

namespace Shortcode

/-! ## Cuts without quotes -/

namespace Opening

/-- A reading stands right behind a value only where a quote is the last character. -/
theorem exists_isQuote_of_standing {quote : Option Char} {boundary : Bool} {t : Text}
    (hquote : ∀ q, quote = some q → isQuote q = true) (h : standing quote boundary t = .closed) :
    ∃ q, t.getLast? = some q ∧ isQuote q = true := by
  have hlast {c : Char} {t : Text} (h : ∃ q, t.getLast? = some q ∧ isQuote q = true) :
      ∃ q, (c :: t).getLast? = some q ∧ isQuote q = true := by
    obtain ⟨q, ht, hq⟩ := h
    exact ⟨q, by rw [List.getLast?_cons, ht, Option.getD_some], hq⟩
  fun_induction standing quote boundary t with
  | case1 => exact absurd h (by simp)
  | case2 => exact absurd h (by simp)
  | case3 => exact absurd h (by simp)
  | case4 boundary q d t ih => exact hlast (hlast (ih hquote h))
  | case5 boundary t q ht hq =>
    -- the quote that ends the value is the last character
    obtain rfl := List.isEmpty_iff.1 ht
    exact ⟨q, rfl, hquote q rfl⟩
  | case6 boundary t q ht hend hq ih => exact hlast (ih (fun q hq => absurd hq (by simp)) h)
  | case7 => exact absurd h (by simp)
  | case8 boundary c t q hc hq ih => exact hlast (ih hquote h)
  | case9 => exact absurd h (by simp)
  | case10 => exact absurd h (by simp)
  | case11 boundary c t h₁ h₂ hq ih =>
    refine hlast (ih (fun q hq' => ?_) h)
    obtain rfl := Option.some.inj hq'
    exact (Bool.and_eq_true_iff.1 hq).2
  | case12 boundary c t h₁ h₂ hq ih => exact hlast (ih (fun q hq => absurd hq (by simp)) h)

/-- A value without its quote behind it does not end. -/
theorem strict_of_not_mem {q : Char} (boundary : Bool) {u : Text} (h : q ∉ u) :
    strict (some q) boundary u = .unpaired := by
  induction hn : u.length using Nat.strong_induction_on generalizing u with
  | _ n ih =>
    subst hn
    cases u with
    | nil => rfl
    | cons c u =>
      rw [List.mem_cons, not_or] at h
      by_cases hc : c = '\\'
      · subst hc
        cases u with
        | nil => rfl
        | cons d u =>
          have hlt : u.length < ('\\' :: d :: u).length := by
            simp only [List.length_cons]
            omega
          rw [strict_escape, ih _ hlt (fun hu => h.2 (List.mem_cons_of_mem _ hu)) rfl]
          rfl
      · rw [strict_inside hc (Ne.symm h.1), ih u.length (by simp) h.2 rfl]
        rfl

/-- A value that is open at a cut does not end behind it, where no quote stands there. -/
theorem strict_of_standing_inside {quote : Option Char} {boundary : Bool} {t u : Text}
    (hquote : ∀ q, quote = some q → isQuote q = true) (hu : ∀ c ∈ u, isQuote c = false)
    (h : standing quote boundary t = .inside) : strict quote boundary (t ++ u) = .unpaired := by
  have hnot {q : Char} (hq : isQuote q = true) {r : Text} (hr : r ⊆ u) : q ∉ r := fun hmem => by
    rw [hu q (hr hmem)] at hq
    exact absurd hq (by simp)
  fun_induction standing quote boundary t with
  | case1 quote boundary hq =>
    obtain ⟨q, rfl⟩ := Option.isSome_iff_exists.1 hq
    exact strict_of_not_mem boundary (hnot (hquote q rfl) (List.Subset.refl u))
  | case2 => exact absurd h (by simp)
  | case3 boundary q =>
    -- the backslash in front of the cut protects the character behind it
    cases u with
    | nil => rfl
    | cons d u =>
      rw [List.singleton_append, strict_escape,
        strict_of_not_mem boundary (hnot (hquote q rfl) (List.subset_cons_self d u))]
      rfl
  | case4 boundary q d t ih =>
    rw [List.cons_append, List.cons_append, strict_escape, ih hquote h]
    rfl
  | case5 => exact absurd h (by simp)
  | case6 boundary t q ht hend hq ih =>
    -- the value ends in front of the cut, and another one is open there
    cases t with
    | nil => exact absurd rfl ht
    | cons c t =>
      rw [List.cons_append, strict_quote hq, List.cons_append, endsToken_cons_append, if_pos hend,
        ← List.cons_append, ih (fun q hq => absurd hq (by simp)) h]
      rfl
  | case7 => exact absurd h (by simp)
  | case8 boundary c t q hc hq ih =>
    rw [List.cons_append, strict_inside hc hq, ih hquote h]
    rfl
  | case9 => exact absurd h (by simp)
  | case10 => exact absurd h (by simp)
  | case11 boundary c t h₁ h₂ hq ih =>
    obtain ⟨rfl, hc⟩ := Bool.and_eq_true_iff.1 hq
    rw [List.cons_append, strict_open hc, ih (fun q hq' => Option.some.inj hq' ▸ hc) h]
    rfl
  | case12 boundary c t h₁ h₂ hq ih =>
    rw [List.cons_append, strict_pass h₁ h₂ (Bool.not_eq_true _ ▸ hq),
      ih (fun q hq => absurd hq (by simp)) h]
    rfl

/-- A body reads the same on both sides of a cut that has no quote in front of it and
    none behind it. -/
theorem body?_append_of_no_quote {t u : Text} (ht : ∀ c, t.getLast? = some c → isQuote c = false)
    (hu : ∀ c ∈ u, isQuote c = false) :
    body? (t ++ '[' :: u) = (body? t).map fun (body, rest) => (body, rest ++ '[' :: u) := by
  refine body?_append_of_standing (fun hclosed => ?_) fun hinside => ?_
  · obtain ⟨q, hlast, hq⟩ := exists_isQuote_of_standing (fun q hq => absurd hq (by simp)) hclosed
    exact absurd (ht q hlast) (by simp [hq])
  · have hu' : ∀ c ∈ '[' :: u, isQuote c = false := List.forall_mem_cons.2 ⟨by decide, hu⟩
    rw [body?, strict_of_standing_inside (fun q hq => absurd hq (by simp)) hu' hinside]

end Opening

namespace Mark

/-- A walk goes on behind a cut that has no quote in front of it and none behind it with
    the marks of what stands there. -/
theorem list_append_of_no_quote {name t u : Text} (hname : '[' ∉ name) (k : Nat)
    (ht : ∀ c, t.getLast? = some c → isQuote c = false) (hu : ∀ c ∈ u, isQuote c = false) :
    list name k (t ++ '[' :: u) = list name k t ++ list name (k + t.size) ('[' :: u) := by
  have hsuffix {s r : Text} (hs : s <:+ r) (hr : ∀ c, r.getLast? = some c → isQuote c = false) :
      ∀ c, s.getLast? = some c → isQuote c = false := by
    obtain ⟨before, rfl⟩ := hs
    intro c hc
    exact hr c (by rw [List.getLast?_append, hc, Option.some_or])
  -- by strong induction, since a walk that meets a mark goes on behind all of it
  induction hn : t.length using Nat.strong_induction_on generalizing k t with
  | _ n ih =>
    subst hn
    cases t with
    | nil => rw [list_nil, List.nil_append, List.nil_append, Text.size_nil, Nat.add_zero]
    | cons c r =>
      have hbody (body : Text) (h : Opening.name? (c :: r) = some (name, body)) :=
        Opening.body?_append_of_no_quote
          (hsuffix ⟨'[' :: name, Opening.append_of_name h⟩ ht) hu
      have hread := @read?_append_of_body name (c :: r) u k hname (List.cons_ne_nil c r)
        fun body h _ => hbody body h
      cases hr : read? name k (c :: r) with
      | some p =>
        obtain ⟨m, stop, rest⟩ := p
        rw [hr] at hread
        obtain ⟨s, hs, rfl⟩ := append_of_read hr
        have hrest := ih _ (length_lt_of_read hr) (k + s.size) (hsuffix ⟨s, hs.symm⟩ ht) rfl
        rw [list_of_read hread, list_of_read hr, List.cons_append, hrest, hs, Text.size_append,
          Nat.add_assoc]
      | none =>
        rw [hr] at hread
        have hrest := ih _ (by simp) (k + c.utf8Size) (hsuffix (List.suffix_cons c r) ht) rfl
        rw [List.cons_append] at hread
        rw [List.cons_append, list_of_not_read hread, list_of_not_read hr, hrest, Text.size_cons,
          Nat.add_assoc]

/-! ## Balanced marks -/

/-- The marks of a name in a text are balanced: each close marker closes an opening tag
    in front of it, and no opening tag stays open. -/
def Balanced (name t : Text) : Prop :=
  openBehind 0 (list name 0 t) = some 0

instance (name t : Text) : Decidable (Balanced name t) :=
  inferInstanceAs (Decidable (_ = _))

/-- Where a text stands does not matter for what its marks leave open. -/
theorem openBehind_list (name : Text) (k : Nat) (t : Text) :
    openBehind 0 (list name k t) = openBehind 0 (list name 0 t) := by
  have hadd := list_add name 0 k t
  rw [Nat.zero_add] at hadd
  rw [hadd, openBehind_map_shift]

/-- A search ends among marks that close more tags than are open. -/
theorem exists_close?_of_openBehind {pending : Nat} {marks : List Mark}
    (h : openBehind pending marks = none) (later : List Mark) :
    ∃ span, close? pending marks = some span ∧ close? pending (marks ++ later) = some span := by
  induction marks generalizing pending with
  | nil => exact absurd h (by simp [openBehind])
  | cons mark marks ih =>
    cases mark with
    | opens s => exact ih h
    | single s => exact ih h
    | closes span =>
      cases pending with
      | zero => exact ⟨span, rfl, rfl⟩
      | succ n => exact ih h

end Mark

/-- No quote is in a name. -/
theorem isQuote_of_mem_of_isTagName {name : Text} (h : isTagName name = true) {c : Char}
    (hc : c ∈ name) : isQuote c = false := by
  rw [← Bool.not_eq_true]
  intro hq
  refine Opening.not_mem_of_isTagName h ?_ hc
  rcases isQuote_iff.1 hq with rfl | rfl <;> decide

/-- The close marker that is searched in a text with a close marker behind it. It is that
    one where the marks in the text are balanced, and none where they leave a tag open;
    else it is one in the text. -/
theorem findClose_append_closeMarker {name t : Text} (hname : isTagName name = true) (k : Nat)
    (ht : ∀ c, t.getLast? = some c → isQuote c = false) :
    findClose name k (t ++ closeMarker name) =
      match Mark.openBehind 0 (Mark.list name 0 t) with
      | some 0 => some ⟨k + t.size, k + t.size + (closeMarker name).size⟩
      | some (_ + 1) => none
      | none => findClose name k t := by
  have hquote : ∀ c ∈ '/' :: (name ++ [']']), isQuote c = false :=
    List.forall_mem_cons.2 ⟨by decide, List.forall_mem_append.2
      ⟨fun _ => isQuote_of_mem_of_isTagName hname, List.forall_mem_singleton.2 (by decide)⟩⟩
  have hmarker := Mark.list_closeMarker name [] (k + t.size)
  rw [List.append_nil, Mark.list_nil] at hmarker
  have hlist : Mark.list name k (t ++ closeMarker name) =
      Mark.list name k t ++
        [.closes ⟨k + t.size, k + t.size + (closeMarker name).size⟩] := by
    rw [← hmarker]
    exact Mark.list_append_of_no_quote (Opening.bracket_not_mem_of_isTagName hname) k ht hquote
  rw [findClose, hlist, ← Mark.openBehind_list name k t]
  cases h : Mark.openBehind 0 (Mark.list name k t) with
  | none =>
    obtain ⟨span, hclose, happend⟩ := Mark.exists_close?_of_openBehind h
      [.closes ⟨k + t.size, k + t.size + (closeMarker name).size⟩]
    exact happend.trans hclose.symm
  | some n =>
    rw [Mark.close?_append h]
    cases n <;> rfl

/-! ## A tag around a text -/

/-- A text between an opening tag without attributes and its close marker. -/
def enclosed (name t : Text) : Text :=
  (⟨name, []⟩ : Opening).source ++ (t ++ closeMarker name)

section

variable {known : Text → Bool} {name t : Text}

/-- A tag around a text in which its name is balanced has the text as its content. -/
theorem direct_enclosed_of_balanced (hname : isTagName name = true) (hk : known name = true)
    (ht : ∀ c, t.getLast? = some c → isQuote c = false) (h : Mark.Balanced name t) :
    Piece.direct known (enclosed name t) = [.tag ⟨0, ⟨name, []⟩, some t⟩] := by
  let tag : Tag := ⟨0, ⟨name, []⟩, some t⟩
  have hfind := findClose_append_closeMarker hname (0 + tag.opening.source.size) ht
  rw [Mark.Balanced] at h
  rw [h] at hfind
  have htag : enclosed name t = tag.source ++ [] := by
    simp [tag, enclosed, Tag.source, Tag.name]
  have hscan : Piece.direct known (enclosed name t) =
      (.tag tag :: Piece.scan Closing.direct known tag.stop [] : List Piece) :=
    scan_tag_of_read (Opening.read?_bare hname _) rfl hk htag hfind.symm
  rwa [scan_nil] at hscan

/-- A tag around a text that leaves a tag of its name open has no content. -/
theorem direct_enclosed_of_open (hname : isTagName name = true) (hk : known name = true)
    (ht : ∀ c, t.getLast? = some c → isQuote c = false) {n : Nat}
    (h : Mark.openBehind 0 (Mark.list name 0 t) = some (n + 1)) :
    ∃ pieces, Piece.direct known (enclosed name t) = .tag ⟨0, ⟨name, []⟩, none⟩ :: pieces := by
  let tag : Tag := ⟨0, ⟨name, []⟩, none⟩
  have hfind := findClose_append_closeMarker hname (0 + tag.opening.source.size) ht
  rw [h] at hfind
  have htag : enclosed name t = tag.source ++ (t ++ closeMarker name) := by
    simp [tag, enclosed, Tag.source]
  exact ⟨_, scan_tag_of_read (Opening.read?_bare hname _) rfl hk htag hfind.symm⟩

/-- A tag around a text with a close marker of its name too many ends in the text. -/
theorem direct_enclosed_of_closed (hname : isTagName name = true) (hk : known name = true)
    (ht : ∀ c, t.getLast? = some c → isQuote c = false)
    (h : Mark.openBehind 0 (Mark.list name 0 t) = none) :
    ∃ content rest, t = content ++ (closeMarker name ++ rest) ∧
      Piece.direct known (enclosed name t) =
        (.tag ⟨0, ⟨name, []⟩, some content⟩ :: Piece.scan Closing.direct known
          (⟨0, ⟨name, []⟩, some content⟩ : Tag).stop (rest ++ closeMarker name) :
            List Piece) := by
  let k := 0 + (⟨name, []⟩ : Opening).source.size
  have hfind := findClose_append_closeMarker hname k ht
  rw [h] at hfind
  rw [← Mark.openBehind_list name k t] at h
  obtain ⟨span, hclose, -⟩ := Mark.exists_close?_of_openBehind h []
  obtain ⟨content, rest, hcontent, rfl⟩ := append_of_findClose hclose
  refine ⟨content, rest, hcontent, ?_⟩
  have htag : enclosed name t =
      (⟨0, ⟨name, []⟩, some content⟩ : Tag).source ++ (rest ++ closeMarker name) := by
    rw [enclosed, hcontent]
    simp [Tag.source, Tag.name]
  exact scan_tag_of_read (Opening.read?_bare hname _) rfl hk htag
    (hfind.trans hclose).symm

end

/-! ## Brackets of values -/

theorem AttrToken.count_escape {q d : Char} (hd : d ≠ '\\') (v : Text) :
    (escape q v).count d = v.count d := by
  have hd' : ('\\' == d) = false := beq_eq_false_iff_ne.2 (Ne.symm hd)
  induction v with
  | nil => rfl
  | cons c v ih =>
    rw [escape]
    split <;> simp [List.count_cons, ih, hd']

/-- A tag with one written value holds one `[` more than the value. -/
theorem Opening.count_source_written {name : Text} (hname : '[' ∉ name) (k v : Text)
    (hk : '[' ∉ k) (slash : Bool) :
    (written name [('"', .named k v)] slash).source.count '[' = v.count '[' + 1 := by
  have hescape := AttrToken.count_escape (q := '"') (d := '[') (by decide) v
  cases slash <;>
    simp [written, source, AttrToken.writtenList, AttrToken.written, List.count_append,
      List.count_eq_zero_of_not_mem hname, List.count_eq_zero_of_not_mem hk, hescape]

/-- A value of a tag holds fewer `[` than the tag. -/
theorem Tag.count_lt_source {tag : Tag} {k : AttrKey} {v : Text}
    (h : (k, v) ∈ tag.opening.attrs.entries) : v.count '[' < tag.source.count '[' := by
  have hbody := (Opening.sublist_of_mem_attrs h).count_le '['
  simp only [source, Opening.source, List.count_append, List.count_cons, beq_self_eq_true, if_true]
  omega

/-- A value that a handler gets for a tag in a text holds fewer `[` than the text. -/
theorem Call.WrittenIn.count_lt {call : Call} {text v : Text} {k : AttrKey}
    (h : call.WrittenIn text) (hv : (k, v) ∈ call.attrs.entries) :
    v.count '[' < text.count '[' := by
  obtain ⟨tag, hpart, -, hattrs⟩ := h
  rw [← hattrs] at hv
  exact (Tag.count_lt_source hv).trans_le (hpart.sublist.count_le _)

/-! ## A tag around a tag -/

/-- A self-closing tag alone is called, without content. -/
theorem Engine.expandWithin_single {ε η : Type} {render : Render ε η} {e : Engine η}
    {o : Opening} {handler : η} (hread : Opening.read? o.source = some (o, []))
    (hself : o.selfClosing = true) (hhandler : e.handler? o.name = some handler) (depth : Nat) :
    e.expandWithin render depth o.source = e.call render ⟨0, o, none⟩ handler none := by
  let tag : Tag := ⟨0, o, none⟩
  have hk : e.contains tag.name = true := contains_of_handler? hhandler
  have hclose : tag.close? = closeOf 0 o [] := by
    rw [closeOf, if_pos hself]
    rfl
  have hscan : Piece.direct e.contains o.source =
      (.tag tag :: Piece.scan Closing.direct e.contains tag.stop [] : List Piece) :=
    scan_tag_of_read hread rfl hk (by simp [tag, Tag.source]) hclose
  rw [expandWithin_eq, hscan, scan_nil, assemble_singleton, replace]
  exact dispatch_of_no_content hhandler rfl

/-- An opening tag ends with a bracket, which is no quote. -/
theorem Opening.isQuote_of_getLast?_source {o : Opening} {c : Char}
    (h : o.source.getLast? = some c) : isQuote c = false := by
  rw [source, List.getLast?_cons, List.getLast?_concat] at h
  obtain rfl := Option.some.inj h
  decide

section

variable {ε η : Type} {render : Render ε η} {e : Engine η} {name : Text} {outside : η}
  {o : Opening}

/-- Where the name is balanced in a self-closing tag, the tag around it gets the answer for
    that tag as its content. -/
theorem expand_enclosed_of_balanced (render : Render ε η) (he : e.Built)
    (hname : e.handler? name = some outside)
    {inside : η} (hother : e.handler? o.name = some inside) (hdepth : 1 ≤ e.config.maxDepth)
    (hread : Opening.read? o.source = some (o, [])) (hself : o.selfClosing = true)
    (h : Mark.Balanced name o.source) :
    e.expand render (enclosed name o.source) = (do
      let answer ← e.call render ⟨0, o, none⟩ inside none
      e.call render ⟨0, ⟨name, []⟩, some o.source⟩ outside (some answer)) := by
  have hk := Engine.contains_of_handler? hname
  have hpieces := direct_enclosed_of_balanced (he.isTagName_of_contains hk) hk
    (fun _ => Opening.isQuote_of_getLast?_source) h
  have hinner : e.inner render e.config.maxDepth o.source =
      e.call render ⟨0, o, none⟩ inside none := by
    obtain ⟨depth, hmax⟩ := Nat.exists_eq_add_of_le' hdepth
    rw [hmax]
    exact Engine.expandWithin_single hread hself hother depth
  have hhandler : e.handler? (⟨0, ⟨name, []⟩, some o.source⟩ : Tag).name = some outside := hname
  rw [Engine.expand, Engine.expandWithin_eq, hpieces, Engine.assemble_singleton, Engine.replace,
    Engine.dispatch, hhandler, ← hinner]

/-- Where a tag of the name stays open in another tag, the tag around that one is called
    first, and gets no content. -/
theorem prefix_calls_enclosed_of_open (render : Render ε η) (he : e.Built)
    (hname : e.handler? name = some outside) {n : Nat}
    (h : Mark.openBehind 0 (Mark.list name 0 o.source) = some (n + 1)) :
    [⟨name, ⟨[]⟩, none⟩] <+: (e.expand render (enclosed name o.source)).calls := by
  have hk := Engine.contains_of_handler? hname
  obtain ⟨pieces, hpieces⟩ := direct_enclosed_of_open (he.isTagName_of_contains hk) hk
    (fun _ => Opening.isQuote_of_getLast?_source) h
  rw [Engine.expand, Engine.expandWithin_eq, hpieces, Engine.assemble,
    Engine.dispatch_of_no_content hname rfl, ← Opening.attrs_of_empty name]
  exact Run.calls_prefix_bind (e.call render ⟨0, ⟨name, []⟩, none⟩ outside none) _

/-- Where a close marker of the name stands in another tag, the other tag is torn, and no
    handler gets a value that holds all its brackets. -/
theorem not_mem_calls_enclosed_of_closed (he : e.Built) (hname : e.handler? name = some outside)
    (hread : Opening.read? o.source = some (o, []))
    (h : Mark.openBehind 0 (Mark.list name 0 o.source) = none) {call : Call} {k : AttrKey}
    {v : Text} (hne : call.tag ≠ name) (hv : (k, v) ∈ call.attrs.entries)
    (hcount : o.source.count '[' = v.count '[' + 1) :
    call ∉ (e.expand render (enclosed name o.source)).calls := by
  have hk := Engine.contains_of_handler? hname
  obtain ⟨content, rest, hsource, hpieces⟩ := direct_enclosed_of_closed
    (he.isTagName_of_contains hk) hk (fun _ => Opening.isQuote_of_getLast?_source) h
  intro hcall
  have hmarker : (closeMarker name).count '[' = 1 := by
    have hnot := Opening.bracket_not_mem_of_isTagName (he.isTagName_of_contains hk)
    simp [closeMarker, List.count_eq_zero_of_not_mem hnot]
  -- the brackets in front of the close marker, the one of it and those behind it
  have hsum : content.count '[' + (1 + rest.count '[') = v.count '[' + 1 := by
    rw [← hcount, hsource, List.count_append, List.count_append, hmarker]
  have hcontent : 0 < content.count '[' := by
    cases content with
    | nil =>
      -- an opening tag does not start with a close marker
      obtain ⟨u, hu, -⟩ := Opening.read?_eq_some_iff_name.1 hread
      have hafter : Text.after? (closeMarker name) o.source = some rest :=
        Text.after?_eq_some_iff.2 hsource
      exact absurd (hafter.symm.trans (Opening.after?_closeMarker_of_name hu)) (by simp)
    | cons c content =>
      rw [Opening.source, List.cons_append] at hsource
      rw [← (List.cons.inj hsource).1, List.count_cons_self]
      omega
  rw [Engine.expand, Engine.expandWithin_eq, hpieces, Engine.assemble] at hcall
  rcases Run.mem_calls_bind hcall with hcall | ⟨answer, -, hcall⟩
  · rcases Engine.cases_of_mem_calls_dispatch hcall with ⟨htag, -⟩ | ⟨raw, hraw, hcall⟩
    · exact hne htag
    · obtain rfl := Option.some.inj hraw
      have hlt := (Engine.writtenIn_of_mem_calls_inner _ hcall).count_lt hv
      omega
  · have hlt := (Engine.writtenIn_of_mem_calls_assemble (cut_scan _ _ _)
      (fun _ => Engine.writtenIn_of_mem_calls_inner _) hcall).count_lt hv
    rw [List.count_append, hmarker] at hlt
    omega

/-- The name is balanced in a tag if the tag around it is called behind another call, for
    a tag with a value that holds all the brackets. -/
theorem balanced_of_prefix_calls (he : e.Built) (hname : e.handler? name = some outside)
    (hread : Opening.read? o.source = some (o, [])) {call : Call} {k : AttrKey} {v : Text}
    (hne : call.tag ≠ name) (hv : (k, v) ∈ call.attrs.entries)
    (hcount : o.source.count '[' = v.count '[' + 1)
    (hfirst : [call] <+: (e.expand render (enclosed name o.source)).calls) :
    Mark.Balanced name o.source := by
  rw [Mark.Balanced]
  cases h : Mark.openBehind 0 (Mark.list name 0 o.source) with
  | none =>
    exact absurd (hfirst.subset List.mem_cons_self)
      (not_mem_calls_enclosed_of_closed he hname hread h hne hv hcount)
  | some n =>
    cases n with
    | zero => rfl
    | succ n =>
      obtain ⟨later, hlater⟩ := prefix_calls_enclosed_of_open render he hname h
      rw [← hlater, List.singleton_append, List.cons_prefix_cons] at hfirst
      exact absurd (congrArg Call.tag hfirst.1) hne

end

/-- A written tag whose values hold no `[` has no mark of another name. -/
theorem Opening.balanced_written {name other : Text} {tokens : List (Char × AttrToken)}
    {slash : Bool}
    (hread : read? (written other tokens slash).source = some (written other tokens slash, []))
    (hne : other ≠ name) (h : ∀ p ∈ tokens, '[' ≠ p.1 ∧ '[' ∉ p.2.text ∧ p.2.HasKey) :
    Mark.Balanced name (written other tokens slash).source := by
  have hlist : '[' ∉ AttrToken.writtenList tokens :=
    AttrToken.not_mem_writtenList (by decide) (by decide) (by decide) h
  have hbody : '[' ∉ (written other tokens slash).body := by
    rw [written, List.mem_append, not_or]
    exact ⟨hlist, by cases slash <;> decide⟩
  rw [← List.append_nil (source _)] at hread
  have hpass := Mark.list_opening_of_ne hread hne hbody 0
  rw [List.append_nil, Mark.list_nil] at hpass
  rw [Mark.Balanced, hpass]
  rfl

/-- A tag around a self-closing tag with one quoted value: the inner tag is called with
    the value, and the outer one with the answer as its content, if and only if the marks
    of the outer name in the inner tag are balanced, its quotes not regarded. A value
    without `[` never disturbs that. -/
theorem quoted_value_opaque_iff {ε η : Type} (render : Render ε η) {e : Engine η} (he : e.Built)
    {name other : Text} {outside inside : η} (hname : e.handler? name = some outside)
    (hother : e.handler? other = some inside) (hne : name ≠ other)
    (hdepth : 1 ≤ e.config.maxDepth) (v : Text) :
    let o := Opening.written other [('"', .named ['x'] v)] true
    o.attrs = ⟨[(.name ['x'], v)]⟩ ∧
    (e.expand render (enclosed name o.source) = (do
        let answer ← e.call render ⟨0, o, none⟩ inside none
        e.call render ⟨0, ⟨name, []⟩, some o.source⟩ outside (some answer)) ↔
      Mark.Balanced name o.source) ∧
    (∀ answer result, Mark.Balanced name o.source →
      render inside ⟨[(.name ['x'], v)]⟩ none = .ok answer →
      render outside ⟨[]⟩ (some (answer.getD [])) = .ok result →
      e.expand render (enclosed name o.source) =
        ⟨[⟨other, ⟨[(.name ['x'], v)]⟩, none⟩, ⟨name, ⟨[]⟩, some (answer.getD [])⟩],
          .ok (result.getD [])⟩) ∧
    ('[' ∉ v → Mark.Balanced name o.source) := by
  intro o
  have ho := he.isTagName_of_contains (Engine.contains_of_handler? hother)
  have hkey : (AttrToken.named ['x'] v).HasKey :=
    ⟨List.cons_ne_nil _ _, List.forall_mem_singleton.2 rfl⟩
  have hwritable : AttrToken.Writable [('"', .named ['x'] v)] :=
    List.forall_mem_singleton.2 ⟨rfl, hkey⟩
  have hread : Opening.read? o.source = some (o, []) := by
    have hwritten := Opening.read?_written ho hwritable true []
    rwa [List.append_nil] at hwritten
  have hself : o.selfClosing = true := Opening.selfClosing_written other hwritable true
  have hattrs : o.attrs = ⟨[(.name ['x'], v)]⟩ :=
    Opening.attrs_written other hwritable (by simp [AttrToken.name?]) true
  have hbalanced := expand_enclosed_of_balanced render he hname hother hdepth hread hself
  refine ⟨hattrs, ⟨fun hrun => ?_, hbalanced⟩, fun answer result h hanswer hresult => ?_,
    fun hv => ?_⟩
  · -- the run begins with the call for the tag in the content
    have hfirst : [⟨other, ⟨[(.name ['x'], v)]⟩, none⟩] <+:
        (e.expand render (enclosed name o.source)).calls := by
      rw [hrun, ← hattrs]
      exact Run.calls_prefix_bind (e.call render ⟨0, o, none⟩ inside none) _
    have hcount : o.source.count '[' = v.count '[' + 1 :=
      Opening.count_source_written (Opening.bracket_not_mem_of_isTagName ho) ['x'] v
        (by decide) true
    exact balanced_of_prefix_calls he hname hread (Ne.symm hne) List.mem_cons_self hcount hfirst
  · have hcall : e.call render ⟨0, o, none⟩ inside none =
        ⟨[⟨other, ⟨[(.name ['x'], v)]⟩, none⟩], .ok (answer.getD [])⟩ := by
      rw [← hattrs] at hanswer ⊢
      exact Engine.call_of_ok hanswer
    have hlast : e.call render ⟨0, ⟨name, []⟩, some o.source⟩ outside (some (answer.getD [])) =
        ⟨[⟨name, ⟨[]⟩, some (answer.getD [])⟩], .ok (result.getD [])⟩ := by
      rw [← Opening.attrs_of_empty name] at hresult ⊢
      exact Engine.call_of_ok hresult
    rw [hbalanced h, hcall, Run.ok_bind, hlast]
    rfl
  · exact Opening.balanced_written hread (Ne.symm hne)
      (List.forall_mem_singleton.2 ⟨(by decide : '[' ≠ '"'), hv, hkey⟩)

/-- A value with a quote, brackets and a whole tag of the name around its tag. -/
theorem quoted_value_opaque_tag :
    let e : Engine Text := ⟨{}, [(['t'], ['<']), (['u'], ['|'])]⟩
    let render : Render Unit Text := fun mark attrs content =>
      .ok (some (mark ++ (attrs.get? ['x']).getD [] ++ content.getD []))
    let v : Text := "a]\"[t y]b[/t]".toList
    let o := Opening.written ['u'] [('"', .named ['x'] v)] true
    (e.Built ∧ e.handler? ['t'] = some ['<'] ∧ e.handler? ['u'] = some ['|'] ∧ ['t'] ≠ ['u'] ∧
        1 ≤ e.config.maxDepth ∧ Mark.Balanced ['t'] o.source) ∧
      enclosed ['t'] o.source = "[t][u x=\"a]\\\"[t y]b[/t]\"/][/t]".toList ∧
      e.expand render (enclosed ['t'] o.source) =
        ⟨[⟨['u'], ⟨[(.name ['x'], v)]⟩, none⟩, ⟨['t'], ⟨[]⟩, some ('|' :: v)⟩],
          .ok ('<' :: '|' :: v)⟩ := by
  intro e render v o
  have hfirst : (Engine.empty {}).register ['t'] ['<'] = .ok ⟨{}, [(['t'], ['<'])]⟩ := rfl
  have hsecond : (⟨{}, [(['t'], ['<'])]⟩ : Engine Text).register ['u'] ['|'] = .ok e := rfl
  have he : e.Built := .register (.register (.empty {}) hfirst) hsecond
  have hname : e.handler? ['t'] = some ['<'] := rfl
  have hother : e.handler? ['u'] = some ['|'] := rfl
  have hne : ['t'] ≠ ['u'] := by decide
  have hdepth : 1 ≤ e.config.maxDepth := by decide
  have hbalanced : Mark.Balanced ['t'] o.source := by decide +kernel
  obtain ⟨-, -, hexpand, -⟩ := quoted_value_opaque_iff render he hname hother hne hdepth v
  exact ⟨⟨he, hname, hother, hne, hdepth, hbalanced⟩, by decide,
    hexpand _ (some ('<' :: '|' :: v)) hbalanced rfl rfl⟩

/-- A value that is a close marker of the name around its tag: the content of the tag ends
    in the value, and the tag with the value is called by nobody. -/
theorem quoted_value_not_opaque_marker :
    let e : Engine Text := ⟨{}, [(['t'], ['<']), (['u'], ['|'])]⟩
    let render : Render Unit Text := fun mark attrs content =>
      .ok (some (mark ++ (attrs.get? ['x']).getD [] ++ content.getD []))
    let v : Text := "[/t]".toList
    let o := Opening.written ['u'] [('"', .named ['x'] v)] true
    (e.Built ∧ e.handler? ['t'] = some ['<'] ∧ e.handler? ['u'] = some ['|'] ∧ ['t'] ≠ ['u'] ∧
        1 ≤ e.config.maxDepth ∧ o.attrs = ⟨[(.name ['x'], v)]⟩) ∧
      enclosed ['t'] o.source = "[t][u x=\"[/t]\"/][/t]".toList ∧
      e.expand render (enclosed ['t'] o.source) =
        ⟨[⟨['t'], ⟨[]⟩, some "[u x=\"".toList⟩], .ok "<[u x=\"\"/][/t]".toList⟩ ∧
      e.expand render (enclosed ['t'] o.source) ≠
        ⟨[⟨['u'], ⟨[(.name ['x'], v)]⟩, none⟩, ⟨['t'], ⟨[]⟩, some ('|' :: v)⟩],
          .ok ('<' :: '|' :: v)⟩ := by
  intro e render v o
  have hfirst : (Engine.empty {}).register ['t'] ['<'] = .ok ⟨{}, [(['t'], ['<'])]⟩ := rfl
  have hsecond : (⟨{}, [(['t'], ['<'])]⟩ : Engine Text).register ['u'] ['|'] = .ok e := rfl
  have he : e.Built := .register (.register (.empty {}) hfirst) hsecond
  have htext : Piece.direct e.contains (enclosed ['t'] o.source) =
      [.tag ⟨0, ⟨['t'], []⟩, some "[u x=\"".toList⟩, .text "\"/][/t]".toList] := by
    decide +kernel
  have hcontent : Piece.direct e.contains "[u x=\"".toList = [.text "[u x=\"".toList] := by
    decide +kernel
  have hinner : e.inner render e.config.maxDepth "[u x=\"".toList =
      ⟨[], .ok "[u x=\"".toList⟩ := by
    rw [show e.config.maxDepth = 9 + 1 from rfl, Engine.inner, Engine.expandWithin_eq, hcontent]
    rfl
  have hexpand : e.expand render (enclosed ['t'] o.source) =
      ⟨[⟨['t'], ⟨[]⟩, some "[u x=\"".toList⟩], .ok "<[u x=\"\"/][/t]".toList⟩ := by
    rw [Engine.expand, Engine.expandWithin_eq, htext, Engine.assemble,
      Engine.dispatch_of_content rfl rfl hinner, Engine.call, Opening.attrs_of_empty]
    rfl
  refine ⟨⟨he, rfl, rfl, by decide, by decide, by decide +kernel⟩, by decide, hexpand, ?_⟩
  rw [hexpand]
  exact fun h => absurd (congrArg Run.calls h) (by decide)

end Shortcode
