import Shortcode.Proofs.Evaluation
import Shortcode.Proofs.Nesting

/-!
# Escaped tags in the content of a tag

A content that consists of text and escaped tags expands to the same with the escaped
tags bare, and calls nothing. The tag around it gets that as its content, unless its
own name is escaped there: a search for a close marker sees the inner brackets of an
escaped tag as an opening tag, so each escaped tag of the name takes a close marker,
and the tag around them is left without one.

* `Literal.exists_list_source`: a content leaves one tag more open for each time that
  it escapes the name.
* `Literal.assemble_source`: a content expands to what it shows.
* `escapes_inert_iff`: a tag gets its content if and only if its name is not escaped
  in it.
-/

namespace Shortcode

/-- A part of a content in which nothing is expanded. -/
inductive Literal
  /-- A text. -/
  | text (run : Text)
  /-- An escaped tag without attributes. -/
  | escaped (name : Text)
  deriving DecidableEq, Repr

namespace Literal

/-- The literal as written. -/
def source : Literal → Text
  | text run => run
  | escaped name => (Piece.escaped (⟨name, []⟩ : Opening).source).source

/-- What the literal stands for: an escaped tag loses its outer brackets. -/
def shown : Literal → Text
  | text run => run
  | escaped name => (⟨name, []⟩ : Opening).source

/-- The name of an escaped tag. -/
def name? : Literal → Option Text
  | text _ => none
  | escaped name => some name

/-- A literal that can be printed: a text holds no `[`, and an escaped tag has a known
    name. -/
def Printable (known : Text → Bool) : Literal → Prop
  | text run => '[' ∉ run
  | escaped name => known name = true

/-- A tag without attributes around a content. -/
def enclose (name : Text) (content : List Literal) : Text :=
  (⟨name, []⟩ : Opening).source ++ (content.flatMap source ++ closeMarker name)

end Literal

/-- A tag without attributes is read back, whatever stands behind it. -/
theorem Opening.read?_bare {name : Text} (h : isTagName name = true) (rest : Text) :
    read? ((⟨name, []⟩ : Opening).source ++ rest) = some (⟨name, []⟩, rest) :=
  read?_written h (fun _ hmem => absurd hmem List.not_mem_nil) false rest

/-! ## Close markers behind a content -/

namespace Mark

/-- A search goes on behind marks with the tags that they leave open. -/
theorem close?_append {pending e : Nat} {marks : List Mark}
    (h : openBehind pending marks = some e) (later : List Mark) :
    close? pending (marks ++ later) = close? e later := by
  induction marks generalizing pending with
  | nil =>
    obtain rfl := Option.some.inj h
    rfl
  | cons mark marks ih =>
    cases mark with
    | opens s => exact ih h
    | single s => exact ih h
    | closes span =>
      cases pending with
      | zero => exact absurd h (by simp [openBehind])
      | succ n => exact ih h

/-- Two brackets start no mark. -/
theorem read?_bracket (name : Text) (start : Nat) (t : Text) :
    read? name start ('[' :: '[' :: t) = none := by
  rw [Option.eq_none_iff_forall_ne_some]
  rintro ⟨mark, stop, rest⟩ h
  rcases read?_eq_some_iff.1 h with ⟨ht, -⟩ | ⟨o, ho, -⟩
  · simp [closeMarker] at ht
  · rw [Opening.read?_bracket] at ho
    exact absurd ho (by simp)

/-- An escaped tag of the name is met as an opening tag; one of another name is passed
    over. -/
theorem list_escaped {name n : Text} (hn : isTagName n = true) (start : Nat) (rest : Text) :
    list name start ((Literal.escaped n).source ++ rest) =
      (if n = name then [opens (start + 1)] else []) ++
        list name (start + (Literal.escaped n).source.size) rest := by
  have hread := Opening.read?_bare hn (']' :: rest)
  have hsource : (Literal.escaped n).source ++ rest =
      '[' :: ((⟨n, []⟩ : Opening).source ++ ']' :: rest) := by
    simp [Literal.source, Piece.source]
  have hsize : start + (Literal.escaped n).source.size =
      start + '['.utf8Size + (⟨n, []⟩ : Opening).source.size + ']'.utf8Size := by
    rw [Literal.source, size_source_escaped, show '['.utf8Size = 1 from rfl,
      show ']'.utf8Size = 1 from rfl]
    omega
  have hfront : read? name start ('[' :: ((⟨n, []⟩ : Opening).source ++ ']' :: rest)) = none :=
    read?_bracket name start _
  have hbehind (k : Nat) : list name k (']' :: rest) = list name (k + ']'.utf8Size) rest :=
    list_of_not_read (read?_of_ne (by decide))
  rw [hsource, hsize, list_of_not_read hfront]
  split
  next hne =>
    subst hne
    have hmark := list_opening hread (start + '['.utf8Size)
    rw [hbehind] at hmark
    exact hmark
  next hne =>
    have hpass := list_opening_of_ne hread hne List.not_mem_nil (start + '['.utf8Size)
    rw [hbehind] at hpass
    exact hpass

end Mark

namespace Literal

variable {known : Text → Bool} {content : List Literal}

/-- A content leaves one tag more open for each time that it escapes the name. -/
theorem exists_list_source (hknown : ∀ n, known n = true → isTagName n = true)
    (hcontent : ∀ s ∈ content, s.Printable known) (name : Text) (start : Nat) (rest : Text) :
    ∃ inner, Mark.list name start (content.flatMap source ++ rest) =
        inner ++ Mark.list name (start + Text.size (content.flatMap source)) rest ∧
      ∀ pending, Mark.openBehind pending inner =
        some (pending + (content.filterMap name?).count name) := by
  induction content generalizing start with
  | nil => exact ⟨[], rfl, fun _ => rfl⟩
  | cons s content ih =>
    obtain ⟨hs, hcontent⟩ := List.forall_mem_cons.1 hcontent
    obtain ⟨inner, hlist, hopen⟩ := ih hcontent (start + s.source.size)
    rw [List.flatMap_cons, List.append_assoc, Text.size_append, ← Nat.add_assoc]
    cases s with
    | text run =>
      refine ⟨inner, ?_, hopen⟩
      exact (Mark.list_append_of_not_mem hs start _).trans hlist
    | escaped n =>
      rw [Mark.list_escaped (hknown n hs), hlist, ← List.append_assoc]
      refine ⟨_, rfl, fun pending => ?_⟩
      rw [List.filterMap_cons_some (rfl : (escaped n).name? = some n), List.count_cons]
      by_cases hne : n = name
      · rw [if_pos hne, List.singleton_append, Mark.openBehind, hopen]
        simp [hne, Nat.add_comm, Nat.add_left_comm]
      · rw [if_neg hne, List.nil_append, hopen]
        simp [hne]

/-- The close marker behind a content is the one that is searched, unless its name is
    escaped in the content. -/
theorem findClose_source (hknown : ∀ n, known n = true → isTagName n = true)
    (hcontent : ∀ s ∈ content, s.Printable known) (name : Text) (start : Nat) :
    findClose name start (content.flatMap source ++ closeMarker name) =
      if name ∈ content.filterMap name? then none
      else
        let stop := start + Text.size (content.flatMap source)
        some ⟨stop, stop + (closeMarker name).size⟩ := by
  obtain ⟨inner, hlist, hopen⟩ := exists_list_source hknown hcontent name start (closeMarker name)
  have hmarker := Mark.list_closeMarker name [] (start + Text.size (content.flatMap source))
  rw [List.append_nil, Mark.list_nil] at hmarker
  rw [findClose, hlist, Mark.close?_append (hopen 0), hmarker, Nat.zero_add]
  split
  next hmem =>
    obtain ⟨n, hn⟩ := Nat.exists_eq_add_of_le' (List.count_pos_iff.2 hmem)
    rw [hn]
    rfl
  next hmem =>
    rw [List.count_eq_zero_of_not_mem hmem]
    rfl

/-- A tag whose name is not escaped in its content is cut off with that content. -/
theorem direct_enclose_of_not_mem (hknown : ∀ n, known n = true → isTagName n = true)
    {name : Text} (hk : known name = true) (hcontent : ∀ s ∈ content, s.Printable known)
    (hmem : name ∉ content.filterMap name?) :
    Piece.direct known (enclose name content) =
      [.tag ⟨0, ⟨name, []⟩, some (content.flatMap source)⟩] := by
  let tag : Tag := ⟨0, ⟨name, []⟩, some (content.flatMap source)⟩
  have hfind := findClose_source hknown hcontent name (0 + tag.opening.source.size)
  rw [if_neg hmem] at hfind
  have htag : enclose name content = tag.source ++ [] := by
    simp [tag, enclose, Tag.source, Tag.name]
  have hscan : Piece.direct known (enclose name content) =
      (.tag tag :: Piece.scan Closing.direct known tag.stop [] : List Piece) :=
    scan_tag_of_read (Opening.read?_bare (hknown name hk) _) rfl hk htag hfind.symm
  rwa [scan_nil] at hscan

/-- A tag whose name is escaped in its content is cut off alone. -/
theorem direct_enclose_of_mem (hknown : ∀ n, known n = true → isTagName n = true)
    {name : Text} (hk : known name = true) (hcontent : ∀ s ∈ content, s.Printable known)
    (hmem : name ∈ content.filterMap name?) :
    Piece.direct known (enclose name content) =
      (.tag ⟨0, ⟨name, []⟩, none⟩ :: Piece.scan Closing.direct known
        (⟨0, ⟨name, []⟩, none⟩ : Tag).stop (content.flatMap source ++ closeMarker name) :
          List Piece) := by
  let tag : Tag := ⟨0, ⟨name, []⟩, none⟩
  have hfind := findClose_source hknown hcontent name (0 + tag.opening.source.size)
  rw [if_pos hmem] at hfind
  have htag : enclose name content =
      tag.source ++ (content.flatMap source ++ closeMarker name) := by
    simp [tag, enclose, Tag.source]
  exact scan_tag_of_read (Opening.read?_bare (hknown name hk) _) rfl hk htag hfind.symm

/-! ## Expanding a content -/

variable {ε η : Type} {render : Render ε η} {e : Engine η} {inner : Text → Run ε Text}

/-- A content in front of a text expands to what it shows. -/
theorem assemble_source (he : e.Built) (hcontent : ∀ s ∈ content, s.Printable e.contains)
    (start : Nat) (rest : Text) :
    e.assemble render inner
        (Piece.scan Closing.direct e.contains start (content.flatMap source ++ rest)) =
      (content.flatMap shown ++ ·) <$>
        e.assemble render inner (Piece.scan Closing.direct e.contains
          (start + Text.size (content.flatMap source)) rest) := by
  induction content generalizing start with
  | nil => exact (Run.id_map _).symm
  | cons s content ih =>
    obtain ⟨hs, hcontent⟩ := List.forall_mem_cons.1 hcontent
    have hrest := ih hcontent (start + s.source.size)
    rw [List.flatMap_cons, List.append_assoc, Text.size_append, ← Nat.add_assoc,
      List.flatMap_cons]
    cases s with
    | text run =>
      rw [source, Document.scan_text hs, Document.assemble_text]
      simp only [source] at hrest
      rw [hrest, Run.map_map]
      simp only [shown, List.append_assoc]
    | escaped n =>
      have hread := Opening.read?_bare (he.isTagName_of_contains hs)
        (']' :: (content.flatMap source ++ rest))
      obtain ⟨escape, hescape, hinner, hbehind⟩ := escaped?_direct_of_read hread hs start
      have hsource : (escaped n).source ++ (content.flatMap source ++ rest) =
          '[' :: ((⟨n, []⟩ : Opening).source ++ ']' :: (content.flatMap source ++ rest)) := by
        simp [source, Piece.source]
      have hsize : (escaped n).source.size = escape.inner.size + 2 := by
        rw [source, size_source_escaped, hinner]
      rw [hsize, ← Nat.add_assoc] at hrest ⊢
      rw [hsource, scan_escaped hescape, Engine.assemble, hbehind, hrest, hinner, Run.map_map]
      simp only [shown, List.append_assoc]

/-- A content expands to what it shows, and calls nothing. -/
theorem expandWithin_source (he : e.Built) (hcontent : ∀ s ∈ content, s.Printable e.contains)
    (depth : Nat) :
    e.expandWithin render depth (content.flatMap source) = ⟨[], .ok (content.flatMap shown)⟩ := by
  rw [Engine.expandWithin_eq, Piece.direct, ← List.append_nil (content.flatMap source),
    assemble_source he hcontent, scan_nil, Engine.assemble]
  simp only [Run.pure_eq, Run.map_ok, List.append_nil]

/-- A close marker that is left over is copied. -/
theorem assemble_closeMarker {name : Text} (hname : isTagName name = true) (start : Nat) :
    e.assemble render inner (Piece.scan Closing.direct e.contains start (closeMarker name)) =
      ⟨[], .ok (closeMarker name)⟩ := by
  have hread : Opening.read? (closeMarker name) = none := by
    have hname? := Opening.name?_closeMarker name []
    rw [List.append_nil] at hname?
    rw [Opening.read?, hname?]
  have hlocate : locate? Closing.direct e.contains start (closeMarker name) =
      (none : Option (Located (closeMarker name))) :=
    locate?_direct_eq_none_iff.2 fun o after hr => absurd (hread.symm.trans hr) (by simp)
  have hescaped : escaped? Closing.direct e.contains start (closeMarker name) =
      (none : Option (Escaped (closeMarker name))) := by
    rw [Option.eq_none_iff_forall_ne_some]
    intro escape h
    obtain ⟨inside, o, after, ht, hr, -⟩ := escaped?_direct_eq_some h
    obtain ⟨hinside, -⟩ := Opening.read?_eq_some_iff.1 hr
    rw [← (List.cons.inj ht).2] at hinside
    exact absurd (List.cons.inj hinside).1 (by decide)
  have hrun : '[' ∉ '/' :: (name ++ [']']) := by
    simp [Opening.bracket_not_mem_of_isTagName hname]
  rw [closeMarker] at hescaped hlocate ⊢
  rw [scan_char fun _ => ⟨hescaped, hlocate⟩, ← List.append_nil ('/' :: (name ++ [']'])),
    Document.scan_text hrun, scan_nil, Engine.assemble_push, Document.assemble_text,
    Engine.assemble]
  simp only [Run.pure_eq, Run.map_ok, List.append_nil]

end Literal

/-! ## The tag around a content -/

section

variable {ε η : Type} {render : Render ε η} {e : Engine η} {name : Text} {handler : η}
  {content : List Literal}

/-- A tag whose name is not escaped in its content is called once, with what the content
    shows. -/
theorem expand_enclose_of_not_mem (he : e.Built) (hhandler : e.handler? name = some handler)
    (hdepth : 1 ≤ e.config.maxDepth) (hcontent : ∀ s ∈ content, s.Printable e.contains)
    (hmem : name ∉ content.filterMap Literal.name?) :
    e.expand render (Literal.enclose name content) =
      e.call render ⟨0, ⟨name, []⟩, some (content.flatMap Literal.source)⟩ handler
        (some (content.flatMap Literal.shown)) := by
  have hk := Engine.contains_of_handler? hhandler
  have hpieces := Literal.direct_enclose_of_not_mem (fun _ => he.isTagName_of_contains) hk
    hcontent hmem
  have hinner : e.inner render e.config.maxDepth (content.flatMap Literal.source) =
      ⟨[], .ok (content.flatMap Literal.shown)⟩ := by
    obtain ⟨depth, hmax⟩ := Nat.exists_eq_add_of_le' hdepth
    rw [hmax]
    exact Literal.expandWithin_source he hcontent depth
  rw [Engine.expand, Engine.expandWithin_eq, hpieces, Engine.assemble_singleton]
  exact Engine.dispatch_of_content hhandler rfl hinner

/-- A tag whose name is escaped in its content is called once, without content; what the
    content shows and the close marker are left behind its answer. -/
theorem expand_enclose_of_mem (he : e.Built) (hhandler : e.handler? name = some handler)
    (hcontent : ∀ s ∈ content, s.Printable e.contains)
    (hmem : name ∈ content.filterMap Literal.name?) :
    e.expand render (Literal.enclose name content) =
      (· ++ (content.flatMap Literal.shown ++ closeMarker name)) <$>
        e.call render ⟨0, ⟨name, []⟩, none⟩ handler none := by
  have hk := Engine.contains_of_handler? hhandler
  have hpieces := Literal.direct_enclose_of_mem (fun _ => he.isTagName_of_contains) hk
    hcontent hmem
  rw [Engine.expand, Engine.expandWithin_eq, hpieces, Engine.assemble,
    Engine.dispatch_of_no_content hhandler rfl, Literal.assemble_source he hcontent,
    Literal.assemble_closeMarker (he.isTagName_of_contains hk), Run.map_ok]
  exact (map_eq_pure_bind _ _).symm

/-- A tag around a content of text and escaped tags is called once, with what the content
    shows, and its answer takes its place: if and only if its own name is not among the
    names that are escaped. -/
theorem escapes_inert_iff (he : e.Built) (hhandler : e.handler? name = some handler)
    (hdepth : 1 ≤ e.config.maxDepth) (hcontent : ∀ s ∈ content, s.Printable e.contains) :
    ((e.expand render (Literal.enclose name content)).calls =
        [⟨name, ⟨[]⟩, some (content.flatMap Literal.shown)⟩] ↔
      name ∉ content.filterMap Literal.name?) ∧
    (name ∉ content.filterMap Literal.name? →
      e.expand render (Literal.enclose name content) =
        e.call render ⟨0, ⟨name, []⟩, some (content.flatMap Literal.source)⟩ handler
          (some (content.flatMap Literal.shown))) := by
  refine ⟨⟨fun hcalls hmem => ?_, fun hmem => ?_⟩,
    expand_enclose_of_not_mem he hhandler hdepth hcontent⟩
  · -- the tag is called without content where its name is escaped
    rw [expand_enclose_of_mem he hhandler hcontent hmem] at hcalls
    obtain ⟨hcall, -⟩ := List.cons.inj hcalls
    exact absurd (congrArg Call.content hcall) (by simp)
  · rw [expand_enclose_of_not_mem he hhandler hdepth hcontent hmem, Engine.call,
      Opening.attrs_of_empty]
    rfl

end

/-- A content in which another tag is escaped twice. -/
theorem escapes_inert_other :
    let e : Engine Text := ⟨{}, [(['t'], ['<']), (['b'], [])]⟩
    let render : Render Unit Text := fun mark _ content => .ok (some (mark ++ content.getD []))
    let content : List Literal := [.escaped ['b'], .text ['x'], .escaped ['b']]
    (e.Built ∧ e.handler? ['t'] = some ['<'] ∧ 1 ≤ e.config.maxDepth ∧
        (∀ s ∈ content, s.Printable e.contains) ∧ ['t'] ∉ content.filterMap Literal.name?) ∧
      Literal.enclose ['t'] content = "[t][[b]]x[[b]][/t]".toList ∧
      e.expand render "[t][[b]]x[[b]][/t]".toList =
        ⟨[⟨['t'], ⟨[]⟩, some "[b]x[b]".toList⟩], .ok "<[b]x[b]".toList⟩ := by
  intro e render content
  have hfirst : (Engine.empty {}).register ['t'] ['<'] = .ok ⟨{}, [(['t'], ['<'])]⟩ := rfl
  have hsecond : (⟨{}, [(['t'], ['<'])]⟩ : Engine Text).register ['b'] [] = .ok e := rfl
  have he : e.Built := .register (.register (.empty {}) hfirst) hsecond
  have hhandler : e.handler? ['t'] = some ['<'] := rfl
  have hdepth : 1 ≤ e.config.maxDepth := by decide
  have hescaped : (Literal.escaped ['b']).Printable e.contains := (rfl : e.contains ['b'] = true)
  have htext : (Literal.text ['x']).Printable e.contains := (by decide : '[' ∉ ['x'])
  have hcontent : ∀ s ∈ content, s.Printable e.contains :=
    List.forall_mem_cons.2 ⟨hescaped, List.forall_mem_cons.2
      ⟨htext, List.forall_mem_singleton.2 hescaped⟩⟩
  have hmem : ['t'] ∉ content.filterMap Literal.name? := by decide
  have hsource : Literal.enclose ['t'] content = "[t][[b]]x[[b]][/t]".toList := rfl
  refine ⟨⟨he, hhandler, hdepth, hcontent, hmem⟩, hsource, ?_⟩
  rw [← hsource, (escapes_inert_iff he hhandler hdepth hcontent).2 hmem, Engine.call,
    Opening.attrs_of_empty]
  rfl

/-- The name of a tag escaped in its content: the tag is called without content, and its
    close marker is left. -/
theorem escapes_not_inert_own :
    let e : Engine Text := ⟨{}, [(['t'], ['<'])]⟩
    let render : Render Unit Text := fun mark _ content => .ok (some (mark ++ content.getD []))
    let content : List Literal := [.escaped ['t']]
    (e.Built ∧ e.handler? ['t'] = some ['<'] ∧ 1 ≤ e.config.maxDepth ∧
        ∀ s ∈ content, s.Printable e.contains) ∧
      Literal.enclose ['t'] content = "[t][[t]][/t]".toList ∧
      e.expand render (Literal.enclose ['t'] content) =
        ⟨[⟨['t'], ⟨[]⟩, none⟩], .ok "<[t][/t]".toList⟩ ∧
      (e.expand render (Literal.enclose ['t'] content)).calls ≠
        [⟨['t'], ⟨[]⟩, some (content.flatMap Literal.shown)⟩] := by
  intro e render content
  have hregister : (Engine.empty {}).register ['t'] ['<'] = .ok e := rfl
  have he : e.Built := .register (.empty {}) hregister
  have hhandler : e.handler? ['t'] = some ['<'] := rfl
  have hcontent : ∀ s ∈ content, s.Printable e.contains :=
    List.forall_mem_singleton.2 (rfl : e.contains ['t'] = true)
  have hpieces : Piece.direct e.contains (Literal.enclose ['t'] content) =
      [.tag ⟨0, ⟨['t'], []⟩, none⟩, .escaped "[t]".toList, .text "[/t]".toList] := by
    decide +kernel
  have hexpand : e.expand render (Literal.enclose ['t'] content) =
      ⟨[⟨['t'], ⟨[]⟩, none⟩], .ok "<[t][/t]".toList⟩ := by
    rw [Engine.expand, Engine.expandWithin_eq, hpieces, Engine.assemble,
      Engine.dispatch_of_no_content hhandler rfl, Engine.call, Opening.attrs_of_empty]
    rfl
  refine ⟨⟨he, hhandler, by decide, hcontent⟩, rfl, hexpand, ?_⟩
  rw [hexpand]
  decide

end Shortcode
