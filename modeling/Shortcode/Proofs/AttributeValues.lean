import Shortcode.Proofs.Remembering
import Shortcode.Proofs.WrittenTag

/-!
# Attribute values in a text

Reading attributes leaves characters out, quotes and backslashes among them, and adds
none: each value is a subsequence of what stands between the brackets. And whatever a
value holds can be written there: a scanner that is asked about a written tag finds it
with its end, its `/` and its attributes, whatever stands around the tag and whatever
the scanner has been asked before.

* `AttrToken.read_sublist`, `AttrToken.list_sublist`: values are read in order, and
  nothing is read twice.
* `Opening.sublist_of_mem_attrs`: each value is a subsequence of the body.
* `Scanner.answers_locate?`: a scanner locates as the direct search does.
* `scanner_locates_written`: a written tag is located with all that it says.
-/

namespace Shortcode

/-! ## Values are subsequences of the text -/

namespace AttrToken

/-- A quoted value loses backslashes and the quote behind it. -/
theorem quoted_sublist (q : Char) (t : Text) :
    ((quoted q t).1 ++ (quoted q t).2).Sublist t := by
  fun_induction quoted q t with
  | case1 => exact List.Sublist.refl _
  | case2 c t v r h hc ih =>
    rw [h] at ih
    exact (ih.cons_cons c).cons _
  | case3 c t v r h hc ih =>
    rw [h] at ih
    exact (ih.cons_cons c).cons_cons _
  | case4 t => exact (List.Sublist.refl t).cons _
  | case5 c t _ hc v r h ih =>
    rw [h] at ih
    exact ih.cons_cons c

theorem bare_sublist (t : Text) : ((bare t).1 ++ (bare t).2).Sublist t := by
  rw [bare, List.takeWhile_append_dropWhile]

theorem value_sublist (t : Text) : ((value t).1 ++ (value t).2).Sublist t := by
  cases t with
  | nil => exact List.Sublist.refl _
  | cons c t =>
    rw [value]
    split
    · exact (quoted_sublist c t).cons c
    · exact bare_sublist (c :: t)

theorem assigned_sublist (t : Text) : ((assigned t).1 ++ (assigned t).2).Sublist t := by
  unfold assigned
  split
  next c rest h =>
    have hrest : (c :: rest).Sublist t := h ▸ Text.trimStart_sublist t
    split
    · exact ((quoted_sublist c rest).cons c).trans hrest
    · split
      · exact List.Sublist.refl _
      · split
        · exact List.Sublist.refl _
        · exact bare_sublist _
  next => exact List.Sublist.refl _

theorem named?_sublist {t rest : Text} {token : AttrToken} (h : named? t = some (token, rest)) :
    (token.text ++ rest).Sublist t := by
  unfold named? at h
  simp only at h
  split at h
  · exact absurd h (by simp)
  · split at h
    next tail htail =>
      obtain ⟨rfl, rfl⟩ := Prod.mk.inj (Option.some.inj h)
      have htrim := Text.trimStart_sublist (t.dropWhile isKeyChar)
      rw [htail] at htrim
      exact ((assigned_sublist tail).cons _).trans (htrim.trans (List.dropWhile_sublist _))
    · exact absurd h (by simp)

/-- The value of a token and what is left behind the token are read in order. -/
theorem read_sublist (t : Text) : ((read t).1.text ++ (read t).2).Sublist t := by
  unfold read
  split
  next found h => exact named?_sublist h
  next => exact value_sublist t

/-- The values of a list are read in order, and nothing is read twice. -/
theorem list_sublist (t : Text) : ((list t).flatMap text).Sublist t := by
  fun_induction list t with
  | case1 t h => exact List.nil_sublist t
  | case2 t c r h ih =>
    have hcons : (c :: r).Sublist t := h ▸ Text.trimStart_sublist t
    rw [List.flatMap_cons]
    exact ((ih.append_left _).trans (read_sublist (c :: r))).trans hcons

end AttrToken

namespace Attributes

theorem mem_assign {key k : AttrKey} {value v : Text} {entries : List (AttrKey × Text)}
    (h : (k, v) ∈ assign key value entries) : (k, v) ∈ entries ∨ v = value := by
  induction entries with
  | nil => exact .inr (Prod.mk.inj (List.mem_singleton.1 h)).2
  | cons entry entries ih =>
    rw [assign] at h
    split at h
    · rcases List.mem_cons.1 h with h | h
      · exact .inr (Prod.mk.inj h).2
      · exact .inl (List.mem_cons_of_mem _ h)
    · rcases List.mem_cons.1 h with h | h
      · exact .inl (h ▸ List.mem_cons_self)
      · exact (ih h).imp_left (List.mem_cons_of_mem _)

/-- What is stored has been stored before, or is the value of a token. -/
theorem mem_ofTokens {next : Nat} {attrs : Attributes} {tokens : List AttrToken} {k : AttrKey}
    {v : Text} (h : (k, v) ∈ (ofTokens next attrs tokens).entries) :
    (k, v) ∈ attrs.entries ∨ ∃ token ∈ tokens, token.text = v := by
  induction tokens generalizing next attrs with
  | nil => exact .inl h
  | cons token tokens ih =>
    have hstep {next' : Nat} {key : AttrKey}
        (h : (k, v) ∈ (ofTokens next' (attrs.insert key token.text) tokens).entries) :
        (k, v) ∈ attrs.entries ∨ ∃ t ∈ token :: tokens, t.text = v := by
      rcases ih h with h | ⟨t, ht, htext⟩
      · exact (mem_assign h).imp_right fun hv => ⟨token, List.mem_cons_self, hv.symm⟩
      · exact .inr ⟨t, List.mem_cons_of_mem _ ht, htext⟩
    cases token with
    | positional value => exact hstep h
    | named key value => exact hstep h

/-- Each value is a subsequence of the text that the attributes are read from. -/
theorem sublist_of_mem_read {t v : Text} {k : AttrKey} (h : (k, v) ∈ (read t).entries) :
    v.Sublist t := by
  rcases mem_ofTokens h with h | ⟨token, htoken, rfl⟩
  · exact absurd h List.not_mem_nil
  · exact (List.sublist_flatten_of_mem (List.mem_map_of_mem htoken)).trans
      (AttrToken.list_sublist t)

end Attributes

namespace Opening

theorem attrText_sublist (o : Opening) : o.attrText.Sublist o.body := by
  have htrim := Text.trim_sublist o.body
  rw [attrText]
  split
  · exact ((Text.trimEnd_sublist _).trans (List.dropLast_sublist _)).trans htrim
  · exact htrim

/-- Each value of an attribute is a subsequence of the body of its tag. -/
theorem sublist_of_mem_attrs {o : Opening} {k : AttrKey} {v : Text}
    (h : (k, v) ∈ o.attrs.entries) : v.Sublist o.body :=
  (Attributes.sublist_of_mem_read h).trans o.attrText_sublist

end Opening

/-! ## Locating written tags -/

/-- A tag with written attributes is located with its end, its `/` and its attributes,
    whatever its values hold, whatever stands in front of it and behind it, and whatever
    the scanner has been asked before. -/
theorem scanner_locates_written {known : Text → Bool} {name : Text}
    {tokens : List (Char × AttrToken)} (hknown : known name = true)
    (hname : isTagName name = true) (hwritable : AttrToken.Writable tokens)
    (hnodup : ((tokens.map (·.2)).filterMap AttrToken.name?).Nodup) (slash : Bool)
    (front behind : Text) (queries : List Scanner.Query) :
    let o := Opening.written name tokens slash
    let ask : StateM Scanner (Option Tag) := do
      let _ ← queries.mapM Scanner.Query.ask
      Scanner.locate? known front.size
    ∃ tag : Tag, (ask.run (Scanner.ofText (front ++ (o.source ++ behind)))).1 = some tag ∧
      tag.name = name ∧ tag.start = front.size ∧ tag.openEnd = (front ++ o.source).size ∧
      tag.opening.selfClosing = slash ∧
      tag.opening.attrs = ⟨Attributes.number 0 (tokens.map (·.2))⟩ := by
  intro o ask
  have hread := Opening.read?_written hname hwritable slash behind
  obtain ⟨l, hl, hopening, hstart, -, -⟩ := exists_locate?_direct front.size hread hknown
  -- the scanner locates what the direct search finds, after any questions
  have hlocate := Scanner.answers_locate? (front ++ (o.source ++ behind)) known front.size
  rw [Text.from?_size_append, Option.bind_some, hl] at hlocate
  have hask : Scanner.Answers (front ++ (o.source ++ behind)) ask (some l.tag) :=
    (Scanner.answers_mapM _ queries).bind hlocate
  obtain ⟨scanner, hrun, -⟩ := hask _ (Scanner.remembers_ofText _)
  refine ⟨l.tag, congrArg Prod.fst hrun, congrArg Opening.name hopening, hstart, ?_, ?_, ?_⟩
  · rw [Tag.openEnd, hstart, hopening, Text.size_append]
  · rw [hopening]
    exact Opening.selfClosing_written name hwritable slash
  · rw [hopening]
    exact Opening.attrs_written name hwritable hnodup slash

/-- A tag with brackets, both quotes, a backslash and a line break in its values, behind a
    value that does not end. -/
theorem scanner_locates_written_brackets :
    let known : Text → Bool := fun name => name == ['n']
    let tokens : List (Char × AttrToken) :=
      [('"', .positional "a]\"\\[/n]".toList), ('\'', .named ['k'] "/'\n\"".toList)]
    let o := Opening.written ['n'] tokens true
    let front : Text := "[n x=\"".toList
    let behind : Text := "\"][/n]".toList
    let query : Scanner.Query := .locate known 0
    let ask : StateM Scanner (Option Tag) := do
      let _ ← [query].mapM Scanner.Query.ask
      Scanner.locate? known front.size
    o.source = "[n \"a]\\\"\\\\[/n]\" k='/\\'\n\"'/]".toList ∧
      ∃ tag : Tag, (ask.run (Scanner.ofText (front ++ (o.source ++ behind)))).1 = some tag ∧
        tag.name = ['n'] ∧ tag.start = 6 ∧ tag.openEnd = 33 ∧ tag.opening.selfClosing = true ∧
        tag.opening.attrs =
          ⟨[(.position 0, "a]\"\\[/n]".toList), (.name ['k'], "/'\n\"".toList)]⟩ := by
  intro known tokens o front behind query ask
  have hwritable : AttrToken.Writable tokens := by
    rintro p hp
    rcases List.mem_pair.1 hp with rfl | rfl
    · exact ⟨rfl, trivial⟩
    · exact ⟨rfl, List.cons_ne_nil _ _, List.forall_mem_singleton.2 rfl⟩
  exact ⟨by decide, scanner_locates_written rfl (by decide) hwritable (by decide) true front behind
    [query]⟩

end Shortcode
