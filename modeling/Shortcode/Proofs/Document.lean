import Shortcode.Proofs.Cutting
import Shortcode.Proofs.WrittenTag

/-!
# Printed documents

A document is a row of texts, self-closing tags and paired tags, the last with a
document of their own as content. Printed, its tags balance: a search for a close
marker that starts in front of it comes out behind it with as many tags open as
before. So each paired tag of it is located with its own content, whatever the tags
in there are called.

* `Document.exists_list_print`: the marks of a printed document leave no tag open.
* `Document.scan_text`, `Document.scan_single`, `Document.scan_paired`: how a printed
  document is cut.
-/

namespace Shortcode

/-! ## Marks in front of a text -/

namespace Mark

/-- Nothing but a `[` starts a mark. -/
theorem read?_of_ne {name r : Text} {start : Nat} {c : Char} (hc : c ≠ '[') :
    read? name start (c :: r) = none := by
  rw [Option.eq_none_iff_forall_ne_some]
  rintro ⟨mark, stop, rest⟩ h
  rcases read?_eq_some_iff.1 h with ⟨ht, -⟩ | ⟨o, ho, -⟩
  · exact hc (List.cons.inj ht).1
  · exact hc (List.cons.inj (Opening.read?_eq_some_iff.1 ho).1).1

/-- A text without a `[` is passed over. -/
theorem list_append_of_not_mem {name t : Text} (h : '[' ∉ t) (start : Nat) (rest : Text) :
    list name start (t ++ rest) = list name (start + t.size) rest := by
  induction t generalizing start with
  | nil => rfl
  | cons c t ih =>
    rw [List.mem_cons, not_or] at h
    rw [List.cons_append, list_of_not_read (read?_of_ne (Ne.symm h.1)), ih h.2, Text.size_cons,
      Nat.add_assoc]

/-- The mark that an opening tag is, if it has the name. -/
theorem read?_of_opening {name t rest : Text} {o : Opening} (start : Nat)
    (h : Opening.read? t = some (o, rest)) :
    read? name start t =
      if o.name = name then
        some (if o.selfClosing then single start else opens start, start + o.source.size, rest)
      else none := by
  obtain ⟨u, hname, -⟩ := Opening.read?_eq_some_iff_name.1 h
  rw [read?, Opening.after?_closeMarker_of_name hname, h]

/-- Where no mark is read at a `[`, the text up to the next one is passed over. -/
theorem list_of_bracket {name inside rest : Text} {start : Nat} (hinside : '[' ∉ inside)
    (h : read? name start ('[' :: inside ++ rest) = none) :
    list name start ('[' :: inside ++ rest) =
      list name (start + Text.size ('[' :: inside)) rest := by
  rw [List.cons_append] at h
  rw [List.cons_append, list_of_not_read h, list_append_of_not_mem hinside, Text.size_cons,
    Nat.add_assoc]

/-- An opening tag of the name is met. -/
theorem list_opening {rest : Text} {o : Opening}
    (h : Opening.read? (o.source ++ rest) = some (o, rest)) (start : Nat) :
    list o.name start (o.source ++ rest) =
      (if o.selfClosing then single start else opens start) ::
        list o.name (start + o.source.size) rest := by
  refine list_of_read ?_
  rw [read?_of_opening start h, if_pos rfl]

/-- An opening tag of another name is passed over, where its body holds no `[`. -/
theorem list_opening_of_ne {name rest : Text} {o : Opening}
    (h : Opening.read? (o.source ++ rest) = some (o, rest)) (hne : o.name ≠ name)
    (hbody : '[' ∉ o.body) (start : Nat) :
    list name start (o.source ++ rest) = list name (start + o.source.size) rest := by
  obtain ⟨-, hname, -⟩ := Opening.read?_eq_some_iff.1 h
  have hread : read? name start (o.source ++ rest) = none := by
    rw [read?_of_opening start h, if_neg hne]
  exact list_of_bracket (by simp [Opening.bracket_not_mem_of_isTagName hname, hbody]) hread

/-- A close marker tells its name. -/
theorem closeMarker_append_inj {name other rest rest' : Text} (hname : isTagName name = true)
    (hother : isTagName other = true)
    (h : closeMarker other ++ rest = closeMarker name ++ rest') : other = name := by
  simp only [closeMarker, List.cons_append, List.append_assoc, List.nil_append, List.cons.injEq,
    true_and] at h
  have hend : endsToken (']' :: rest) = true := rfl
  rw [← (Opening.takeWhile_name hother hend).1, h]
  exact (Opening.takeWhile_name hname rfl).1

/-- A close marker of another name is passed over. -/
theorem list_closeMarker_of_ne {name other : Text} (hname : isTagName name = true)
    (hother : isTagName other = true) (hne : other ≠ name) (start : Nat) (rest : Text) :
    list name start (closeMarker other ++ rest) =
      list name (start + (closeMarker other).size) rest := by
  refine list_of_bracket (by simp [Opening.bracket_not_mem_of_isTagName hother]) ?_
  rw [Option.eq_none_iff_forall_ne_some]
  rintro ⟨mark, stop, r⟩ h
  rcases read?_eq_some_iff.1 h with ⟨ht, -⟩ | ⟨o, ho, -⟩
  · exact hne (closeMarker_append_inj hname hother ht)
  · obtain ⟨u, hn, -⟩ := Opening.read?_eq_some_iff_name.1 ho
    exact absurd (hn.symm.trans (Opening.name?_closeMarker other rest)) (by simp)

/-- A close marker of the name is met. -/
theorem list_closeMarker (name rest : Text) (start : Nat) :
    list name start (closeMarker name ++ rest) =
      closes ⟨start, start + (closeMarker name).size⟩ ::
        list name (start + (closeMarker name).size) rest :=
  list_of_read (read?_eq_some_iff.2 (.inl ⟨rfl, rfl, rfl⟩))

/-- How many tags are open behind marks and further marks. -/
theorem openBehind_append {pending e : Nat} {marks : List Mark}
    (h : openBehind pending marks = some e) (later : List Mark) :
    openBehind pending (marks ++ later) = openBehind e later := by
  induction marks generalizing pending with
  | nil =>
    obtain rfl := Option.some.inj h
    rfl
  | cons mark marks ih =>
    cases mark with
    | opens s => exact ih h
    | single s => exact ih h
    | closes span =>
      cases pending with
      | zero => exact absurd h (by simp [openBehind])
      | succ n => exact ih h

end Mark

/-! ## Documents -/

/-- A document as a row of nodes, each followed by the rest of the row. -/
inductive Document
  /-- No node. -/
  | done
  /-- A text. -/
  | text (run : Text) (rest : Document)
  /-- A self-closing tag. -/
  | single (name : Text) (tokens : List AttrToken) (rest : Document)
  /-- A tag around a document. -/
  | paired (name : Text) (tokens : List AttrToken) (content rest : Document)

namespace Document

/-- The opening tag of a node, with each value in double quotes. -/
def opening (name : Text) (tokens : List AttrToken) (slash : Bool) : Opening :=
  .written name (tokens.map fun token => ('"', token)) slash

/-- The document as written. -/
def print : Document → Text
  | done => []
  | text run rest => run ++ rest.print
  | single name tokens rest => (opening name tokens true).source ++ rest.print
  | paired name tokens content rest =>
    (opening name tokens false).source ++ (content.print ++ (closeMarker name ++ rest.print))

/-- How deep paired tags are nested. -/
def depth : Document → Nat
  | done => 0
  | text _ rest => rest.depth
  | single _ _ rest => rest.depth
  | paired _ _ content rest => max (content.depth + 1) rest.depth

/-- Attributes that can be printed: no value holds a `[`, keys consist of key
    characters, and no key occurs twice. -/
structure PrintableTokens (tokens : List AttrToken) : Prop where
  texts : ∀ token ∈ tokens, '[' ∉ token.text
  keys : ∀ token ∈ tokens, token.HasKey
  nodup : (tokens.filterMap AttrToken.name?).Nodup

/-- A document that can be printed: no text holds a `[`, and the tags have known names
    and attributes that can be printed. -/
def Printable (known : Text → Bool) : Document → Prop
  | done => True
  | text run rest => '[' ∉ run ∧ rest.Printable known
  | single name tokens rest =>
    known name = true ∧ PrintableTokens tokens ∧ rest.Printable known
  | paired name tokens content rest =>
    known name = true ∧ PrintableTokens tokens ∧ content.Printable known ∧ rest.Printable known

section

variable {known : Text → Bool} {name : Text} {tokens : List AttrToken}

theorem PrintableTokens.writable (h : PrintableTokens tokens) :
    AttrToken.Writable (tokens.map fun token => ('"', token)) := by
  rintro p hp
  obtain ⟨token, htoken, rfl⟩ := List.mem_map.1 hp
  exact ⟨rfl, h.keys token htoken⟩

/-- A printed tag is read back, whatever stands behind it. -/
theorem read?_opening (hname : isTagName name = true) (h : PrintableTokens tokens) (slash : Bool)
    (rest : Text) :
    Opening.read? ((opening name tokens slash).source ++ rest) =
      some (opening name tokens slash, rest) :=
  Opening.read?_written hname h.writable slash rest

theorem selfClosing_opening (h : PrintableTokens tokens) (name : Text) (slash : Bool) :
    (opening name tokens slash).selfClosing = slash :=
  Opening.selfClosing_written name h.writable slash

/-- A printed tag has the attributes that it was printed with. -/
theorem attrs_opening (h : PrintableTokens tokens) (name : Text) (slash : Bool) :
    (opening name tokens slash).attrs = ⟨Attributes.number 0 tokens⟩ := by
  have hmap : (tokens.map fun token => ('"', token)).map (·.2) = tokens := by
    rw [List.map_map]
    exact List.map_id' tokens
  have hattrs := Opening.attrs_written name h.writable (by rw [hmap]; exact h.nodup) slash
  rwa [hmap] at hattrs

/-- No bracket opens in the body of a printed tag. -/
theorem not_mem_body_opening (h : PrintableTokens tokens) (name : Text) (slash : Bool) :
    '[' ∉ (opening name tokens slash).body := by
  have hlist : '[' ∉ AttrToken.writtenList (tokens.map fun token => ('"', token)) := by
    refine AttrToken.not_mem_writtenList (by decide) (by decide) (by decide) fun p hp => ?_
    obtain ⟨token, htoken, rfl⟩ := List.mem_map.1 hp
    exact ⟨by simp, h.texts token htoken, h.keys token htoken⟩
  cases slash <;> simp [opening, Opening.written, hlist]

end

/-! ## The marks of a printed document -/

/-- The marks of a printed document leave as many tags open as there were before it,
    and the walk goes on behind it. -/
theorem exists_list_print {known : Text → Bool} (hknown : ∀ n, known n = true → isTagName n = true)
    {name : Text} (hname : isTagName name = true) {doc : Document} (h : doc.Printable known)
    (start : Nat) (rest : Text) :
    ∃ inner, Mark.list name start (doc.print ++ rest) =
        inner ++ Mark.list name (start + doc.print.size) rest ∧
      ∀ pending, Mark.openBehind pending inner = some pending := by
  induction doc generalizing start rest with
  | done => exact ⟨[], rfl, fun _ => rfl⟩
  | text run doc ih =>
    obtain ⟨inner, hlist, hopen⟩ := ih h.2 (start + run.size) rest
    refine ⟨inner, ?_, hopen⟩
    rw [print, List.append_assoc, Mark.list_append_of_not_mem h.1, hlist, Text.size_append,
      Nat.add_assoc]
  | single n tokens doc ih =>
    obtain ⟨hn, htokens, hdoc⟩ := h
    obtain ⟨inner, hlist, hopen⟩ := ih hdoc (start + (opening n tokens true).source.size) rest
    have hread := read?_opening (hknown n hn) htokens true (doc.print ++ rest)
    rw [print, List.append_assoc, Text.size_append, ← Nat.add_assoc]
    by_cases hne : n = name
    · -- a self-closing tag is met, but opens nothing
      subst hne
      have hmark := Mark.list_opening hread start
      rw [selfClosing_opening htokens, if_pos rfl] at hmark
      exact ⟨.single start :: inner, hmark.trans (congrArg _ hlist), hopen⟩
    · have hpass := Mark.list_opening_of_ne hread hne (not_mem_body_opening htokens n true) start
      exact ⟨inner, hpass.trans hlist, hopen⟩
  | paired n tokens content doc ihContent ihDoc =>
    obtain ⟨hn, htokens, hcontent, hdoc⟩ := h
    have hread := read?_opening (hknown n hn) htokens false
      (content.print ++ (closeMarker n ++ (doc.print ++ rest)))
    obtain ⟨inner₁, hlist₁, hopen₁⟩ := ihContent hcontent
      (start + (opening n tokens false).source.size) (closeMarker n ++ (doc.print ++ rest))
    obtain ⟨inner₂, hlist₂, hopen₂⟩ := ihDoc hdoc
      (start + (opening n tokens false).source.size + content.print.size + (closeMarker n).size)
      rest
    simp only [print, List.append_assoc, Text.size_append, ← Nat.add_assoc]
    by_cases hne : n = name
    · -- the tag opens one more, which is open until its own close marker
      subst hne
      have hmark := Mark.list_opening hread start
      rw [selfClosing_opening htokens, if_neg (by decide)] at hmark
      rw [Mark.list_closeMarker, hlist₂, ← List.cons_append, ← List.append_assoc inner₁] at hlist₁
      refine ⟨.opens start :: (inner₁ ++ .closes ⟨_, _⟩ :: inner₂),
        hmark.trans (congrArg (List.cons _) hlist₁), fun pending => ?_⟩
      rw [Mark.openBehind, Mark.openBehind_append (hopen₁ _)]
      exact hopen₂ pending
    · -- neither the opening tag nor the close marker is seen, but what is between them
      have hpass := Mark.list_opening_of_ne hread hne (not_mem_body_opening htokens n false) start
      rw [hpass, hlist₁, Mark.list_closeMarker_of_ne hname (hknown n hn) hne, hlist₂]
      refine ⟨inner₁ ++ inner₂, by rw [List.append_assoc], fun pending => ?_⟩
      rw [Mark.openBehind_append (hopen₁ pending), hopen₂]

/-! ## The tags of a printed document -/

variable {known : Text → Bool} {name : Text} {tokens : List AttrToken}

/-- Behind a printed opening tag, the search finds the close marker behind the content
    that was printed. -/
theorem findClose_print (hknown : ∀ n, known n = true → isTagName n = true)
    (hname : known name = true) {content : Document} (hcontent : content.Printable known)
    (start : Nat) (rest : Text) :
    findClose name start (content.print ++ (closeMarker name ++ rest)) =
      some ⟨start + content.print.size, start + content.print.size + (closeMarker name).size⟩ := by
  obtain ⟨inner, hlist, hopen⟩ := exists_list_print hknown (hknown name hname) hcontent start
    (closeMarker name ++ rest)
  rw [Mark.list_closeMarker] at hlist
  exact Mark.close?_eq_some_iff.2 ⟨inner, _, hlist, hopen 0⟩

/-- A text in front of a document is copied. -/
theorem scan_text {run : Text} (h : '[' ∉ run) (start : Nat) (rest : Text) :
    Piece.scan Closing.direct known start (run ++ rest) =
      run.foldr Piece.push (Piece.scan Closing.direct known (start + run.size) rest) := by
  induction run generalizing start with
  | nil => rfl
  | cons c run ih =>
    rw [List.mem_cons, not_or] at h
    rw [List.cons_append, scan_char fun hc => absurd hc (Ne.symm h.1), ih h.2, List.foldr_cons,
      Text.size_cons, Nat.add_assoc]

/-- A printed self-closing tag is cut off as such. -/
theorem scan_single (hname : isTagName name = true) (hk : known name = true)
    (h : PrintableTokens tokens) (start : Nat) (rest : Text) :
    ∃ tag : Tag, tag.opening = opening name tokens true ∧ tag.content = none ∧
      Piece.scan Closing.direct known start ((opening name tokens true).source ++ rest) =
        (.tag tag :: Piece.scan Closing.direct known tag.stop rest : List Piece) := by
  refine ⟨⟨start, opening name tokens true, none⟩, rfl, rfl, ?_⟩
  refine scan_tag_of_read (read?_opening hname h true rest) rfl hk (by simp [Tag.source]) ?_
  rw [closeOf, selfClosing_opening h, if_pos rfl]
  rfl

/-- A printed paired tag is cut off with the content that was printed in it. -/
theorem scan_paired (hknown : ∀ n, known n = true → isTagName n = true)
    (hk : known name = true) (h : PrintableTokens tokens) {content : Document}
    (hcontent : content.Printable known) (start : Nat) (rest : Text) :
    ∃ tag : Tag, tag.opening = opening name tokens false ∧ tag.content = some content.print ∧
      Piece.scan Closing.direct known start ((opening name tokens false).source ++
          (content.print ++ (closeMarker name ++ rest))) =
        (.tag tag :: Piece.scan Closing.direct known tag.stop rest : List Piece) := by
  refine ⟨⟨start, opening name tokens false, some content.print⟩, rfl, rfl, ?_⟩
  refine scan_tag_of_read (read?_opening (hknown name hk) h false _) rfl hk ?_ ?_
  · rw [Tag.source_append]
    rfl
  · rw [closeOf, selfClosing_opening h, if_neg (by decide)]
    exact (findClose_print hknown hk hcontent _ rest).symm

end Document

end Shortcode
