import Shortcode.Proofs.Document
import Shortcode.Proofs.Expansion

/-!
# Expanding a printed document

A document has a value of its own, from the inside out: a text is itself, and a tag
is what its handler answers on its attributes and on the value of its content. Where
no handler fails and the depth limit is not passed, expanding the printed document
gives that value, and calls the handlers in the order in which the tags end.

* `Document.value`, `Document.calls`: the value of a document, and the calls behind it.
* `Document.assemble_print`: how a printed document expands within a depth.
* `Document.expand_print`: the expansion of a printed document is its value.
-/

namespace Shortcode

namespace Document

variable {ε η : Type} (render : Render ε η) (e : Engine η)

/-- The answer of the handler that a name is bound to; no answer, and a failure, count
    as an empty text. -/
def answer (name : Text) (attrs : Attributes) (content : Option Text) : Text :=
  match e.handler? name with
  | some handler =>
    match render handler attrs content with
    | .ok answer => answer.getD []
    | .error _ => []
  | none => []

/-- The value of a document. -/
def value : Document → Text
  | done => []
  | text run rest => run ++ rest.value
  | single name tokens rest =>
    answer render e name ⟨Attributes.number 0 tokens⟩ none ++ rest.value
  | paired name tokens content rest =>
    answer render e name ⟨Attributes.number 0 tokens⟩ (some content.value) ++ rest.value

/-- The calls that the value of a document takes: those of its content in front of that
    of a tag, and one for each tag. -/
def calls : Document → List Call
  | done => []
  | text _ rest => rest.calls
  | single name tokens rest => ⟨name, ⟨Attributes.number 0 tokens⟩, none⟩ :: rest.calls
  | paired name tokens content rest =>
    content.calls ++
      ⟨name, ⟨Attributes.number 0 tokens⟩, some (content.value render e)⟩ :: rest.calls

/-- No handler fails on a call. -/
def Answered (calls : List Call) : Prop :=
  ∀ call ∈ calls, ∀ handler, e.handler? call.tag = some handler →
    ∃ answer, render handler call.attrs call.content = .ok answer

variable {render e}

/-- A printed tag is dispatched with its attributes, where its content is expanded well. -/
theorem call_opening {name : Text} {tokens : List AttrToken} {slash : Bool} {tag : Tag}
    {content : Option Text} (hk : e.contains name = true) (htokens : PrintableTokens tokens)
    (hopening : tag.opening = opening name tokens slash)
    (hanswered : Answered render e [⟨name, ⟨Attributes.number 0 tokens⟩, content⟩]) :
    ∃ handler, e.handler? tag.name = some handler ∧
      e.call render tag handler content =
        ⟨[⟨name, ⟨Attributes.number 0 tokens⟩, content⟩],
          .ok (answer render e name ⟨Attributes.number 0 tokens⟩ content)⟩ := by
  obtain ⟨handler, hhandler⟩ := Option.isSome_iff_exists.1 hk
  obtain ⟨answer, hanswer⟩ := hanswered _ List.mem_cons_self handler hhandler
  have hname : tag.name = name := by
    rw [Tag.name, hopening]
    rfl
  have hattrs : tag.opening.attrs = ⟨Attributes.number 0 tokens⟩ := by
    rw [hopening, attrs_opening htokens]
  have hrender : render handler tag.opening.attrs content = .ok answer := by
    rw [hattrs]
    exact hanswer
  refine ⟨handler, by rw [hname, hhandler], ?_⟩
  rw [Engine.call_of_ok hrender, hname, hattrs, Document.answer, hhandler]
  simp only [hanswer]

/-- A text in front of pieces is copied. -/
theorem assemble_text {inner : Text → Run ε Text} (run : Text) (pieces : List Piece) :
    e.assemble render inner (run.foldr Piece.push pieces) =
      (run ++ ·) <$> e.assemble render inner pieces := by
  induction run with
  | nil => exact (Run.id_map _).symm
  | cons c run ih =>
    rw [List.foldr_cons, Engine.assemble_push, ih, Run.map_map]
    rfl

/-- A printed document expands to its value, in as many levels as its paired tags are
    nested. -/
theorem assemble_print (he : e.Built) {doc : Document} (hprintable : doc.Printable e.contains)
    {depth : Nat} (hdepth : doc.depth ≤ depth)
    (hanswered : Answered render e (doc.calls render e)) (start : Nat) :
    e.assemble render (e.inner render depth)
        (Piece.scan Closing.direct e.contains start doc.print) =
      ⟨doc.calls render e, .ok (doc.value render e)⟩ := by
  have hknown : ∀ n, e.contains n = true → isTagName n = true :=
    fun n hn => he.isTagName_of_contains hn
  -- the depth is generalized, since the content of a tag has one level less than the rest
  induction doc generalizing depth start with
  | done =>
    rw [print, scan_nil]
    rfl
  | text run doc ih =>
    rw [print, scan_text hprintable.1, assemble_text, ih hprintable.2 hdepth hanswered]
    rfl
  | single name tokens doc ih =>
    obtain ⟨hk, htokens, hdoc⟩ := hprintable
    obtain ⟨hfirst, hrest⟩ := List.forall_mem_cons.1 hanswered
    obtain ⟨tag, hopening, hcontent, hscan⟩ :=
      scan_single (hknown name hk) hk htokens start doc.print
    obtain ⟨handler, hhandler, hcall⟩ :=
      call_opening hk htokens hopening (List.forall_mem_singleton.2 hfirst)
    have hdispatch : e.dispatch render (e.inner render depth) tag =
        e.call render tag handler none := by
      rw [Engine.dispatch, hhandler, hcontent]
    rw [print, hscan, Engine.assemble, hdispatch, hcall, Run.ok_bind,
      ih hdoc hdepth hrest]
    rfl
  | paired name tokens content doc ihContent ihDoc =>
    obtain ⟨hk, htokens, hcontentPrintable, hdoc⟩ := hprintable
    obtain ⟨hcontentAnswered, hlater⟩ := List.forall_mem_append.1 hanswered
    obtain ⟨hfirst, hrest⟩ := List.forall_mem_cons.1 hlater
    obtain ⟨hcontentDepth, hdocDepth⟩ := Nat.max_le.1 hdepth
    obtain ⟨tag, hopening, hcontent, hscan⟩ :=
      scan_paired hknown hk htokens hcontentPrintable start doc.print
    obtain ⟨handler, hhandler, hcall⟩ :=
      call_opening hk htokens hopening (List.forall_mem_singleton.2 hfirst)
    -- one level is left for the content
    obtain ⟨depth, rfl⟩ :=
      Nat.exists_eq_add_of_le' (Nat.le_trans (Nat.le_add_left 1 _) hcontentDepth)
    have hinner : e.inner render (depth + 1) content.print =
        ⟨content.calls render e, .ok (content.value render e)⟩ := by
      rw [Engine.inner, Engine.expandWithin_eq]
      exact ihContent hcontentPrintable (Nat.le_of_succ_le_succ hcontentDepth) hcontentAnswered 0
    have hdispatch : e.dispatch render (e.inner render (depth + 1)) tag =
        ⟨content.calls render e ++
            [⟨name, ⟨Attributes.number 0 tokens⟩, some (content.value render e)⟩],
          .ok (answer render e name ⟨Attributes.number 0 tokens⟩
            (some (content.value render e)))⟩ := by
      rw [Engine.dispatch, hhandler, hcontent]
      simp only [hinner, Run.ok_bind, hcall]
    rw [print, hscan, Engine.assemble, hdispatch, Run.ok_bind, ihDoc hdoc hdocDepth hrest,
      Run.map_ok, calls, value, List.append_assoc]
    rfl

/-- Expanding a printed document gives its value, by the calls that the value takes,
    where the depth limit is not passed and no handler fails. -/
theorem expand_print (he : e.Built) {doc : Document} (hprintable : doc.Printable e.contains)
    (hdepth : doc.depth ≤ e.config.maxDepth)
    (hanswered : Answered render e (doc.calls render e)) :
    e.expand render doc.print = ⟨doc.calls render e, .ok (doc.value render e)⟩ := by
  rw [Engine.expand, Engine.expandWithin_eq]
  exact assemble_print he hprintable hdepth hanswered 0

/-- The expansion of a tag with one of its own name in it and brackets in its values. -/
theorem expand_print_nested :
    let e : Engine Text := ⟨{}, [(['n'], ['<'])]⟩
    let render : Render Unit Text := fun mark _ content => .ok (some (mark ++ content.getD []))
    let doc : Document := .paired ['n'] [.named ['k'] "a]\"b".toList]
      (.single ['n'] [.positional ['/']] .done) (.text [']'] .done)
    (e.Built ∧ doc.Printable e.contains ∧ doc.depth ≤ e.config.maxDepth ∧
        Answered render e (doc.calls render e)) ∧
      doc.print = "[n k=\"a]\\\"b\"][n \"/\"/][/n]]".toList ∧
      e.expand render doc.print = ⟨doc.calls render e, .ok (doc.value render e)⟩ := by
  intro e render doc
  have hregister : (Engine.empty {}).register ['n'] ['<'] = .ok e := rfl
  have he : e.Built := .register (.empty {}) hregister
  have hnamed : PrintableTokens [.named ['k'] "a]\"b".toList] := by
    refine ⟨List.forall_mem_singleton.2 ?_, List.forall_mem_singleton.2 ?_, by decide⟩
    · decide
    · exact ⟨by decide, List.forall_mem_singleton.2 (by decide)⟩
  have hpositional : PrintableTokens [.positional ['/']] := by
    refine ⟨List.forall_mem_singleton.2 ?_, List.forall_mem_singleton.2 trivial, by decide⟩
    decide
  have hprintable : doc.Printable e.contains :=
    ⟨rfl, hnamed, ⟨rfl, hpositional, trivial⟩, by decide, trivial⟩
  have hdepth : doc.depth ≤ e.config.maxDepth := by decide
  have hanswered : Answered render e (doc.calls render e) := fun call _ handler _ => ⟨_, rfl⟩
  exact ⟨⟨he, hprintable, hdepth, hanswered⟩, rfl, expand_print he hprintable hdepth hanswered⟩

end Document

end Shortcode
