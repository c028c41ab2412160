import Mathlib.Algebra.GroupWithZero.Nat
import Shortcode.CommandLine.Run
import Shortcode.Proofs.DepthLimit
import Shortcode.Proofs.TagPositions

/-!
# Lines of the list of tags

The list of tags has one entry for each tag, and each entry is printed with a line break
behind it. So the output has a line for each tag, as long as no entry holds a break of its
own. An entry is made up of numbers, a name and the attribute text of the tag, and of these
only the attribute text can hold one: the attributes of a tag may stand on several lines.

* `outcome_perform_scan`: the command prints the list of the document it reads.
* `ScanEntry.count_line`: a printed entry has the line breaks of its attribute text.
* `scan_prints_line_per_tag_iff`: when the output has a line for each tag.
-/

namespace Shortcode

/-- The attribute text of a tag ends with no blank. -/
theorem Opening.getLast?_attrText (o : Opening) : ∀ c ∈ o.attrText.getLast?, isBlank c = false := by
  rw [attrText]
  split
  · exact Text.getLast?_trimEnd _
  · exact Text.getLast?_trimEnd _

/-- Every listed tag has the name of a tag. -/
theorem Engine.isTagName_of_mem_tags {η : Type} {engine : Engine η} {body : Text} {tag : Tag}
    (htag : tag ∈ engine.tags body) : isTagName tag.name = true := by
  rw [engine.tags_eq_direct] at htag
  exact (cut_scan engine.contains 0 body).isTagName_of_mem tag htag

namespace CommandLine

variable {η : Type}

/-! ## The command -/

theorem scan_of_read {engine : Engine η} {source body : Text} {fields : Fields}
    (h : FrontMatter.read? source = some (fields, body)) :
    scan engine source = .ok ((ScanEntry.ofSource engine source body).map ScanEntry.line) := by
  rw [scan, frontMatter, h]
  rfl

/-- What the command does: it loads the configuration, builds the engine, reads the document
    and prints the list of its tags, and it fails where one of these does. -/
theorem outcome_perform_scan {request : Request} (hscan : request.command = .scan)
    (world : World) :
    (request.perform world).outcome = (do
      let config ← (Config.load world.files world.env request.config
        (some request.overrides)).mapError .config
      let engine ← (build config).outcome
      let document ← (world.document request.file).mapError .unreadable
      let printed ← scan engine document.source
      pure (lines printed)) := by
  simp only [Request.perform, hscan, Work.outcome_bind]
  rfl

/-! ## Line breaks -/

/-- Each entry of a list is printed with a line break behind its own ones. -/
theorem count_lines (ls : List Text) :
    (lines ls).count '\n' = ls.length + (ls.map (List.count '\n')).sum := by
  induction ls with
  | nil => rfl
  | cons l ls ih =>
    have hcons : lines (l :: ls) = l ++ '\n' :: lines ls := by
      simp [lines]
    rw [hcons, List.count_append, List.count_cons_self, ih, List.map_cons, List.sum_cons,
      List.length_cons]
    omega

namespace ScanEntry

/-- A printed entry has the line breaks of its attribute text. -/
theorem count_line {entry : ScanEntry} (hname : isTagName entry.name = true)
    (hlast : ∀ c ∈ entry.attrText.getLast?, isBlank c = false) :
    entry.line.count '\n' = entry.attrText.count '\n' := by
  have hdecimal (n : Nat) : (decimal n).count '\n' = 0 :=
    List.count_eq_zero.2 fun h => absurd (isDigit_of_mem_decimal h) (by decide)
  have hword : entry.name.count '\n' = 0 :=
    List.count_eq_zero.2 (Opening.not_mem_of_isTagName hname (by decide))
  have hkind : (if entry.paired then "paired" else "single").toList.count '\n' = 0 := by
    cases entry.paired <;> decide
  have hshape : entry.line = Text.trimEnd ((decimal entry.position.line ++ ':' ::
      (decimal entry.position.column ++ ' ' :: (entry.name ++ ' ' :: '(' ::
        (if entry.paired then "paired" else "single").toList))) ++
      ')' :: ' ' :: entry.attrText) := by
    simp [line]
  -- of the blanks at the end only the one in front of no attributes is cut
  have htrim : (Text.trimEnd (' ' :: entry.attrText)).count '\n' =
      entry.attrText.count '\n' := by
    cases hattr : entry.attrText with
    | nil => rfl
    | cons c t =>
      rw [hattr] at hlast
      rw [Text.trimEnd_eq_self (by simpa using hlast)]
      rfl
  rw [hshape, Text.trimEnd_append_cons _ (by decide)]
  simp [hdecimal, hword, hkind, htrim]

/-- The printed entries have, one by one, the line breaks of the attribute texts. -/
theorem map_count_line (engine : Engine η) (source body : Text) :
    ((ofSource engine source body).map line).map (List.count '\n') =
      (engine.tags body).map fun tag => tag.opening.attrText.count '\n' := by
  rw [ofSource, List.map_map, List.map_map]
  exact List.map_congr_left fun tag htag => count_line (Engine.isTagName_of_mem_tags htag)
    tag.opening.getLast?_attrText

end ScanEntry

/-- None of some texts holds a line break if and only if none is counted in them. -/
theorem forall_not_mem_iff {α : Type} (text : α → Text) (l : List α) :
    (∀ a ∈ l, '\n' ∉ text a) ↔ (l.map fun a => (text a).count '\n').sum = 0 := by
  simp [List.sum_eq_zero_iff_forall_eq_nat, List.count_eq_zero]

/-- The list of tags has one entry for each tag, with the line breaks of its attribute text and
    no others. So no entry is broken, and the output has as many lines as there are tags, if
    and only if no attribute text holds a line break. -/
theorem scan_prints_line_per_tag_iff (engine : Engine η) {source body : Text} {fields : Fields}
    (h : FrontMatter.read? source = some (fields, body)) :
    let unbroken := ∀ tag ∈ engine.tags body, '\n' ∉ tag.opening.attrText
    ∃ printed, scan engine source = .ok printed ∧
      printed.length = (engine.tags body).length ∧
      printed.map (List.count '\n') =
        ((engine.tags body).map fun tag => tag.opening.attrText.count '\n') ∧
      ((∀ line ∈ printed, '\n' ∉ line) ↔ unbroken) ∧
      ((lines printed).count '\n' = (engine.tags body).length ↔ unbroken) := by
  intro unbroken
  have hlength : ((ScanEntry.ofSource engine source body).map ScanEntry.line).length =
      (engine.tags body).length := by
    rw [List.length_map, ScanEntry.length_ofSource]
  have hbreaks := ScanEntry.map_count_line engine source body
  have hnone : unbroken ↔
      (((ScanEntry.ofSource engine source body).map ScanEntry.line).map (List.count '\n')).sum =
        0 := by
    rw [hbreaks]
    exact forall_not_mem_iff _ _
  refine ⟨_, scan_of_read h, hlength, hbreaks, ?_, ?_⟩
  · exact (forall_not_mem_iff (fun line => line) _).trans hnone.symm
  · rw [count_lines, hlength, Nat.add_eq_left, hnone]

/-- Behind front matter, a tag with line breaks around its attributes and in its content, and
    one without any: an attribute text with a line break is in neither of them. -/
theorem scan_prints_line_per_tag_around :
    let engine : Engine Unit := ⟨{}, [(['b'], ())]⟩
    let source := "---\nt: 1\n---\n[b\n\"x y\"\n]\n[/b] [b/]".toList
    let body := "[b\n\"x y\"\n]\n[/b] [b/]".toList
    let printed := ["4:1 b (paired) \"x y\"".toList, "7:6 b (single)".toList]
    ((∃ fields, FrontMatter.read? source = some (fields, body)) ∧
      ∀ tag ∈ engine.tags body, '\n' ∉ tag.opening.attrText) ∧
    scan engine source = .ok printed ∧ (∀ line ∈ printed, '\n' ∉ line) ∧
      (lines printed).count '\n' = (engine.tags body).length := by
  intro engine source body printed
  have hsplit : FrontMatter.split? source = some ("t: 1\n".toList, body) := by decide +kernel
  have hsome : (FrontMatter.fields? "t: 1\n".toList).isSome = true := by decide +kernel
  obtain ⟨fields, hfields⟩ := Option.isSome_iff_exists.1 hsome
  have hread : FrontMatter.read? source = some (fields, body) := by
    rw [FrontMatter.read?, hsplit]
    exact congrArg (Option.map (·, body)) hfields
  have htags : engine.tags body = [⟨0, ⟨['b'], "\n\"x y\"\n".toList⟩, some ['\n']⟩,
      ⟨16, ⟨['b'], ['/']⟩, none⟩] := by
    rw [engine.tags_eq_direct]
    decide +kernel
  have hunbroken : ∀ tag ∈ engine.tags body, '\n' ∉ tag.opening.attrText := by
    rw [htags]
    decide +kernel
  have hprinted : scan engine source = .ok printed := by
    rw [scan_of_read hread, ScanEntry.ofSource, htags]
    decide +kernel
  obtain ⟨printed', hscan, -, -, hlines, houtput⟩ := scan_prints_line_per_tag_iff engine hread
  obtain rfl : printed = printed' := Except.ok.inj (hprinted.symm.trans hscan)
  exact ⟨⟨⟨fields, hread⟩, hunbroken⟩, hprinted, hlines.2 hunbroken, houtput.2 hunbroken⟩

/-- A tag whose attributes stand on two lines: its entry does so too. -/
theorem scan_breaks_line_attributes :
    let engine := Config.builtins {}
    let source := "[link /a\ntext=A]".toList
    let printed := ["1:1 link (single) /a\ntext=A".toList]
    FrontMatter.read? source = some (Table.empty, source) ∧ scan engine source = .ok printed ∧
      (∃ line ∈ printed, '\n' ∈ line) ∧
      (engine.tags source).length = 1 ∧ (lines printed).count '\n' = 2 := by
  intro engine source printed
  have hsplit : FrontMatter.split? source = none := by decide +kernel
  have hread : FrontMatter.read? source = some (Table.empty, source) := by
    rw [FrontMatter.read?, hsplit]
  have htags : engine.tags source = [⟨0, ⟨"link".toList, " /a\ntext=A".toList⟩, none⟩] := by
    rw [engine.tags_eq_direct]
    decide +kernel
  refine ⟨hread, ?_, by decide, by rw [htags]; rfl, by decide⟩
  rw [scan_of_read hread, ScanEntry.ofSource, htags]
  decide +kernel

end CommandLine

end Shortcode
