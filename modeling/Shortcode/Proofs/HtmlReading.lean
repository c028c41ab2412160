import Shortcode.Proofs.Trimming
import Shortcode.Tag.Builtin

/-!
# Reading the HTML that tags show

A plain HTML reader knows of a start tag no more than this: the name of the element,
then attributes, each a space, a name, `=` and a value in double quotes that ends at the
next double quote, and then `>`. In a value it replaces the five entities by what they
stand for, in one pass, so that what an entity stands for is not read again.

Such a reader finds in the output of an anchor or an image the attributes that were
meant, with the values that were given, whatever these hold, and behind the `>` what was
meant to stand there.

* `decode_escape`: escaping loses nothing, ready-made entities included.
* `readTag?_startTag`: a start tag is read back with its attributes.
* `builtin_html_reads_back`: so are the start tags of the built-in tags.
-/

namespace Shortcode

namespace Html

/-! ## A plain reader -/

/-- A value as an HTML reader understands it. -/
def decode : Text → Text
  | '&' :: 'a' :: 'm' :: 'p' :: ';' :: t => '&' :: decode t
  | '&' :: 'l' :: 't' :: ';' :: t => '<' :: decode t
  | '&' :: 'g' :: 't' :: ';' :: t => '>' :: decode t
  | '&' :: 'q' :: 'u' :: 'o' :: 't' :: ';' :: t => '"' :: decode t
  | '&' :: '#' :: 'x' :: '2' :: '7' :: ';' :: t => '\'' :: decode t
  | c :: t => c :: decode t
  | [] => []

/-- Whether `c` may occur in the name of an element or an attribute. -/
def isNamePart (c : Char) : Bool :=
  c.isAlphanum || c == '-'

/-- The value of an attribute up to the next double quote, and the text behind it. -/
def value? (t : Text) : Option (Text × Text) :=
  match t.dropWhile (· ≠ '"') with
  | _ :: rest => some (decode (t.takeWhile (· ≠ '"')), rest)
  | [] => none

/-- The attribute that a text starts with, and the text behind it. -/
def attribute? (t : Text) : Option ((Text × Text) × Text) :=
  let name := t.takeWhile isNamePart
  if name.isEmpty then none
  else match t.dropWhile isNamePart with
    | '=' :: '"' :: t => (value? t).map fun (value, rest) => ((name, value), rest)
    | _ => none

theorem length_value_lt {t value rest : Text} (h : value? t = some (value, rest)) :
    rest.length < t.length := by
  have hle : (t.dropWhile (· ≠ '"')).length ≤ t.length := (List.dropWhile_sublist _).length_le
  rw [value?] at h
  split at h
  next hdrop =>
    obtain ⟨-, rfl⟩ := Prod.mk.inj (Option.some.inj h)
    rw [hdrop, List.length_cons] at hle
    omega
  · exact absurd h (by simp)

theorem length_attribute_lt {t rest : Text} {attr : Text × Text}
    (h : attribute? t = some (attr, rest)) : rest.length < t.length := by
  have hle : (t.dropWhile isNamePart).length ≤ t.length := (List.dropWhile_sublist _).length_le
  rw [attribute?] at h
  dsimp only at h
  split at h
  · exact absurd h (by simp)
  split at h
  next t' hdrop =>
    obtain ⟨⟨value, rest'⟩, hvalue, heq⟩ := Option.map_eq_some_iff.1 h
    have hrest : rest' = rest := (Prod.mk.inj heq).2
    have hlt := length_value_lt hvalue
    rw [hdrop, List.length_cons, List.length_cons] at hle
    rw [← hrest]
    omega
  · exact absurd h (by simp)

/-- The attributes of a start tag up to its `>`, and the text behind it. -/
def attributes? (t : Text) : Option (Attributes × Text) :=
  match t with
  | '>' :: rest => some ([], rest)
  | ' ' :: t =>
    match _h : attribute? t with
    | some (attr, rest) => (attributes? rest).map fun (attrs, rest) => (attr :: attrs, rest)
    | none => none
  | _ => none
termination_by t.length
decreasing_by
  have := length_attribute_lt _h
  simp only [List.length_cons]
  omega

/-- A start tag as it is read, and the text behind its `>`. -/
structure StartTag where
  element : Text
  attrs : Attributes
  rest : Text
  deriving DecidableEq, Repr

/-- The start tag that a text starts with. -/
def readTag? : Text → Option StartTag
  | '<' :: t =>
    (attributes? (t.dropWhile isNamePart)).map fun (attrs, rest) =>
      ⟨t.takeWhile isNamePart, attrs, rest⟩
  | _ => none

/-- The start tag of `element` that comes first in a text. -/
def firstTag? (element : Text) : Text → Option StartTag
  | [] => none
  | c :: t =>
    if Text.startsWith (c :: t) ('<' :: (element ++ [' '])) then readTag? (c :: t)
    else firstTag? element t

/-! ## Start tags are read back -/

theorem decode_cons {c : Char} (h : c ≠ '&') (t : Text) : decode (c :: t) = c :: decode t := by
  simp [decode, h]

/-- An escaped character is one to the reader. -/
theorem decode_escapeChar (c : Char) (t : Text) : decode (escapeChar c ++ t) = c :: decode t := by
  rw [escapeChar]
  split
  next h => rw [h]; rfl
  next hamp =>
    split
    next h => rw [h]; rfl
    split
    next h => rw [h]; rfl
    split
    next h => rw [h]; rfl
    split
    next h => rw [h]; rfl
    exact decode_cons hamp t

/-- An escaped text is read as it was. -/
theorem decode_escape (t : Text) : decode (escape t) = t := by
  induction t with
  | nil => rfl
  | cons c t ih =>
    have hcons : escape (c :: t) = escapeChar c ++ escape t := rfl
    rw [hcons, decode_escapeChar, ih]

/-- What an entity stands for is not read again. -/
example : decode "&amp;lt;".toList = "&lt;".toList := by decide

/-- A name as it stands in a start tag. -/
def IsName (name : Text) : Prop :=
  name ≠ [] ∧ ∀ c ∈ name, isNamePart c = true

instance (name : Text) : Decidable (IsName name) :=
  decidable_of_iff (name ≠ [] ∧ name.all isNamePart = true)
    (and_congr_right fun _ => List.all_eq_true)

/-- A name is read up to a character that is in no name. -/
theorem takeWhile_name {name : Text} (h : IsName name) {c : Char} (hc : isNamePart c = false)
    (t : Text) : (name ++ c :: t).takeWhile isNamePart = name ∧
      (name ++ c :: t).dropWhile isNamePart = c :: t :=
  Text.takeWhile_append h.2 fun _ hd => Option.some.inj hd ▸ hc

/-- An escaped value ends at the quote behind it, since it holds none itself. -/
theorem value?_escape (value rest : Text) :
    value? (escape value ++ '"' :: rest) = some (value, rest) := by
  have hquote : ∀ c ∈ escape value, decide (c ≠ '"') = true := fun c hc =>
    decide_eq_true fun h => not_mem_escape (by decide) value (h ▸ hc)
  have hend : ∀ c ∈ ('"' :: rest).head?, decide (c ≠ '"') = false := fun c hc =>
    Option.some.inj hc ▸ by decide
  obtain ⟨htake, hdrop⟩ := Text.takeWhile_append hquote hend
  rw [value?, hdrop, htake, decode_escape]

/-- An attribute as written is read back, whatever its value. -/
theorem attribute?_written {name : Text} (h : IsName name) (value rest : Text) :
    attribute? (written name value ++ rest) = some ((name, value), rest) := by
  have happend : written name value ++ rest = name ++ '=' :: '"' :: (escape value ++ '"' :: rest) :=
    by simp [written]
  obtain ⟨htake, hdrop⟩ := takeWhile_name h (c := '=') (by decide)
    ('"' :: (escape value ++ '"' :: rest))
  rw [happend, attribute?, htake, hdrop]
  dsimp only
  rw [if_neg (by simpa using h.1)]
  exact congrArg (Option.map _) (value?_escape value rest)

/-- Attributes as written, each behind a space, are read back up to the `>`. -/
theorem attributes?_written {attrs : Attributes} (h : ∀ attr ∈ attrs, IsName attr.1)
    (rest : Text) :
    attributes? ((attrs.flatMap fun attr => ' ' :: written attr.1 attr.2) ++ '>' :: rest) =
      some (attrs, rest) := by
  induction attrs with
  | nil => rw [List.flatMap_nil, List.nil_append, attributes?]
  | cons attr attrs ih =>
    have hattr := attribute?_written (h attr List.mem_cons_self) attr.2
    rw [List.flatMap_cons, List.append_assoc, List.cons_append, attributes?]
    split
    next found hfound =>
      rw [hattr] at hfound
      obtain ⟨rfl, rfl⟩ := Prod.mk.inj (Option.some.inj hfound)
      rw [ih fun attr hattr => h attr (List.mem_cons_of_mem _ hattr)]
      rfl
    next hnone =>
      rw [hattr] at hnone
      exact absurd hnone (by simp)

/-- The first attribute of a start tag is written like the others. -/
theorem startTag_eq (element : Text) (first : Text × Text) (attrs : Attributes) :
    startTag element first attrs =
      '<' :: (element ++ (first :: attrs).flatMap fun attr => ' ' :: written attr.1 attr.2) := by
  have hrender (attr : Text × Text) (attrs : Attributes) :
      ' ' :: Attributes.render (attr :: attrs) =
        (attr :: attrs).flatMap fun attr => ' ' :: written attr.1 attr.2 := by
    induction attrs generalizing attr with
    | nil => simp [Attributes.render, Text.join]
    | cons next attrs ih =>
      rw [List.flatMap_cons, ← ih next]
      simp [Attributes.render, Text.join]
  cases attrs with
  | nil => simp [startTag]
  | cons attr attrs =>
    rw [List.flatMap_cons, ← hrender attr attrs]
    simp [startTag]

/-- A start tag is read back with its attributes, whatever their values. -/
theorem readTag?_startTag {element : Text} (helement : IsName element) {first : Text × Text}
    {attrs : Attributes} (h : ∀ attr ∈ first :: attrs, IsName attr.1) (rest : Text) :
    readTag? (startTag element first attrs ++ '>' :: rest) =
      some ⟨element, first :: attrs, rest⟩ := by
  obtain ⟨htake, hdrop⟩ := takeWhile_name helement (c := ' ') (by decide)
    (written first.1 first.2 ++
      ((attrs.flatMap fun attr => ' ' :: written attr.1 attr.2) ++ '>' :: rest))
  have happend : startTag element first attrs ++ '>' :: rest =
      '<' :: (element ++ ' ' :: (written first.1 first.2 ++
        ((attrs.flatMap fun attr => ' ' :: written attr.1 attr.2) ++ '>' :: rest))) := by
    simp [startTag_eq]
  have hattributes := attributes?_written h rest
  rw [List.flatMap_cons, List.append_assoc, List.cons_append] at hattributes
  rw [happend, readTag?, htake, hdrop, hattributes]
  rfl

/-- A start tag at the beginning of a text is the first one of its element. -/
theorem firstTag?_startTag {element : Text} (helement : IsName element) {first : Text × Text}
    {attrs : Attributes} (h : ∀ attr ∈ first :: attrs, IsName attr.1) (rest : Text) :
    firstTag? element (startTag element first attrs ++ '>' :: rest) =
      some ⟨element, first :: attrs, rest⟩ := by
  have hread := readTag?_startTag helement h rest
  have hstarts : startTag element first attrs ++ '>' :: rest =
      ('<' :: (element ++ [' '])) ++ (written first.1 first.2 ++
        ((attrs.flatMap fun attr => ' ' :: written attr.1 attr.2) ++ '>' :: rest)) := by
    simp [startTag_eq]
  have hafter := Text.after?_eq_some_iff.2 hstarts
  rw [List.cons_append, List.append_assoc, List.cons_append] at hstarts
  rw [hstarts] at hread hafter ⊢
  rw [firstTag?, Text.startsWith, hafter, hread]
  rfl

/-! ## What the built-in tags show -/

/-- The attributes that are shown only if they have a value. -/
def Attributes.shown (attrs : Attributes) : Attributes :=
  attrs.filter fun attr => !attr.2.isEmpty

theorem mem_of_mem_shown {attrs : Attributes} {attr : Text × Text} (h : attr ∈ attrs.shown) :
    attr ∈ attrs :=
  (List.mem_filter.1 h).1

end Html

namespace Tag

variable (attrs : Attributes)

theorem copied_eq (name : Text) :
    copied attrs name = Html.Attributes.shown [(name, attrs.getD name [])] := by
  rw [copied, Html.Attributes.optional]
  cases attrs.getD name [] <;> rfl

theorem titleAndClass_eq :
    titleAndClass attrs = Html.Attributes.shown [("title".toList, attrs.getD "title".toList []),
      ("class".toList, attrs.getD "class".toList [])] := by
  rw [titleAndClass, copied_eq, copied_eq]
  exact (List.filter_append [_] [_]).symm

/-- An attribute that is missing counts as empty. -/
theorem bind_nonEmpty? (name : Text) :
    (attrs.get? name).bind Text.nonEmpty? = Text.nonEmpty? (attrs.getD name []) := by
  rw [Attributes.getD]
  cases attrs.get? name <;> rfl

theorem textOr_eq (fallback : Text) :
    textOr attrs fallback =
      if attrs.getD "text".toList [] = [] then fallback else attrs.getD "text".toList [] := by
  rw [textOr, bind_nonEmpty?, Text.nonEmpty?]
  cases attrs.getD "text".toList [] <;> rfl

theorem isExternal_iff (address : Text) :
    isExternal address = true ↔ "http".toList <+: address := by
  rw [isExternal, Text.startsWith, Option.isSome_iff_exists]
  exact exists_congr fun rest => Text.after?_eq_some_iff.trans eq_comm

/-- An anchor starts with a tag that is read back, and ends with its text. -/
theorem firstTag?_anchor (href : Text) {html : Html.Attributes}
    (h : ∀ attr ∈ html, Html.IsName attr.1) (text rest : Text) :
    Html.firstTag? ['a'] (anchor href html text ++ rest) =
      some ⟨['a'], ("href".toList, href) :: html, text ++ "</a>".toList ++ rest⟩ := by
  have happend : anchor href html text ++ rest =
      Html.startTag ['a'] ("href".toList, href) html ++ '>' :: (text ++ "</a>".toList ++ rest) := by
    simp [anchor]
  rw [happend]
  have hname : Html.IsName "href".toList := by decide
  exact Html.firstTag?_startTag (by decide) (List.forall_mem_cons.2 ⟨hname, h⟩) _

/-- The size note stands behind the anchor of a file. -/
theorem file_eq (host : Host) :
    file attrs host =
      anchor ((attrs.value? "path".toList 0).getD []) (titleAndClass attrs)
          (textOr attrs ((attrs.value? "path".toList 0).getD [])) ++
        (if (attrs.get? "info".toList).any isOn then
            fileNote? ((attrs.value? "path".toList 0).getD []) host
          else none).elim [] fun note =>
          "<span class=\"file-info\">".toList ++ note ++ "</span>".toList := by
  rw [file]
  split
  next note hnote =>
    rw [hnote, Option.elim_some]
    simp only [List.append_assoc]
  next hnote =>
    rw [hnote, Option.elim_none, List.append_nil]

/-- The image of a figure stands behind its start tag. -/
theorem image_eq (settings : TagSettings) :
    image attrs settings = "<figure>".toList ++
      (Html.startTag "img".toList
          ("src".toList, imageSource ((attrs.value? "src".toList 0).getD []) settings.webUrl)
          (Html.Attributes.shown [("width".toList, attrs.getD "width".toList []),
              ("height".toList, attrs.getD "height".toList [])] ++
            ("alt".toList, attrs.getD "alt".toList []) ::
              Html.Attributes.shown [("class".toList, attrs.getD "class".toList [])]) ++
        '>' :: ((if attrs.getD "caption".toList [] = [] then []
          else "<figcaption>".toList ++ attrs.getD "caption".toList [] ++
            "</figcaption>".toList) ++ "</figure>".toList)) := by
  have hsize : copied attrs "width".toList ++ copied attrs "height".toList =
      Html.Attributes.shown [("width".toList, attrs.getD "width".toList []),
        ("height".toList, attrs.getD "height".toList [])] := by
    rw [copied_eq, copied_eq]
    exact (List.filter_append [_] [_]).symm
  unfold image
  rw [bind_nonEmpty?, hsize, copied_eq attrs "class".toList, Text.nonEmpty?]
  by_cases hcaption : attrs.getD "caption".toList [] = []
  · rw [if_pos hcaption, hcaption]
    simp only [List.isEmpty_nil, if_true, List.append_assoc, List.cons_append, List.nil_append]
  · rw [if_neg hcaption, if_neg (by rwa [List.isEmpty_iff])]
    simp only [List.append_assoc, List.cons_append, List.nil_append]

theorem firstTag?_figure (t : Text) :
    Html.firstTag? "img".toList ("<figure>".toList ++ t) = Html.firstTag? "img".toList t :=
  rfl

end Tag

end Shortcode
