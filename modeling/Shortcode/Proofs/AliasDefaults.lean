import Shortcode.Config.Build

/-!
# What a call site gives and what an alias adds

An alias adds its defaults key by key, each where the call site leaves its key out. A
built-in tag reads its main argument under two keys, a name and the first position, and
the name comes first. So the call site wins under every key, and yet not for the main
argument: a default that has its name comes before a value that the call site gives by
position.

* `Attributes.value?_withDefaults`: the four places that are looked at, in their order.
* `Builtin.render_congr`: the main argument is all that a built-in tag looks for under
  the name of it and in the first position.
* `get?_defaultAttributes`: the defaults of a configuration under a name.
* `call_site_wins_iff`: when the call site gives the main argument that is shown.
-/

namespace Shortcode

namespace Attributes

variable (attrs defaults : Attributes) (name : Text)

theorem get?_withDefaults :
    (attrs.withDefaults defaults).get? name = (attrs.get? name).or (defaults.get? name) :=
  attrs.lookup?_withDefaults defaults (.name name)

/-- A value is looked for by name at the call site and in the defaults, and by position
    only then. -/
theorem value?_withDefaults (index : Nat) :
    (attrs.withDefaults defaults).value? name index =
      (attrs.get? name).or ((defaults.get? name).or
        ((attrs.positional? index).or (defaults.positional? index))) := by
  rw [value?, get?_withDefaults, positional?, lookup?_withDefaults, Option.or_assoc]
  rfl

variable {attrs name}

theorem value?_of_get? {value : Text} (h : attrs.get? name = some value) (index : Nat) :
    attrs.value? name index = some value := by
  rw [value?, h, Option.some_or]

/-- A value without a name is given by position. -/
theorem value?_of_get?_eq_none (h : attrs.get? name = none) (index : Nat) :
    attrs.value? name index = attrs.positional? index := by
  rw [value?, h, Option.none_or]

/-- What the call site gives by name is what is seen. -/
theorem value?_withDefaults_of_get? {index : Nat} {given : Text}
    (hnamed : (attrs.get? name).isSome = true) (hgiven : attrs.value? name index = some given) :
    (attrs.withDefaults defaults).value? name index = some given := by
  obtain ⟨value, hvalue⟩ := Option.isSome_iff_exists.1 hnamed
  rw [value?_of_get? hvalue] at hgiven
  rw [value?_withDefaults, hvalue, Option.some_or, hgiven]

/-- What the call site gives by position is seen if the defaults have no such name. -/
theorem value?_withDefaults_of_positional {index : Nat} {given : Text}
    (hnamed : attrs.get? name = none) (hgiven : attrs.value? name index = some given) :
    (attrs.withDefaults defaults).value? name index =
      some ((defaults.get? name).getD given) := by
  rw [value?_of_get?_eq_none hnamed] at hgiven
  rw [value?_withDefaults, hnamed, Option.none_or, hgiven, Option.some_or, Option.or_some]

/-- An assigned key changes nothing among the entries of other keys. -/
theorem filter_assign (keep : AttrKey → Bool) {key : AttrKey} (hkey : keep key = false)
    (value : Text) (entries : List (AttrKey × Text)) :
    (assign key value entries).filter (keep ·.1) = entries.filter (keep ·.1) := by
  induction entries with
  | nil => simp [assign, hkey]
  | cons entry rest ih =>
    obtain ⟨k, v⟩ := entry
    rw [assign]
    split
    next heq => simp [heq, hkey]
    next hne => simp only [List.filter_cons, ih]

/-- A key is looked up among the entries of the keys that are kept, if it is one. -/
theorem lookup_filter (keep : AttrKey → Bool) {key : AttrKey} (hkey : keep key = true)
    (entries : List (AttrKey × Text)) :
    (entries.filter (keep ·.1)).lookup key = entries.lookup key := by
  induction entries with
  | nil => rfl
  | cons entry rest ih =>
    obtain ⟨k, v⟩ := entry
    by_cases heq : key = k
    · simp [← heq, hkey]
    · have hne : (key == k) = false := by simpa using heq
      rw [List.filter_cons, List.lookup_cons, hne]
      split
      · rw [List.lookup_cons, hne, ih]
      · exact ih

end Attributes

/-! ## The main argument -/

/-- Two lists of attributes with the same main argument `name`, and the same entries apart
    from it. -/
structure Attributes.Agree (name : Text) (attrs attrs' : Attributes) : Prop where
  main : attrs'.value? name 0 = attrs.value? name 0
  rest : attrs'.entries.filter (fun (key, _) => key != .position 0 && key != .name name) =
    attrs.entries.filter fun (key, _) => key != .position 0 && key != .name name

namespace Attributes.Agree

variable {name : Text} {attrs attrs' : Attributes}

/-- Giving the main argument by name changes nothing else. -/
theorem insert {shown : Text} (h : attrs.value? name 0 = some shown) :
    Agree name attrs (attrs.insert (.name name) shown) where
  main := by rw [h, value?_of_get? (attrs.get?_insert_self name shown)]
  rest := filter_assign (fun key => key != .position 0 && key != .name name)
    (by simp) shown attrs.entries

/-- What has another name is the same. -/
theorem get?_eq (h : Agree name attrs attrs') {other : Text} (hne : other ≠ name) :
    attrs'.get? other = attrs.get? other := by
  have hkeep := lookup_filter (fun key => key != .position 0 && key != .name name)
    (show (AttrKey.name other != .position 0 && AttrKey.name other != .name name) = true by
      simpa using hne)
  exact ((hkeep _).symm.trans (congrArg (List.lookup _) h.rest)).trans (hkeep _)

theorem copied_eq (h : Agree name attrs attrs') {other : Text} (hne : other ≠ name) :
    Tag.copied attrs' other = Tag.copied attrs other := by
  rw [Tag.copied, Tag.copied, getD, getD, h.get?_eq hne]

theorem titleAndClass_eq (h : Agree name attrs attrs') (htitle : "title".toList ≠ name)
    (hclass : "class".toList ≠ name) : Tag.titleAndClass attrs' = Tag.titleAndClass attrs := by
  rw [Tag.titleAndClass, h.copied_eq htitle, h.copied_eq hclass, Tag.titleAndClass]

theorem textOr_eq (h : Agree name attrs attrs') (htext : "text".toList ≠ name)
    (fallback : Text) : Tag.textOr attrs' fallback = Tag.textOr attrs fallback := by
  rw [Tag.textOr, h.get?_eq htext, Tag.textOr]

variable {host : Host} {settings : TagSettings}

theorem date_eq (h : Agree "format".toList attrs attrs') :
    Tag.date attrs' host settings = Tag.date attrs host settings := by
  unfold Tag.date
  rw [h.main, h.get?_eq (by decide : "locale".toList ≠ _)]

theorem includeTemplate_eq (h : Agree "path".toList attrs attrs') :
    Tag.includeTemplate attrs' host = Tag.includeTemplate attrs host := by
  unfold Tag.includeTemplate Tag.parameters
  rw [h.main, h.rest]

theorem link_eq (h : Agree "href".toList attrs attrs') :
    Tag.link attrs' host = Tag.link attrs host := by
  unfold Tag.link
  simp only [h.main, h.titleAndClass_eq (by decide) (by decide),
    h.copied_eq (by decide : "target".toList ≠ _), h.textOr_eq (by decide)]

theorem email_eq (h : Agree "address".toList attrs attrs') :
    Tag.email attrs' = Tag.email attrs := by
  unfold Tag.email
  simp only [h.main, h.titleAndClass_eq (by decide) (by decide), h.textOr_eq (by decide)]

theorem tel_eq (h : Agree "number".toList attrs attrs') : Tag.tel attrs' = Tag.tel attrs := by
  unfold Tag.tel
  simp only [h.main, h.titleAndClass_eq (by decide) (by decide), h.textOr_eq (by decide)]

theorem image_eq (h : Agree "src".toList attrs attrs') :
    Tag.image attrs' settings = Tag.image attrs settings := by
  unfold Tag.image
  simp only [h.main, getD, h.copied_eq (by decide : "width".toList ≠ _),
    h.copied_eq (by decide : "height".toList ≠ _), h.copied_eq (by decide : "class".toList ≠ _),
    h.get?_eq (by decide : "alt".toList ≠ _), h.get?_eq (by decide : "caption".toList ≠ _)]

theorem file_eq (h : Agree "path".toList attrs attrs') :
    Tag.file attrs' host = Tag.file attrs host := by
  unfold Tag.file
  simp only [h.main, h.titleAndClass_eq (by decide) (by decide), h.textOr_eq (by decide),
    h.get?_eq (by decide : "info".toList ≠ _)]

end Attributes.Agree

namespace Builtin

/-- The name of the argument that a built-in tag also reads from the first position. -/
def mainArgument? : Builtin → Option Text
  | date => some "format".toList
  | inclusion => some "path".toList
  | link => some "href".toList
  | email => some "address".toList
  | tel => some "number".toList
  | image => some "src".toList
  | file => some "path".toList
  | page | site | twig | listing => none

/-- No main argument has a number for a name. -/
theorem natural?_mainArgument {b : Builtin} {name : Text} (hmain : b.mainArgument? = some name) :
    natural? name = none := by
  have hnone : b.mainArgument?.bind natural? = none := by cases b <;> decide
  rwa [hmain, Option.bind_some] at hnone

/-- A built-in tag looks under the name of its main argument and in the first position
    for this argument only. -/
theorem render_congr {b : Builtin} {name : Text} (hmain : b.mainArgument? = some name)
    {attrs attrs' : Attributes} (h : Attributes.Agree name attrs attrs') (content : Option Text)
    (host : Host) (settings : TagSettings) :
    b.render attrs' content host settings = b.render attrs content host settings := by
  cases b <;> cases hmain
  case date => exact congrArg (Except.map some) h.date_eq
  case inclusion => exact h.includeTemplate_eq
  case link => exact congrArg (Except.ok ∘ some) h.link_eq
  case email => exact congrArg (Except.ok ∘ some) h.email_eq
  case tel => exact congrArg (Except.ok ∘ some) h.tel_eq
  case image => exact congrArg (Except.ok ∘ some) h.image_eq
  case file => exact congrArg (Except.ok ∘ some) h.file_eq

end Builtin

/-! ## Defaults -/

/-- The key that a default is stored under. -/
def defaultKey (name : Text) : AttrKey :=
  match natural? name with
  | some index => .position index
  | none => .name name

theorem defaultKey_eq_name_iff {name other : Text} :
    defaultKey other = .name name ↔ other = name ∧ natural? name = none := by
  rw [defaultKey]
  split
  next index hindex =>
    refine ⟨fun h => absurd h (by simp), ?_⟩
    rintro ⟨rfl, hnone⟩
    exact absurd (hindex.symm.trans hnone) (by simp)
  next hnone =>
    rw [AttrKey.name.injEq]
    exact ⟨fun h => ⟨h, h ▸ hnone⟩, And.left⟩

theorem defaultAttributes_eq_foldl (defaults : Table Text) :
    defaultAttributes defaults = defaults.entries.foldl
      (fun attrs entry => attrs.insert (defaultKey entry.1) entry.2) .empty := by
  rw [defaultAttributes, Attributes.ofList, List.foldl_map]
  congr
  funext attrs ⟨name, value⟩
  dsimp only [defaultKey]
  cases natural? name <;> rfl

/-- Defaults in the order of their names, added to attributes: a name comes but once, so
    its own default is the one that stays. -/
theorem get?_foldl_defaults {entries : List (Text × Text)}
    (hsorted : entries.Pairwise (·.1 < ·.1)) (attrs : Attributes) (name : Text) :
    (entries.foldl (fun attrs entry => attrs.insert (defaultKey entry.1) entry.2) attrs).get?
        name =
      (if natural? name = none then entries.lookup name else none).or (attrs.get? name) := by
  induction entries generalizing attrs with
  | nil => simp
  | cons entry rest ih =>
    obtain ⟨hfirst, hrest⟩ := List.pairwise_cons.1 hsorted
    rw [List.foldl_cons, ih hrest]
    by_cases hkey : defaultKey entry.1 = .name name
    · obtain ⟨rfl, hnone⟩ := defaultKey_eq_name_iff.1 hkey
      have hlater : rest.lookup entry.1 = none := by
        refine List.lookup_eq_none_iff.2 fun later hlater => ?_
        simpa using fun heq => List.lt_irrefl _ (heq ▸ hfirst later hlater)
      rw [if_pos hnone, if_pos hnone, hlater, hkey, List.lookup_cons_self,
        Attributes.get?_insert_self, Option.none_or, Option.some_or]
    · rw [Attributes.get?_insert_of_ne attrs entry.2 (Ne.symm hkey)]
      split
      next hnone =>
        have hne : (name == entry.1) = false := by
          simpa using fun heq => hkey (defaultKey_eq_name_iff.2 ⟨heq.symm, hnone⟩)
        rw [List.lookup_cons, hne]
      · rfl

/-- A default is stored under its name, except that a number means a position. -/
theorem get?_defaultAttributes (defaults : Table Text) (name : Text) :
    (defaultAttributes defaults).get? name =
      if natural? name = none then defaults.get? name else none := by
  rw [defaultAttributes_eq_foldl, get?_foldl_defaults defaults.sorted]
  exact Option.or_none

/-- What is shown as the main argument of an alias if the call site gives one: it is the
    given one if and only if it is given by name or the defaults have no other one under
    this name, and else that of the defaults. A default by position is never shown. -/
theorem call_site_wins_iff {b : Builtin} {name : Text} (hmain : b.mainArgument? = some name)
    {attrs : Attributes} {given : Text} (hgiven : attrs.value? name 0 = some given)
    (defaults : Attributes) :
    let merged := attrs.withDefaults defaults
    (merged.value? name 0 = some given ↔
      attrs.contains name = true ∨ ∀ other, defaults.get? name = some other → other = given) ∧
    (attrs.contains name = false → ∀ other, defaults.get? name = some other →
      merged.value? name 0 = some other) ∧
    (∀ shown, merged.value? name 0 = some shown → ∀ content host settings,
      Binding.render host settings (.alias b defaults) attrs content =
        b.render (merged.insert (.name name) shown) content host settings) ∧
    ∀ table, defaults = defaultAttributes table → defaults.get? name = table.get? name := by
  intro merged
  refine ⟨?_, fun hnamed other hother => ?_, fun shown hshown content host settings => ?_, ?_⟩
  · cases hnamed : attrs.get? name with
    | some value =>
      have hsome : (attrs.get? name).isSome = true := by rw [hnamed]; rfl
      exact ⟨fun _ => .inl hsome, fun _ => attrs.value?_withDefaults_of_get? defaults hsome hgiven⟩
    | none =>
      rw [attrs.value?_withDefaults_of_positional defaults hnamed hgiven, Option.some.injEq,
        Attributes.contains, hnamed]
      cases defaults.get? name <;> simp
  · have hnone : attrs.get? name = none := by simpa [Attributes.contains] using hnamed
    rw [attrs.value?_withDefaults_of_positional defaults hnone hgiven, hother]
    rfl
  · exact (b.render_congr hmain (.insert hshown) content host settings).symm
  · rintro table rfl
    rw [get?_defaultAttributes, if_pos (Builtin.natural?_mainArgument hmain)]

/-- A call site that gives the main argument by name, and one that gives it by position
    where the defaults have only a position for it. -/
theorem call_site_wins_named :
    let byName := Attributes.read "href=/about".toList
    let byPosition := Attributes.read "/about".toList
    let first : Table Text := Table.empty.insert "0".toList "/first".toList
    let start := first.insert "href".toList "/start".toList
    (Builtin.link.mainArgument? = some "href".toList ∧
        byName.value? "href".toList 0 = some "/about".toList ∧
        byPosition.value? "href".toList 0 = some "/about".toList) ∧
      (byName.withDefaults (defaultAttributes start)).value? "href".toList 0 =
        some "/about".toList ∧
      (byPosition.withDefaults (defaultAttributes first)).value? "href".toList 0 =
        some "/about".toList := by
  intro byName byPosition first start
  have hname : byName.value? "href".toList 0 = some "/about".toList := by decide +kernel
  have hposition : byPosition.value? "href".toList 0 = some "/about".toList := by decide +kernel
  obtain ⟨hwins, -⟩ := call_site_wins_iff (b := .link) rfl hname (defaultAttributes start)
  obtain ⟨hwins', -⟩ := call_site_wins_iff (b := .link) rfl hposition (defaultAttributes first)
  refine ⟨⟨rfl, hname, hposition⟩, hwins.2 (.inl (by decide +kernel)), hwins'.2 (.inr ?_)⟩
  rw [show (defaultAttributes first).get? "href".toList = none by decide +kernel]
  exact fun _ h => absurd h (by simp)

/-- A call site that gives the main argument by position loses it to a default that has
    its name. -/
theorem call_site_loses_position :
    let host : Host :=
      { page := Table.empty, site := Table.empty, template := fun _ _ => .ok [], inline := .ok,
        url := ("/site".toList ++ ·), menu := [], fileSize := fun _ => none,
        now := ⟨2024, 1, 1, 0, 0, 0, 0, 0⟩ }
    let attrs := Attributes.read "/about".toList
    let defaults := defaultAttributes (Table.empty.insert "href".toList "/start".toList)
    Builtin.link.mainArgument? = some "href".toList ∧
      attrs.value? "href".toList 0 = some "/about".toList ∧
      (attrs.withDefaults defaults).value? "href".toList 0 = some "/start".toList ∧
      (attrs.withDefaults defaults).value? "href".toList 0 ≠ some "/about".toList ∧
      Binding.render host {} (.alias .link defaults) attrs none =
        .ok (some "<a href=\"/site/start\">/site/start</a>".toList) := by
  intro host attrs defaults
  have hlink : Tag.link (attrs.withDefaults defaults) host =
      "<a href=\"/site/start\">/site/start</a>".toList := by decide +kernel
  exact ⟨rfl, by decide +kernel, by decide +kernel, by decide +kernel,
    congrArg (Except.ok ∘ some) hlink⟩

end Shortcode
