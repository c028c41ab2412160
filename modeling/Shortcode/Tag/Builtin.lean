import Shortcode.Calendar.Format
import Shortcode.Menu.Pagination
import Shortcode.Tag.Anchor

/-!
# What the built-in tags show

The tags `page` and `site` show a field, `date` the moment of rendering, `include`
and `twig` templates, `listing` a page of the menu through a template; the others
are anchors and images.
-/

namespace Shortcode.Tag

/-- The field named by the first positional attribute. Dots in front of its name do
    not count. -/
def field (attrs : Attributes) (fields : Fields) : Option Text := do
  let name ← Text.nonEmpty? (Text.dropLeading '.' (← attrs.positional? 0))
  let delimiter := ((attrs.get? "join".toList).bind Text.nonEmpty?).getD [' ']
  (← fields.get? name).join delimiter

/-- The moment of rendering, in a format and a locale. -/
def date (attrs : Attributes) (host : Host) (settings : TagSettings) : Except TagError Text := do
  let format := ((attrs.value? "format".toList 0).bind Text.nonEmpty?).getD settings.dateFormat
  let locale ← match ((attrs.get? "locale".toList).bind Text.nonEmpty?).or settings.dateLocale with
    | some name =>
      match Calendar.Locale.find? name with
      | some locale => pure locale
      | none => .error (.unknownLocale name)
    | none => pure Calendar.Locale.posix
  match Calendar.Format.write? locale format host.now with
  | some text => pure text
  | none => .error (.invalidDateFormat format)

/-- The attributes that an included template gets: all but the one in the place of
    its name. -/
def parameters (attrs : Attributes) : Table Data :=
  Table.ofList ((attrs.entries.filter fun (key, _) =>
      key != .position 0 && key != .name "path".toList).map
    fun (key, value) => (key.text, .text value))

/-- A template of the host. -/
def includeTemplate (attrs : Attributes) (host : Host) : Except TagError (Option Text) :=
  match (attrs.value? "path".toList 0).bind Text.nonEmpty? with
  | some path =>
    ((host.template path (parameters attrs).entries).mapError .template).map some
  | none => .ok none

/-- The content of the tag as a template. -/
def inlineTemplate (content : Option Text) (host : Host) : Except TagError (Option Text) :=
  match content with
  | some source => ((host.inline source).mapError .template).map some
  | none => .ok none

/-- The pages that a list shows, in their order. A page without a title is never
    shown. -/
def selectPages (attrs : Attributes) (seed : Nat) (items : List MenuItem) :
    Except TagError (List MenuItem) := do
  let items ← match (attrs.get? "filter".toList).bind Text.nonEmpty? with
    | some filter =>
      match Text.splitAt? '|' filter with
      | some (name, value) => pure (Menu.filterBy (Text.trim name) (Text.trim value) items)
      | none => .error (.invalidOption "filter" filter "`field|value`")
    | none => pure items
  let items ← match (attrs.get? "sort".toList).bind Text.nonEmpty? with
    | some sort =>
      let (name, direction) := (Text.splitAt? '|' sort).getD (sort, [])
      match SortDirection.read? direction with
      | some order => pure (Menu.sort (Text.trim name) order items)
      | none => .error (.invalidOption "sort direction" direction "`asc` or `desc`")
    | none => pure items
  let items := if (attrs.get? "shuffle".toList).any isOn then Menu.shuffle seed items else items
  pure (items.filter (MenuItem.has "title".toList))

/-- A page of the menu, shown through a template. -/
def listing (attrs : Attributes) (host : Host) (settings : TagSettings) :
    Except TagError Text := do
  let path := ((attrs.get? "path".toList).bind Text.nonEmpty?).getD settings.listingTemplate
  let limit ← match (attrs.get? "limit".toList).bind Text.nonEmpty? with
    | some limit =>
      match natural? (Text.trim limit) with
      | some n => pure n
      | none => .error (.invalidOption "limit" limit "a non-negative integer")
    | none => pure settings.listingLimit
  let number := if (attrs.get? "pagination".toList).all isOn then host.pageNumber else 1
  let items ← selectPages attrs host.seed host.menu
  let page := Page.select items limit number
  (host.template path [("pagination".toList, page.data)]).mapError .template

end Shortcode.Tag

namespace Shortcode

/-- What a built-in tag shows. -/
def Builtin.render (b : Builtin) (attrs : Attributes) (content : Option Text) (host : Host)
    (settings : TagSettings) : Except TagError (Option Text) :=
  match b with
  | .date => (Tag.date attrs host settings).map some
  | .page => .ok (Tag.field attrs host.page)
  | .site => .ok (Tag.field attrs host.site)
  | .inclusion => Tag.includeTemplate attrs host
  | .twig => Tag.inlineTemplate content host
  | .link => .ok (some (Tag.link attrs host))
  | .email => .ok (some (Tag.email attrs))
  | .tel => .ok (some (Tag.tel attrs))
  | .image => .ok (some (Tag.image attrs settings))
  | .file => .ok (some (Tag.file attrs host))
  | .listing => (Tag.listing attrs host settings).map some

end Shortcode
