import Shortcode.FileSize
import Shortcode.Html.Attributes
import Shortcode.Site.Path
import Shortcode.Tag.Basic
import Shortcode.Text.Upper

/-!
# Links and images

The tags `link`, `email`, `tel` and `file` show an anchor, the tag `image` a figure.
Values of HTML attributes are escaped; the text of an anchor and the caption of a
figure are markup and copied.
-/

namespace Shortcode.Tag

/-- Whether an address names a place outside the site. -/
def isExternal (address : Text) : Bool :=
  Text.startsWith address "http".toList

/-- An anchor. -/
def anchor (href : Text) (attrs : Html.Attributes) (text : Text) : Text :=
  Html.startTag ['a'] ("href".toList, href) attrs ++ '>' :: text ++ "</a>".toList

/-- The attribute `text`, or else `fallback`. -/
def textOr (attrs : Attributes) (fallback : Text) : Text :=
  ((attrs.get? "text".toList).bind Text.nonEmpty?).getD fallback

/-- The attribute `name` for an HTML element, unless it is empty or missing. -/
def copied (attrs : Attributes) (name : Text) : Html.Attributes :=
  Html.Attributes.optional name (attrs.getD name [])

/-- The attributes `title` and `class` for an HTML element. -/
def titleAndClass (attrs : Attributes) : Html.Attributes :=
  copied attrs "title".toList ++ copied attrs "class".toList

/-- An anchor to a page of the site or to another place. -/
def link (attrs : Attributes) (host : Host) : Text :=
  let given := (attrs.value? "href".toList 0).getD []
  let href := if isExternal given then given else host.url given
  anchor href (titleAndClass attrs ++ copied attrs "target".toList) (textOr attrs href)

/-- An anchor to a mail address. -/
def email (attrs : Attributes) : Text :=
  let address := (attrs.value? "address".toList 0).getD []
  anchor ("mailto:".toList ++ address) (titleAndClass attrs) (textOr attrs address)

/-- The digits to dial for a telephone number. -/
def dial (number : Text) : Text :=
  number.filter (!isBlank ·)

/-- An anchor to a telephone number. -/
def tel (attrs : Attributes) : Text :=
  let number := (attrs.value? "number".toList 0).getD []
  anchor ("tel:".toList ++ dial number) (titleAndClass attrs) (textOr attrs number)

/-- The kind and the size of a file, in brackets; `none` if it cannot be read. -/
def fileNote? (path : Text) (host : Host) : Option Text :=
  (host.fileSize path).map fun bytes =>
    let size := FileSize.text bytes
    match ((Path.extension? path).map Text.upper).bind Text.nonEmpty? with
    | some kind => " (".toList ++ kind ++ ", ".toList ++ size ++ [')']
    | none => " (".toList ++ size ++ [')']

/-- An anchor to a file, with a note about it if wanted. -/
def file (attrs : Attributes) (host : Host) : Text :=
  let path := (attrs.value? "path".toList 0).getD []
  let text := anchor path (titleAndClass attrs) (textOr attrs path)
  let note := if (attrs.get? "info".toList).any isOn then fileNote? path host else none
  match note with
  | some note => text ++ "<span class=\"file-info\">".toList ++ note ++ "</span>".toList
  | none => text

/-- The address of an image of the site or of another place. -/
def imageSource (src webUrl : Text) : Text :=
  if isExternal src then src
  else Text.dropTrailing '/' webUrl ++ '/' :: Text.dropLeading '/' src

/-- A figure with an image and its caption. -/
def image (attrs : Attributes) (settings : TagSettings) : Text :=
  let src := imageSource ((attrs.value? "src".toList 0).getD []) settings.webUrl
  let html := copied attrs "width".toList ++ copied attrs "height".toList ++
    [("alt".toList, attrs.getD "alt".toList [])] ++ copied attrs "class".toList
  let caption := match (attrs.get? "caption".toList).bind Text.nonEmpty? with
    | some caption => "<figcaption>".toList ++ caption ++ "</figcaption>".toList
    | none => []
  "<figure>".toList ++ Html.startTag "img".toList ("src".toList, src) html ++
    '>' :: caption ++ "</figure>".toList

end Shortcode.Tag
