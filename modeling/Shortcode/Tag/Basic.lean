import Shortcode.Attributes.Basic
import Shortcode.Calendar.DateTime
import Shortcode.Data
import Shortcode.Menu.Basic

/-!
# Built-in tags and their host

The built-in tags show what a *host* knows: the fields of the page and the site, the
menu, templates, files and the clock. A host is a record of these capabilities, so
one engine serves any host.

* `Builtin.ofName?_name`: a built-in tag is found under its name.
-/

namespace Shortcode

/-- What the tags of a page can ask for. -/
structure Host where
  /-- The fields of the page. -/
  page : Fields
  /-- The fields of the site. -/
  site : Fields
  /-- The template with a name, filled in with parameters; or a message why it
      cannot be. -/
  template : Text → List (Text × Data) → Except String Text
  /-- A text that is itself a template, filled in. -/
  inline : Text → Except String Text
  /-- The public address of a route. -/
  url : Text → Text
  /-- The pages of the site. -/
  menu : List MenuItem
  /-- The size of a file in bytes, if it can be read. -/
  fileSize : Text → Option Nat
  /-- The moment of rendering. -/
  now : Calendar.DateTime
  /-- The number of the page of a paginated list that is wanted. -/
  pageNumber : Nat := 1
  /-- Where shuffling starts from. -/
  seed : Nat := 0

/-- Settings shared by the built-in tags. -/
structure TagSettings where
  /-- The public address in front of the sources of images. -/
  webUrl : Text := []
  /-- The format of dates. -/
  dateFormat : Text := "%x".toList
  /-- The locale of dates; without one the names are English. -/
  dateLocale : Option Text := none
  /-- The template of lists of pages. -/
  listingTemplate : Text := "@widget/listing.twig".toList
  /-- The number of pages on a page of a list. -/
  listingLimit : Nat := 10

/-- The failure of a built-in tag. -/
inductive TagError
  | invalidOption (option : String) (value : Text) (expected : String)
  | unknownLocale (name : Text)
  | invalidDateFormat (format : Text)
  /-- The host cannot fill in a template. -/
  | template (message : String)
  deriving DecidableEq, Repr

/-- The message about a failure. -/
def TagError.message : TagError → String
  | invalidOption option value expected =>
    s!"invalid {option} `" ++ String.ofList value ++ s!"`: expected {expected}"
  | unknownLocale name => "unknown locale `" ++ String.ofList name ++ "`"
  | invalidDateFormat format => "invalid date format `" ++ String.ofList format ++ "`"
  | template message => message

/-- A built-in tag. -/
inductive Builtin
  | date
  | page
  | site
  | inclusion
  | twig
  | link
  | email
  | tel
  | image
  | file
  | listing
  deriving DecidableEq, Repr

namespace Builtin

/-- The built-in tags, in the order in which engines list them. -/
def all : List Builtin :=
  [date, page, site, inclusion, twig, link, email, tel, image, file, listing]

/-- The name of a built-in tag. -/
def name : Builtin → Text
  | date => "date".toList
  | page => "page".toList
  | site => "site".toList
  | inclusion => "include".toList
  | twig => "twig".toList
  | link => "link".toList
  | email => "email".toList
  | tel => "tel".toList
  | image => "image".toList
  | file => "file".toList
  | listing => "listing".toList

/-- The built-in tag with a name. -/
def ofName? (name : Text) : Option Builtin :=
  all.find? (·.name = name)

theorem ofName?_name (b : Builtin) : ofName? b.name = some b := by
  cases b <;> decide

end Builtin

/-- Whether an attribute is switched on. -/
def isOn (value : Text) : Bool :=
  ["1".toList, "true".toList, "yes".toList, "on".toList].contains
    (Text.lowerAscii (Text.trim value))

end Shortcode
