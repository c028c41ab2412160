import Shortcode.Config.Basic
import Shortcode.Site.Pages
import Shortcode.Template.Render

/-!
# The host of a page of a site

A site knows the fields of a page and its own, finds templates in one folder and pages in
another, and tells the size of files near the page. Nothing outside of the folder of the
page can be looked at in this way.
-/

namespace Shortcode

/-- A site, and a page of it. -/
structure Site where
  files : Files
  config : Config
  page : Fields
  /-- The folder that paths of files are relative to. -/
  base : Text
  pageNumber : Nat := 1

namespace Site

variable (site : Site)

/-- Whether a template with such a name may exist: no part is hidden or leads
    elsewhere. -/
def isTemplateName (name : Text) : Bool :=
  (Text.splitOn '/' name).all fun part => part.head? != some '.' && !part.contains '\\'

/-- The templates of the site. -/
def library : Template.Library := fun name =>
  if isTemplateName name then
    match site.files.read
        ((Text.splitOn '/' name).foldl Path.join site.config.templatesDir) with
    | .ok source => .ok source
    | .error .missing => .error (.missing name)
    | .error _ => .error .unreadable
  else .error (.missing name)

/-- The name of a template without the mark of its folder. -/
def templateName : Text → Text
  | '@' :: name => name
  | name => name

/-- A template of the site, filled in with parameters. -/
def template (path : Text) (parameters : List (Text × Data)) : Except Template.Failure Text :=
  site.library.render (templateName path) parameters

/-- A text that is itself a template, filled in. It can show the fields of the page and
    of the site. -/
def inline (source : Text) : Except Template.Failure Text :=
  site.library.renderInline source
    [("page".toList, Data.ofFields site.page),
      ("site".toList, Data.ofFields site.config.siteFields)]

/-- The address of a route of a site with an address. -/
def url (address route : Text) : Text :=
  Text.dropTrailing '/' address ++ '/' :: Text.dropLeading '/' route

/-- The size of a file in the folder of the page, or below it. -/
def fileSize (path : Text) : Option Nat :=
  match site.files.find (Path.join site.base path), site.files.find site.base with
  | .ok ((name, .file bytes) :: above), .ok folder =>
    if (Files.names folder).isPrefixOf (Files.names ((name, .file bytes) :: above)) then
      some bytes.size
    else none
  | _, _ => none

/-- What the tags of the page can ask for, at a moment. -/
def host (now : Calendar.DateTime) (seed : Nat) : Host where
  page := site.page
  site := site.config.siteFields
  template path parameters := (site.template path parameters).mapError (·.message)
  inline source := (site.inline source).mapError (·.message)
  url := url site.config.webUrl
  menu := site.files.menu site.config.sourceDir
  fileSize := site.fileSize
  now
  pageNumber := site.pageNumber
  seed

end Site

end Shortcode
