import Shortcode.Engine.Basic
import Shortcode.Tag.Basic

/-!
# Configuration

The configuration of a site: what it is called and where it is published, the
defaults of tags, the limits of the engine, tags that it declares itself, and the
directories of pages and templates. A declared tag is an *alias* of a built-in tag,
with attributes of its own, or a *template* with gaps.

* `Config.validate_ok_of_mem`: a valid configuration has valid declarations only.
-/

namespace Shortcode

/-- A tag declared in a configuration. -/
structure Declaration where
  «alias» : Option Text := none
  defaults : Table Text := Table.empty
  template : Option Text := none

/-- The configuration of a site. -/
structure Config where
  webUrl : Text := []
  title : Option Text := none
  fields : Fields := Table.empty
  dateFormat : Text := "%x".toList
  dateLocale : Option Text := none
  listingTemplate : Text := "@widget/listing.twig".toList
  listingLimit : Nat := 10
  engine : EngineConfig := {}
  tags : Table Declaration := Table.empty
  sourceDir : Text := []
  templatesDir : Text := []
  /-- The file it was read from. -/
  file : Option Text := none

/-- A fault of a configuration. -/
inductive ConfigFault
  | webUrlScheme
  | emptyDateFormat
  | emptyListingTemplate
  | tagName (name : Text)
  | emptyAlias (name : Text)
  | emptyTemplate (name : Text)
  | defaultsOfTemplate (name : Text)
  | aliasAndTemplate (name : Text)
  | noDefinition (name : Text)
  deriving DecidableEq, Repr

/-- The message about a fault. -/
def ConfigFault.message : ConfigFault → String
  | webUrlScheme => "site.web_url must start with http:// or https://"
  | emptyDateFormat => "date.format cannot be empty"
  | emptyListingTemplate => "listing.template cannot be empty"
  | tagName name =>
    s!"tags.{String.ofList name}: tag names may only contain letters, digits, '_' and '-'"
  | emptyAlias name => s!"tags.{String.ofList name}.alias cannot be empty"
  | emptyTemplate name => s!"tags.{String.ofList name}.template cannot be empty"
  | defaultsOfTemplate name => s!"tags.{String.ofList name}.defaults only apply to aliases"
  | aliasAndTemplate name => s!"tags.{String.ofList name} cannot set both alias and template"
  | noDefinition name => s!"tags.{String.ofList name} requires alias or template"

/-- Checks the declaration of the tag called `name`. -/
def Declaration.validate (name : Text) (d : Declaration) : Except ConfigFault Unit :=
  if !isTagName name then .error (.tagName name)
  else match d.alias, d.template with
    | some target, none => if target.isEmpty then .error (.emptyAlias name) else .ok ()
    | none, some template =>
      if template.isEmpty then .error (.emptyTemplate name)
      else if d.defaults.entries.isEmpty then .ok ()
      else .error (.defaultsOfTemplate name)
    | some _, some _ => .error (.aliasAndTemplate name)
    | none, none => .error (.noDefinition name)

namespace Config

variable (config : Config)

/-- Checks declarations, in order. -/
def validateTags : List (Text × Declaration) → Except ConfigFault Unit
  | [] => .ok ()
  | (name, d) :: rest =>
    match d.validate name with
    | .ok () => validateTags rest
    | .error fault => .error fault

/-- Whether an address is one of the web. -/
def isWebAddress (address : Text) : Bool :=
  Text.startsWith address "http://".toList || Text.startsWith address "https://".toList

/-- Checks a configuration. The first fault counts. -/
def validate : Except ConfigFault Unit :=
  if !config.webUrl.isEmpty && !isWebAddress config.webUrl then .error .webUrlScheme
  else if config.dateFormat.isEmpty then .error .emptyDateFormat
  else if config.listingTemplate.isEmpty then .error .emptyListingTemplate
  else validateTags config.tags.entries

/-- The fields of the site, its title and address among them. -/
def siteFields : Fields :=
  let fields := match config.title with
    | some title => config.fields.insert "title".toList (.text title)
    | none => config.fields
  fields.insert "web_url".toList (.text config.webUrl)

/-- The settings of the built-in tags. -/
def tagSettings : TagSettings where
  webUrl := config.webUrl
  dateFormat := config.dateFormat
  dateLocale := config.dateLocale
  listingTemplate := config.listingTemplate
  listingLimit := config.listingLimit

theorem validateTags_ok_iff {tags : List (Text × Declaration)} :
    validateTags tags = .ok () ↔ ∀ t ∈ tags, t.2.validate t.1 = .ok () := by
  induction tags with
  | nil => simp [validateTags]
  | cons t rest ih =>
    obtain ⟨name, d⟩ := t
    cases h : d.validate name with
    | ok u => simp [validateTags, h, ih]
    | error e => simp [validateTags, h]

/-- A valid configuration has valid declarations only. -/
theorem validate_ok_of_mem {name : Text} {d : Declaration} (h : config.validate = .ok ())
    (hd : (name, d) ∈ config.tags.entries) : d.validate name = .ok () := by
  unfold validate at h
  split at h
  · simp at h
  · split at h
    · simp at h
    · split at h
      · simp at h
      · exact validateTags_ok_iff.mp h _ hd

end Config

end Shortcode
