import Shortcode.Config.Environment
import Shortcode.Config.Reader
import Shortcode.Site.Files

/-!
# Loading a configuration

A configuration is read from a file: references to the environment are replaced,
directories are taken relative to the folder of the file, and the result is checked.
Settings from elsewhere may then take the place of those of the file. Without a file
given, the file `sc.toml` is looked for in the working folder and above it, and
without one of these the defaults count.
-/

namespace Shortcode

/-- Why a configuration cannot be loaded. -/
inductive ConfigError
  | notFound (path : Text)
  | unreadable (error : FileError)
  | malformed
  | unset (setting : String) (cause : UnsetVariable)
  | invalid (fault : ConfigFault)
  deriving DecidableEq, Repr

/-- The message about a configuration that cannot be loaded. Of a document that is
    malformed, only that it is. -/
def ConfigError.message : ConfigError → String
  | notFound path => "Configuration file not found: " ++ String.ofList path
  | unreadable error => s!"I/O error: {error.message}"
  | malformed => "TOML parse error"
  | unset setting cause => s!"Environment variable error in {setting}: {cause.message}"
  | invalid fault => s!"Configuration error: {fault.message}"

/-- Settings that take the place of those of a file. -/
structure Overrides where
  webUrl : Option Text := none
  locale : Option Text := none
  sourceDir : Option Text := none

/-- A configuration with some settings replaced. -/
def Overrides.apply (o : Overrides) (config : Config) : Config :=
  { config with
    webUrl := o.webUrl.getD config.webUrl
    dateLocale := o.locale.or config.dateLocale
    sourceDir := o.sourceDir.getD config.sourceDir }

namespace Config

/-- The name of a configuration file. -/
def fileName : Text := "sc.toml".toList

/-- The default configuration of a site in a folder. -/
def defaults (folder : Text) : Config where
  sourceDir := Path.join folder "pages".toList
  templatesDir := Path.join folder "templates".toList

/-- Replaces the references in a setting where it stands; the setting then. -/
def expand (env : Environment) (setting : String) (t : Text) : Except ConfigError Text :=
  match env.runInPlace t with
  | (.ok (), expanded) => .ok expanded
  | (.error unset, _) => .error (.unset setting unset)

/-- Replaces the references in a setting that may be missing. -/
def expand? (env : Environment) (setting : String) (t : Option Text) :
    Except ConfigError (Option Text) :=
  match t with
  | some t => (expand env setting t).map some
  | none => .ok none

/-- A configuration that is valid. -/
def checked (config : Config) : Except ConfigError Config :=
  match config.validate with
  | .ok () => .ok config
  | .error fault => .error (.invalid fault)

/-- The configuration that settings in the file `path` make up. -/
def ofSettings (env : Environment) (path : Text) (settings : Settings) :
    Except ConfigError Config := do
  let config := settings.config
  let webUrl ← expand env "site.web_url" config.webUrl
  let title ← expand? env "site.title" config.title
  let sourceDir ← expand? env "paths.source_dir" settings.sourceDir
  let templatesDir ← expand? env "paths.templates_dir" settings.templatesDir
  let folder := (Path.parent? path).getD ['.']
  checked { config with
    webUrl, title
    sourceDir := Path.join folder (sourceDir.getD "pages".toList)
    templatesDir := Path.join folder (templatesDir.getD "templates".toList)
    file := some path }

/-- The configuration in the file `path`, which holds the text `t`. -/
def parse (env : Environment) (path t : Text) : Except ConfigError Config :=
  match (Toml.read? t).bind Settings.ofEntries? with
  | some settings => ofSettings env path settings
  | none => .error .malformed

/-- The configuration file in a folder or in the nearest one above it; a folder is
    the list of names that lead to it, the last one first. -/
def discover? (files : Files) : List Text → Option Text
  | [] =>
    let path := '/' :: fileName
    if files.contains path then some path else none
  | name :: above =>
    let path := (name :: above).reverse.flatMap ('/' :: ·) ++ '/' :: fileName
    if files.contains path then some path else discover? files above

/-- Reads the configuration file `path`. -/
def readFile (files : Files) (env : Environment) (path : Text) : Except ConfigError Config :=
  match files.read path with
  | .ok t => parse env path t
  | .error error => .error (.unreadable error)

/-- The configuration in the file given, or else in the one that is found, or else
    the default one. -/
def find (files : Files) (env : Environment) (path : Option Text) : Except ConfigError Config :=
  match path with
  | some path => if files.contains path then readFile files env path else .error (.notFound path)
  | none =>
    match discover? files (Path.parts files.workingFolder).reverse with
    | some path => readFile files env path
    | none => .ok (defaults files.workingFolder)

/-- Loads a configuration, with other settings in place of its own if any are given. -/
def load (files : Files) (env : Environment) (path : Option Text) (overrides : Option Overrides) :
    Except ConfigError Config := do
  let config ← find files env path
  match overrides with
  | some o => checked (o.apply config)
  | none => pure config

end Config

end Shortcode
