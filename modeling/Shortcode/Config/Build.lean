import Shortcode.Config.Basic
import Shortcode.Engine.Expand
import Shortcode.Placeholder
import Shortcode.Tag.Builtin

/-!
# The engine of a configuration

The engine of a site has the built-in tags and the tags that the configuration
declares, in the order of their names. A declared tag replaces a built-in one of the
same name, and an alias stands for the built-in tag that it names, also if that one
is replaced.

* `Config.registerBuiltins_empty`: registering the built-in tags, one behind the other,
  makes the engine with these tags alone.
* `Config.build_eq`: the declared tags are added to that engine.
-/

namespace Shortcode

/-- What a tag name is bound to. -/
inductive Binding
  | builtin (b : Builtin)
  | alias (b : Builtin) (defaults : Attributes)
  | template (gaps : Placeholder)
  deriving DecidableEq, Repr

/-- What a bound tag shows. -/
def Binding.render (host : Host) (settings : TagSettings) : Render TagError Binding
  | .builtin b, attrs, content => b.render attrs content host settings
  | .alias b defaults, attrs, content =>
    b.render (attrs.withDefaults defaults) content host settings
  | .template gaps, attrs, content => .ok (some (gaps.render attrs content))

/-- Why an engine cannot be built. -/
inductive BuildError
  | unknownBuiltin (name : Text)
  | template (tag : Text) (error : PlaceholderError)
  | invalidTagName (error : InvalidTagName)
  deriving DecidableEq, Repr

/-- The message about a build that failed. -/
def BuildError.message : BuildError → String
  | .unknownBuiltin name => "unknown built-in tag `" ++ String.ofList name ++ "`"
  | .template tag error => s!"invalid template for [{String.ofList tag}]: {error.message}"
  | .invalidTagName error => error.message

/-- The attributes of an alias. A name that is a number means a position. -/
def defaultAttributes (defaults : Table Text) : Attributes :=
  .ofList (defaults.entries.map fun (name, value) =>
    match natural? name with
    | some index => (.position index, value)
    | none => (.name name, value))

/-- What a declared tag is bound to; `none` if it declares nothing. -/
def Declaration.binding? (name : Text) (d : Declaration) : Except BuildError (Option Binding) :=
  match d.alias, d.template with
  | some target, _ =>
    match Builtin.ofName? target with
    | some b => .ok (some (.alias b (defaultAttributes d.defaults)))
    | none => .error (.unknownBuiltin target)
  | none, some template =>
    match Placeholder.read template with
    | .ok template => .ok (some (.template template))
    | .error e => .error (.template name e)
  | none, none => .ok none

/-- Adds a declared tag to an engine. -/
def Declaration.register (e : Engine Binding) (name : Text) (d : Declaration) :
    Except BuildError (Engine Binding) := do
  match ← d.binding? name with
  | some binding => (e.register name binding).mapError .invalidTagName
  | none => pure e

namespace Config

/-- Registers the built-in tags in an engine, each under its own name. -/
def registerBuiltins (e : Engine Binding) : Except InvalidTagName (Engine Binding) :=
  Builtin.all.foldlM (fun e b => e.register b.name (.builtin b)) e

/-- The engine with the built-in tags alone. -/
def builtins (config : EngineConfig) : Engine Binding :=
  ⟨config, Builtin.all.map fun b => (b.name, .builtin b)⟩

/-- No name of a built-in tag is refused, and none comes twice. -/
theorem registerBuiltins_empty (config : EngineConfig) :
    registerBuiltins (.empty config) = .ok (builtins config) := rfl

/-- Adds declared tags to an engine, in order. Each name that was bound already is
    reported, also if the build fails later on. -/
def declare (e : Engine Binding) : List (Text × Declaration) →
    List Text × Except BuildError (Engine Binding)
  | [] => ([], .ok e)
  | (name, d) :: rest =>
    let warned := if e.contains name then [name] else []
    match d.register e name with
    | .ok e =>
      let (more, result) := declare e rest
      (warned ++ more, result)
    | .error fault => (warned, .error fault)

/-- The engine of a configuration, and the names of built-in tags that it
    replaces. -/
def build (config : Config) : List Text × Except BuildError (Engine Binding) :=
  match registerBuiltins (.empty config.engine) with
  | .ok e => declare e config.tags.entries
  | .error refused => ([], .error (.invalidTagName refused))

/-- The built-in tags are always registered, so a build comes to the declared ones. -/
theorem build_eq (config : Config) :
    config.build = declare (builtins config.engine) config.tags.entries := by
  rw [build, registerBuiltins_empty]

end Config

end Shortcode
