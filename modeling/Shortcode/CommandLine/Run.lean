import Shortcode.CommandLine.Request
import Shortcode.CommandLine.Scan
import Shortcode.Config.Build
import Shortcode.Site.Host

/-!
# Running commands

A command works on what it sees of the world around it and leaves a report: a code, an
output and messages. All commands load the configuration first. A failure is the last
message of a report and leaves no output.

* `Work.outcome_bind`: how work ends does not hang on the messages that it leaves.
-/

namespace Shortcode.CommandLine

/-- What a command sees of the world around it. -/
structure World where
  files : Files
  env : Environment
  /-- The bytes of the input. -/
  input : ByteArray
  now : Calendar.DateTime
  /-- Where shuffling starts from. -/
  seed : Nat

/-- Why a command fails. -/
inductive Failure
  | config (error : ConfigError)
  | unreadable (error : FileError)
  | frontMatter
  | build (error : BuildError)
  | tag (failure : TagFailure TagError)
  deriving DecidableEq, Repr

/-- The message about a failure. Of front matter that is malformed, only that it is. -/
def Failure.message : Failure → String
  | config error => error.message
  | unreadable error => error.message
  | frontMatter => "Invalid front matter"
  | build error => error.message
  | tag failure => s!"shortcode [{String.ofList failure.tag}] failed: {failure.cause.message}"

/-- Work that leaves messages behind and may fail. -/
structure Work (α : Type) where
  messages : List Text
  outcome : Except Failure α

namespace Work

variable {α β : Type}

/-- Work that leaves no messages. -/
def quiet (outcome : Except Failure α) : Work α :=
  ⟨[], outcome⟩

/-- Work that leaves messages alone. -/
def note (messages : List Text) : Work Unit :=
  ⟨messages, .ok ()⟩

/-- Work followed by other work that uses its result. -/
def bind (w : Work α) (f : α → Work β) : Work β :=
  match w.outcome with
  | .ok a => ⟨w.messages ++ (f a).messages, (f a).outcome⟩
  | .error failure => ⟨w.messages, .error failure⟩

instance : Monad Work where
  pure a := quiet (.ok a)
  bind := Work.bind

theorem outcome_bind (w : Work α) (f : α → Work β) :
    (w >>= f).outcome = w.outcome >>= fun a => (f a).outcome := by
  obtain ⟨messages, outcome⟩ := w
  cases outcome <;> rfl

end Work

/-- A document, and the folder that the paths in it are relative to. -/
structure Document where
  source : Text
  folder : Text

/-- Whether a path means the input. -/
def isInput (path : Text) : Bool :=
  path.head? == some '-' && Path.parts path == [['-']]

/-- Whether a request reads a document from the input. -/
def Request.readsInput (request : Request) : Bool :=
  request.command.takesFile && (request.file.filter (!isInput ·)).isNone

namespace World

variable (world : World)

/-- Reads the document in a file. The folder of the file is the one its path names, and
    the working folder if it names none. -/
def readFile (path : Text) : Except FileError Document := do
  let source ← world.files.read path
  let folder := ((Path.parent? path).bind Text.nonEmpty?).getD world.files.workingFolder
  pure ⟨source, folder⟩

/-- Reads the document of a request. -/
def document (file : Option Text) : Except FileError Document :=
  match file.filter (!isInput ·) with
  | some path => world.readFile path
  | none => (Files.decode world.input).map (⟨·, world.files.workingFolder⟩)

end World

/-- What is told about a configuration on demand. -/
def aboutConfig (config : Config) : List Text :=
  let origin := match config.file with
    | some path => path
    | none => "defaults (no sc.toml found)".toList
  ["Config: ".toList ++ origin, "Source directory: ".toList ++ config.sourceDir]

/-- The warning about a tag that takes the place of a built-in one. -/
def replacedWarning (name : Text) : Text :=
  "tags.".toList ++ name ++ " replaces the built-in [".toList ++ name ++ "] tag".toList

/-- Builds the engine of a configuration. -/
def build (config : Config) : Work (Engine Binding) :=
  let (replaced, built) := config.build
  ⟨replaced.map replacedWarning, built.mapError .build⟩

/-- The fields and the body of a page. -/
def frontMatter (source : Text) : Except Failure (Fields × Text) :=
  match FrontMatter.read? source with
  | some page => .ok page
  | none => .error .frontMatter

/-- The printed entries of the tags in a source. -/
def scan {η : Type} (engine : Engine η) (source : Text) : Except Failure (List Text) := do
  let (_, body) ← frontMatter source
  pure ((ScanEntry.ofSource engine source body).map ScanEntry.line)

/-- Where a tag of an engine comes from. -/
def origin (config : Config) (name : Text) : Text :=
  match config.tags.get? name with
  | some d =>
    match d.alias with
    | some target => "alias of ".toList ++ target
    | none => "template".toList
  | none => if (Builtin.ofName? name).isSome then "builtin".toList else []

/-- The width of the column of names. -/
def nameWidth : Nat := 12

/-- A tag in the list of tags. -/
def tagLine (config : Config) (name : Text) : Text :=
  name ++ List.replicate (nameWidth - name.length) ' ' ++ ' ' :: origin config name

/-- Lines with their ends. -/
def lines (ls : List Text) : Text :=
  ls.flatMap (· ++ ['\n'])

/-- Carries out a request; the result is the output. -/
def Request.perform (request : Request) (world : World) : Work Text := do
  let config ← Work.quiet ((Config.load world.files world.env request.config
    (some request.overrides)).mapError .config)
  match request.command with
  | .render =>
    Work.note (if request.verbose then aboutConfig config else [])
    let document ← Work.quiet ((world.document request.file).mapError .unreadable)
    let (page, body) ← Work.quiet (frontMatter document.source)
    let engine ← build config
    let site : Site :=
      { files := world.files, config, page, base := document.folder, pageNumber := request.page }
    let run := engine.expand
      (Binding.render (site.host world.now world.seed) config.tagSettings) body
    Work.quiet (run.outcome.mapError .tag)
  | .tags =>
    -- the engine lists its tags in the order of their registration
    let engine ← build config
    pure (lines (engine.names.map (tagLine config)))
  | .scan =>
    -- warnings about the configuration come before those about the document
    let engine ← build config
    let document ← Work.quiet ((world.document request.file).mapError .unreadable)
    let printed ← Work.quiet (scan engine document.source)
    pure (lines printed)

/-- What a command leaves behind. -/
structure Report where
  code : Nat
  output : Text := []
  messages : List Text := []
  /-- Whether how commands are written has to be told. -/
  usage : Bool := false
  deriving DecidableEq, Repr

/-- The report of work. -/
def Work.report (w : Work Text) : Report :=
  match w.outcome with
  | .ok output => { code := 0, output, messages := w.messages }
  | .error failure =>
    { code := 1, messages := w.messages ++ [("Error: " ++ failure.message).toList] }

/-- The report on words that are not carried out. -/
def Refusal.report : Refusal → Report
  | .misuse => { code := 2, usage := true }
  | .help => { code := 0, usage := true }
  | .version => { code := 0, output := "sc 0.1.0\n".toList }

/-- Runs a command line. -/
def run (world : World) (words : List Text) : Report :=
  match Request.read world.env words with
  | .ok request => (request.perform world).report
  | .error refusal => refusal.report

end Shortcode.CommandLine
