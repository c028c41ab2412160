import Shortcode.CommandLine.Flag
import Shortcode.Config.Load

/-!
# Requests

The words of a command line ask for one of the commands `render`, `tags` and `scan`.
Flags that all commands have may stand in front of the command. Behind it stand its own
flags and, for some commands, a file. The value of a flag stands behind `=` or in the next
word; a letter may have it in its own word. Behind a word `--` no word is a flag. A flag is
given once.

Words are read from the left, and the first one that asks for help, for the version or for
nothing that exists settles the matter.
-/

namespace Shortcode.CommandLine

/-- A command. -/
inductive Command
  /-- Shows a document with its tags replaced. -/
  | render
  /-- Lists the tags that are known. -/
  | tags
  /-- Lists the tags of a document. -/
  | scan
  deriving DecidableEq, Repr

namespace Command

/-- The commands. -/
def all : List Command :=
  [render, tags, scan]

/-- The name of a command. -/
def name : Command → Text
  | render => "render".toList
  | tags => "tags".toList
  | scan => "scan".toList

/-- The command with a name. -/
def ofName? (name : Text) : Option Command :=
  all.find? (·.name = name)

/-- The flags of a command. -/
def flags : Command → List Flag
  | render => [.help, .verbose, .config, .webUrl, .locale, .sourceDir, .page]
  | _ => [.help, .verbose, .config, .webUrl, .locale, .sourceDir]

/-- Whether a command reads a document. -/
def takesFile : Command → Bool
  | tags => false
  | _ => true

end Command

/-- Why words are not carried out as a command. -/
inductive Refusal
  | misuse
  | help
  | version
  deriving DecidableEq, Repr

/-- What a flag settles on its own. -/
def Flag.refusal? : Flag → Option Refusal
  | .help => some .help
  | .version => some .version
  | _ => none

/-- A word of a command line. -/
inductive Word
  | long (name : Text) (value : Option Text)
  | letters (letters : Text)
  /-- The word behind which there are no flags. -/
  | separator
  | operand (t : Text)
  deriving DecidableEq, Repr

/-- What a word is. A lone hyphen is no flag. -/
def Word.ofText : Text → Word
  | ['-', '-'] => .separator
  | '-' :: '-' :: t =>
    match Text.splitAt? '=' t with
    | some (name, value) => .long name (some value)
    | none => .long t none
  | '-' :: c :: t => .letters (c :: t)
  | t => .operand t

/-- What words have given so far: flags with their values, and a file. -/
structure Given where
  flags : List (Flag × Text) := []
  file : Option Text := none

namespace Given

/-- The value of a flag that was given. -/
def value? (g : Given) (f : Flag) : Option Text :=
  g.flags.lookup f

/-- Whether a flag was given. -/
def has (g : Given) (f : Flag) : Bool :=
  (g.value? f).isSome

/-- Adds a flag with a value, which is empty for a flag that takes none. -/
def add (g : Given) (f : Flag) (value : Text) : Except Refusal Given :=
  match f.refusal? with
  | some refusal => .error refusal
  | none =>
    if g.has f || !f.accepts value then .error .misuse
    else .ok { g with flags := (f, value) :: g.flags }

/-- Adds a file. -/
def addFile (g : Given) (file : Text) : Except Refusal Given :=
  if g.file.isSome || file.isEmpty then .error .misuse else .ok { g with file := some file }

/-- Adds the flags of a word of letters. A letter that takes a value has it in the rest of
    the word, or else in the next word; then the flag is still open. -/
def addLetters (known : List Flag) (g : Given) : Text → Except Refusal (Given × Option Flag)
  | [] => .ok (g, none)
  | c :: t =>
    match Flag.ofLetter? known c with
    | none => .error .misuse
    | some f =>
      if f.takesValue then
        match t with
        | [] => .ok (g, some f)
        | '=' :: value => (g.add f value).map (·, none)
        | value => (g.add f value).map (·, none)
      else
        match g.add f [] with
        | .ok g => addLetters known g t
        | .error refusal => .error refusal

/-- Adds the flag with a name. It is still open if its value has to be in the next word. -/
def addLong (known : List Flag) (g : Given) (name : Text) (value : Option Text) :
    Except Refusal (Given × Option Flag) :=
  match Flag.ofName? known name with
  | none => .error .misuse
  | some f =>
    match f.takesValue, value with
    | true, some value => (g.add f value).map (·, none)
    | true, none => .ok (g, some f)
    | false, none => (g.add f []).map (·, none)
    | false, some _ => .error .misuse

end Given

/-- Adds an operand of a command. -/
def Command.addOperand (command : Command) (g : Given) (t : Text) : Except Refusal Given :=
  if command.takesFile then g.addFile t else .error .misuse

/-- Reads the words behind a command; the value of the flag that is open comes first. -/
def Command.readWords (command : Command) (g : Given) (opened : Option Flag) :
    List Text → Except Refusal Given
  | [] => if opened.isSome then .error .misuse else .ok g
  | word :: rest =>
    match Word.ofText word, opened with
    | .operand value, some f => do readWords command (← g.add f value) none rest
    -- a flag is no value, not even behind a flag that wants one
    | _, some _ => .error .misuse
    | .operand t, none => do readWords command (← command.addOperand g t) none rest
    | .separator, none => rest.foldlM command.addOperand g
    | .long name value, none => do
      let (g, opened) ← g.addLong command.flags name value
      readWords command g opened rest
    | .letters letters, none => do
      let (g, opened) ← g.addLetters command.flags letters
      readWords command g opened rest

/-- The flags that may stand in front of a command. -/
def commonFlags : List Flag :=
  [.help, .version, .verbose]

/-- Whether words name something that help can be about: nothing, or one command. -/
def isHelpTopic : List Text → Bool
  | [] => true
  | [name] => (Command.ofName? name).isSome || name == "help".toList
  | _ => false

/-- Reads the words up to the command: what they give, the command, and the words behind
    it. -/
def readCommand (g : Given) : List Text → Except Refusal (Given × Command × List Text)
  | [] => .error .misuse
  | word :: rest =>
    match Word.ofText word with
    | .operand name =>
      match Command.ofName? name with
      | some command => .ok (g, command, rest)
      | none =>
        .error (if name = "help".toList ∧ isHelpTopic rest = true then .help else .misuse)
    | .separator => .error .misuse
    | .long name value => do
      let (g, _) ← g.addLong commonFlags name value
      readCommand g rest
    | .letters letters => do
      let (g, _) ← g.addLetters commonFlags letters
      readCommand g rest

/-- What a command line asks for. -/
structure Request where
  command : Command
  verbose : Bool
  /-- The document; without one, the input. -/
  file : Option Text
  /-- The configuration file. -/
  config : Option Text
  overrides : Overrides
  /-- The page of lists that is wanted. -/
  page : Nat

/-- The variable with the address of the site, where no flag gives it. -/
def webUrlVariable : Text := "SC_WEB_URL".toList

/-- Reads the words of a command line. -/
def Request.read (env : Environment) (words : List Text) : Except Refusal Request := do
  let (common, command, rest) ← readCommand {} words
  let given ← command.readWords {} none rest
  pure {
    command
    verbose := common.has .verbose || given.has .verbose
    file := given.file
    config := given.value? .config
    overrides := {
      webUrl := (given.value? .webUrl).or (env webUrlVariable)
      locale := given.value? .locale
      sourceDir := given.value? .sourceDir }
    page := ((given.value? .page).bind natural?).getD 1 }

end Shortcode.CommandLine
