import Shortcode.Text.Natural

/-!
# Flags

A flag is written with its name behind two hyphens or with its letter behind one. Some
flags take a value.
-/

namespace Shortcode.CommandLine

/-- A flag of a command. -/
inductive Flag
  | help
  | version
  | verbose
  | config
  | webUrl
  | locale
  | sourceDir
  | page
  deriving DecidableEq, Repr

namespace Flag

/-- The name of a flag. -/
def name : Flag → Text
  | help => "help".toList
  | version => "version".toList
  | verbose => "verbose".toList
  | config => "config".toList
  | webUrl => "web-url".toList
  | locale => "locale".toList
  | sourceDir => "source-dir".toList
  | page => "page".toList

/-- The letter of a flag, if it has one. -/
def letter? : Flag → Option Char
  | help => some 'h'
  | version => some 'V'
  | verbose => some 'v'
  | config => some 'c'
  | sourceDir => some 's'
  | _ => none

/-- Whether a flag takes a value. -/
def takesValue : Flag → Bool
  | help | version | verbose => false
  | _ => true

/-- Whether a flag can have a value. Paths are not empty, and pages are numbered. -/
def accepts (f : Flag) (value : Text) : Bool :=
  match f with
  | config | sourceDir => !value.isEmpty
  | page => (natural? value).isSome
  | _ => true

/-- All flags. -/
def all : List Flag :=
  [help, version, verbose, config, webUrl, locale, sourceDir, page]

/-- The flag with a name, of those that are known. -/
def ofName? (known : List Flag) (name : Text) : Option Flag :=
  known.find? (·.name = name)

/-- The flag with a letter, of those that are known. -/
def ofLetter? (known : List Flag) (letter : Char) : Option Flag :=
  known.find? (·.letter? = some letter)

end Flag

end Shortcode.CommandLine
