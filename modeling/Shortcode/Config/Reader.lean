import Shortcode.Config.Basic
import Shortcode.Toml.Reader

/-!
# Settings in a TOML document

A configuration is written in sections of a document. A key that is missing has its
default, and a key that means nothing is passed over, but not in the declaration of
a tag. A section may also be an array of the values of its first keys, in the order
in which the keys are listed here.
-/

namespace Shortcode

open Toml (Value Entries)

/-- The settings of a document: a configuration, and its directories as they are
    written. -/
structure Settings where
  config : Config
  sourceDir : Option Text
  templatesDir : Option Text

namespace Settings

/-- The value under `key`, read by `read`, or `fallback` if there is none. -/
def value {α : Type} (entries : Entries) (key : String) (fallback : α) (read : Value → Option α) :
    Option α :=
  match entries.lookup key.toList with
  | some v => read v
  | none => some fallback

/-- The entries of a section whose keys are `keys`. -/
def section? (keys : List String) : Value → Option Entries
  | .table _ entries => some entries
  | .array items => some ((keys.map String.toList).zip items)
  | .tables reversed =>
    some ((keys.map String.toList).zip (reversed.reverse.map (Value.table .begun)))
  | _ => none

/-- The section under `key`; without one it has no entries. -/
def sectionAt? (entries : Entries) (key : String) (keys : List String) : Option Entries :=
  value entries key [] (section? keys)

/-- A text. -/
def text? : Value → Option Text
  | .text t => some t
  | _ => none

/-- A text that may be missing. -/
def someText? (v : Value) : Option (Option Text) :=
  (text? v).map some

/-- A count. -/
def count? : Value → Option Nat
  | .integer n => if 0 ≤ n ∧ n.toNat < countLimit then some n.toNat else none
  | _ => none

/-- The value of a field of the site. -/
def field? : Value → Option FieldValue
  | .text t => some (.text t)
  | .array items => (items.mapM text?).map .list
  | _ => none

/-- A table of values that `read` reads. -/
def table? {α : Type} (read : Value → Option α) : Value → Option (Table α)
  | .table _ entries =>
    (entries.mapM fun (e : Text × Value) => (read e.2).map (e.1, ·)).map Table.ofList
  | _ => none

/-- The policy with a name. -/
def policyOfName? (name : Text) : Option ErrorPolicy :=
  if name = "propagate".toList then some .propagate
  else if name = "isolate".toList then some .isolate
  else none

/-- A policy on errors: its name, or its name as the only key of a table, with
    nothing in it. -/
def policy? : Value → Option ErrorPolicy
  | .text name => policyOfName? name
  | .table _ [(name, .table _ [])] => policyOfName? name
  | .table _ [(name, .array [])] => policyOfName? name
  | _ => none

/-- The declaration of a tag. -/
def declaration? (v : Value) : Option Declaration := do
  let keys := ["alias", "defaults", "template"]
  let entries ← section? keys v
  if entries.all fun (key, _) => (keys.map String.toList).contains key then
    pure {
      «alias» := ← value entries "alias" none someText?
      defaults := ← value entries "defaults" Table.empty (table? text?)
      template := ← value entries "template" none someText? }
  else none

/-- The settings in the entries of a document. -/
def ofEntries? (entries : Entries) : Option Settings := do
  let d : Config := {}
  let site ← sectionAt? entries "site" ["web_url", "title", "fields"]
  let date ← sectionAt? entries "date" ["format", "locale"]
  let listing ← sectionAt? entries "listing" ["template", "limit"]
  let engine ← sectionAt? entries "engine" ["max_depth", "on_error"]
  let paths ← sectionAt? entries "paths" ["source_dir", "templates_dir"]
  let config : Config := {
    webUrl := ← value site "web_url" d.webUrl text?
    title := ← value site "title" none someText?
    fields := ← value site "fields" Table.empty (table? field?)
    dateFormat := ← value date "format" d.dateFormat text?
    dateLocale := ← value date "locale" none someText?
    listingTemplate := ← value listing "template" d.listingTemplate text?
    listingLimit := ← value listing "limit" d.listingLimit count?
    engine := {
      maxDepth := ← value engine "max_depth" d.engine.maxDepth count?
      onError := ← value engine "on_error" d.engine.onError policy? }
    tags := ← value entries "tags" Table.empty (table? declaration?) }
  pure {
    config
    sourceDir := ← value paths "source_dir" none someText?
    templatesDir := ← value paths "templates_dir" none someText? }

end Settings

end Shortcode
