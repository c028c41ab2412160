import Shortcode.CommandLine.Run
import Std.Time.Zoned

/-!
# The program

Reads what a command needs to see of the world around it, runs the command on that, and
shows its report. Files are read from the folders that the command can reach: that of the
document, and those of pages and templates.
-/

namespace Shortcode.CommandLine

/-- How commands are written. -/
def usage : String :=
  "Usage: sc [-v] render [FILE] [-c PATH] [--web-url URL] [--locale LOCALE] [-s DIR] [--page N]\n" ++
  "       sc [-v] tags [-c PATH] [--web-url URL] [--locale LOCALE] [-s DIR]\n" ++
  "       sc [-v] scan [FILE] [-c PATH] [--web-url URL] [--locale LOCALE] [-s DIR]\n"

/-- The file at a path, or the folder with all that is in it. What cannot be read is left
    out. -/
partial def snapshot (path : String) : IO (Option FileNode) := do
  try
    let place ← IO.FS.realPath path
    match (← place.metadata).type with
    | .dir =>
      let mut entries := []
      for entry in ← place.readDir do
        if let some node ← snapshot entry.path.toString then
          entries := (entry.fileName.toList, node) :: entries
      return some (.folder entries)
    | .file => return some (.file (← IO.FS.readBinFile path))
    | _ => return none
  catch _ => return none

/-- Files with what is found at a path. -/
def reveal (files : Files) (path : Text) : IO Files := do
  match ← snapshot (String.ofList path) with
  | some node =>
    let full := Path.join files.workingFolder path
    let full ← if (Path.parts full).contains ['.', '.'] then
        pure (← IO.FS.realPath (String.ofList full)).toString.toList
      else pure full
    return { files with root := node.put (Path.parts full) files.root }
  | none => return files

/-- The configuration files that a request may mean. -/
def configFiles (request : Request) (workingFolder : Text) : List Text :=
  match request.config with
  | some path => [path]
  | none =>
    let names := Path.parts workingFolder
    (List.range (names.length + 1)).map fun depth =>
      (names.take depth).flatMap ('/' :: ·) ++ '/' :: Config.fileName

/-- The variables of the environment. -/
def environment : IO Environment := do
  let settings ← try IO.FS.readBinFile "/proc/self/environ" catch _ => pure ByteArray.empty
  let texts := Text.splitOn '\x00' ((String.fromUTF8? settings).getD "").toList
  let table := texts.filterMap (Text.splitAt? '=')
  return fun name => table.lookup name

/-- The moment of the call, as local clocks show it. -/
def now : IO Calendar.DateTime := do
  let t ← Std.Time.DateTime.now
  return {
    year := t.year.toInt, month := t.month.toNat, day := t.day.toNat, hour := t.hour.toNat
    minute := t.minute.toNat, second := t.second.toNat, nanosecond := t.nanosecond.toNat
    offset := t.timezone.offset.second.val / 60 }

/-- The files that a request can reach. -/
def reach (request : Request) (env : Environment) : IO Files := do
  let here := (← IO.currentDir).toString.toList
  let mut files : Files := ⟨[], here⟩
  for path in configFiles request here do
    files ← reveal files path
  if request.command = .tags then
    return files
  let folders := match Config.load files env request.config (some request.overrides) with
    | .ok config => [config.sourceDir, config.templatesDir]
    | .error _ => []
  let document := match request.file with
    | some path => ((Path.parent? path).bind Text.nonEmpty?).getD here
    | none => here
  for path in document :: folders do
    files ← reveal files path
  return files

/-- Runs a command line in the world as it is. -/
def runHere (words : List Text) : IO Report := do
  let env ← environment
  match Request.read env words with
  | .error refusal => return refusal.report
  | .ok request =>
    let input ← if request.readsInput then (← IO.getStdin).readBinToEnd else pure ByteArray.empty
    let world : World :=
      { files := ← reach request env, env, input, now := ← now, seed := ← IO.rand 0 countLimit }
    return (request.perform world).report

end Shortcode.CommandLine

open Shortcode.CommandLine in
/-- Shows the report on a command line. -/
def main (words : List String) : IO UInt32 := do
  let report ← runHere (words.map String.toList)
  for message in report.messages do
    IO.eprintln (String.ofList message)
  let output ← IO.getStdout
  output.putStr (String.ofList report.output)
  if report.usage then
    if report.code = 0 then output.putStr usage else IO.eprint usage
  output.flush
  return report.code.toUInt32
