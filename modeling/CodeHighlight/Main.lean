import CodeHighlight.CommandLine.Run
import CodeHighlight.Packages.Loader

/-!
# The command line

Collects what lies at the paths that a command line names, lets the library answer, and prints and
writes what the answer says.
-/

namespace CodeHighlight.CommandLine

/-- What is printed when a command line is refused or asks for help. -/
def usageText : String :=
  "Usage: fencesmith [--version] [--help] COMMAND\n\n"
    ++ "Commands:\n"
    ++ "  render INPUT [-o FILE] [-p PACKAGE]... [-w CLASSES]... [--config FILE]\n"
    ++ "               [--precedence last|first] [--class-style segments|joined]\n"
    ++ "               [--parser NAME] [-v]... [--debug]\n"
    ++ "  languages [-p PACKAGE]... [--config FILE] [--precedence last|first] [-v]... [--debug]\n"

/-- The paths that a command names, those around its output included. -/
def namedPaths (d : Disk) : Command → List String
  | .render input output _ a =>
    let outputs := output.toList.map d.resolve
    (input :: a.config.toList).map d.resolve ++ outputs.flatMap Disk.foldersAround ++ outputs
  | .languages a => a.config.toList.map d.resolve
  | _ => []

/-- What lies at a path. -/
def itemAt (path : String) : IO (List (String × Item)) := do
  try
    let bytes ← IO.FS.readBinFile path
    pure [(path, .file bytes.toList)]
  catch
    | .inappropriateType .. => pure [(path, .folder)]
    | _ => pure []

/-- The disk with what lies at some paths. -/
def diskWith (home : List String) (paths : List String) : IO Disk := do
  let items ← paths.mapM itemAt
  pure { home, items := items.flatten }

/-- Do what a run says. -/
def perform (r : Run) : IO UInt32 := do
  for (path, text) in r.written.toList do
    match (Disk.foldersAround path).getLast? with
    | some folder => if !folder.isEmpty then IO.FS.createDirAll folder
    | none => pure ()
    IO.FS.writeFile path text
  IO.eprint r.stderr
  IO.print r.stdout
  pure r.exit.toUInt32

end CodeHighlight.CommandLine

open CodeHighlight CommandLine in
/-- Run a command line. -/
def main (words : List String) : IO UInt32 := do
  let home := "" :: Text.Path.components (← IO.currentDir).toString
  let command := Command.ofWords words
  let disk ← diskWith home (namedPaths { home } command)
  match command.reply .usual disk (Source.loader (Builtin.supplyWith [])) with
  | .refused => IO.eprint usageText; pure 2
  | .help => IO.print usageText; pure 0
  | .run r => perform r
