import PointerScript.Application

/-! The command line. Without a word the editor is opened; `compile` compiles `program.txt` with a
compiler that knows no commands, `run` runs `recording.txt`, and `keys` prints the keys that may be
chosen as a pause key. The device is a model here: no real pointer is moved. -/

namespace PointerScript.CommandLine

def paths : List String := [Settings.defaultPath, "program.txt", "recording.txt"]

def readFile? (path : String) : IO (Option (String × FileNode)) := do
  try
    let bytes ← IO.FS.readBinFile path
    return some (path, .file bytes.toList)
  catch _ => return none

def readFiles : IO Files := do
  let found ← paths.mapM readFile?
  return found.filterMap id

def writeChanges (before after : Files) : IO Unit :=
  after.forM fun (path, node) =>
    match node with
    | .file bytes =>
      if before.find? path = some node then pure ()
      else IO.FS.writeBinFile path ⟨bytes.toArray⟩
    | .directory => pure ()

def reportOf (word : Option String) (files : Files) : Report :=
  match word with
  | some "compile" => Application.compileFile files "program.txt"
  | some "run" => Application.runBeside files "recording.txt" {} {}
  | some "keys" => Application.listAllowedKeys
  | _ => Application.openEditor files none {}

def exitCode : ApplicationEnd → UInt32
  | .returned | .left none => 0
  | .left (some code) => UInt32.ofNat code.toNat
  | .failed _ => 1

end PointerScript.CommandLine

open PointerScript PointerScript.CommandLine in
/-- Carries out a start and prints what it leaves: its messages go to the error output. -/
def main (arguments : List String) : IO UInt32 := do
  let files ← readFiles
  let report := reportOf arguments.head? files
  (report.log.texts .debug).forM IO.eprintln
  IO.print report.printed
  if report.files ≠ [] then writeChanges files report.files
  match report.ending with
  | .failed fault => IO.eprintln fault.message
  | _ => pure ()
  return exitCode report.ending
