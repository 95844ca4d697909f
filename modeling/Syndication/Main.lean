import Syndication.CommandLine.Run

/-!
# The program

Runs a command line on the files of the machine and prints what comes of it.
-/

namespace Syndication.Machine

/-- What stands at a path. -/
def look (path : String) : IO FileEntry := do
  if path == "" then return .absent
  let place := (← IO.currentDir) / path
  if ← place.isDir then
    return .directory ((← place.readDir).toList.map (·.fileName))
  try
    return .file (← IO.FS.readBinFile place).toList
  catch _ => return if ← place.pathExists then .unreadable else .absent

/-- Tries something, and tells whether it was possible. -/
def attempt (action : IO Unit) : IO Bool := do
  try
    action
    return true
  catch _ => return false

/-- Runs a program on the files of the machine. -/
def run {α : Type} : FileProgram α → IO α
  | .done a => return a
  | .look path next => do run (next (← look path))
  | .write path content next => do
    run (next (← attempt (IO.FS.writeFile ((← IO.currentDir) / path) content)))
  | .makeDirectory path next => do
    run (next (← attempt (IO.FS.createDirAll ((← IO.currentDir) / path))))

/-- The file in which the system keeps the environment of the program. -/
def environmentPath : String := "/proc/self/environ"

/-- The variables of the environment. -/
def environment : IO (List (String × String)) := do
  match ← look environmentPath with
  | .file content =>
    let texts := Chars.splitOn '\x00' (Text.decodeLossy content)
    return texts.filterMap fun text =>
      (Chars.splitFirst? '=' text).map fun (name, value) =>
        (String.ofList name, String.ofList value)
  | _ => return []

/-- The moment, in nanoseconds after the beginning of 1970: when the system has made
the entry of the program. -/
def moment : IO Nat := do
  let time := (← ((← IO.currentDir) / environmentPath).metadata).modified
  return time.sec.toNat * 1000000000 + time.nsec.toNat

/-- A new id. -/
def newId : IO Uuid := do
  let bytes ← IO.getRandomBytes 16
  return .ofRandom (bytes.toList.foldl (fun n b => n * 256 + b.toNat) 0)

/-- What stands around a command. -/
def surroundings : IO Surroundings := do
  let start ← try moment catch _ => pure 0
  return ⟨← environment, (← newId, ← newId), start⟩

end Syndication.Machine

/-- Runs a command line: prints what comes of it, and ends with its code. -/
def main (arguments : List String) : IO UInt32 := do
  let program := Syndication.runArguments (← Syndication.Machine.surroundings) arguments
  let output ← Syndication.Machine.run program
  for line in output.lines do IO.println line
  for line in output.errorLines do IO.eprintln line
  return UInt32.ofNat output.code
