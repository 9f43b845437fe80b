import ChannelConfig.Program.Snapshot
import Std.Time.DateTime.Timestamp

/-!
# Command line

Gives the library the means to look at files and to write them, and prints what comes of a request.
-/

set_option autoImplicit false

namespace ChannelConfig.Program

/-- The library's word for what went wrong with a file. -/
def fileError (e : IO.Error) : FileError :=
  let byCode (code : UInt32) (details : String) : FileError :=
    if code = 2 then .notFound
    else if code = 20 then .notADirectory
    else if code = 21 then .isADirectory
    else if code = 36 then .nameTooLong
    else .other s!"{details} (os error {code})"
  match e with
  | .noFileOrDirectory _ code details => byCode code details
  | .inappropriateType _ code details => byCode code details
  | .invalidArgument _ code details => byCode code details
  | .noSuchThing _ code details => byCode code details
  | .permissionDenied _ code details => byCode code details
  | .resourceExhausted _ code details => byCode code details
  | e => .other e.toString

def attempt {α : Type} (action : IO α) : IO (Except FileError α) := do
  match ← action.toBaseIO with
  | .ok a => return .ok a
  | .error e => return .error (fileError e)

def lookAtFile (path : Path) : IO Sighting := do
  let file := System.mkFilePath [path.text]
  let contents ← attempt do return (← IO.FS.readBinFile file).toList
  let names ← attempt do return ((← file.readDir).map (·.fileName)).toList
  let isFile ← attempt do return (← file.metadata).type == .file
  return { path, contents, names, isFile := isFile.toOption.getD false }

def writeFile (path : Path) (contents : Bytes) : IO (Except FileError Unit) :=
  attempt (IO.FS.writeBinFile (System.mkFilePath [path.text]) ⟨contents.toArray⟩)

def freshNonce : IO Nonce := do
  return .ofBytes (← IO.getRandomBytes 24).toList

def supplies : IO Supplies := do
  let now ← Std.Time.Timestamp.now
  return {
    stamp := {
      nonce := ← freshNonce
      seconds := Int64.ofInt now.toSecondsSinceUnixEpoch.val }
    updateNonce := ← freshNonce }

end ChannelConfig.Program

open ChannelConfig.Program in
/-- Runs the program; 0 means success, 1 failure and 2 that the arguments were not understood. -/
def main (args : List String) : IO UInt32 := do
  match Command.ofArguments args (← IO.getEnv "CONFIGTXGEN_CONFIG") with
  | .misuse => do
    IO.eprintln usage
    return 2
  | .help => do
    IO.println usage
    return 0
  | .request r => do
    match ← perform lookAtFile writeFile r (← supplies) with
    | .error e => do
      IO.eprintln e.report
      return 1
    | .ok (.view json) => do
      IO.println json.pretty
      return 0
    | .ok _ => return 0
