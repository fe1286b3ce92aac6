import Std.Time.DateTime.Timestamp
import TableBrowser.Web.Terminal

/-!
# The program

Reads the command line, opens the database and answers requests from standard
input, one a line.  The clock and the source of random bytes are asked here; all
that is decided from them is decided in the modules below.
-/

namespace TableBrowser.Main

open TableBrowser.Web

def currentSecond : IO Int := do
  return (← Std.Time.Timestamp.now).toSecondsSinceUnixEpoch.val

/-- Fresh keys: one row of random bytes, cut into pieces of sixteen. -/
def freshKeys : IO Database.Demo.Keys := do
  let bytes := (← IO.getRandomBytes 4096).toList
  let key (n : Nat) : List UInt8 :=
    ((Filter.Uuid.ofRandom? ((bytes.drop (16 * n)).take 16)).map (·.bytes)).getD []
  return ⟨key, fun n => key (n + 64), fun n => key (n + 128)⟩

def freshId : IO Text := do
  let bytes := (← IO.getRandomBytes 16).toList
  return ((Filter.Uuid.ofRandom? bytes).map (·.toText)).getD []

def putLines (output : IO.FS.Stream) (lines : List Text) : IO Unit := do
  for line in lines do
    output.putStrLn (String.ofList line)
  output.flush

/-- Answers the requests of all lines that are left. -/
partial def serveLines (input output : IO.FS.Stream) (database : Database) (server : Server) :
    IO Unit := do
  let line ← input.getLine
  if line.isEmpty then return
  match Request.ofLine? line.toList with
  | none => serveLines input output database server
  | some request =>
    let now ← currentSecond
    let data := database.connection.source ⟨atOnce now, .done⟩
    let (after, response) :=
      (server.expire now.toNat).serve data now.toNat (← freshId) request
    putLines output [response.line]
    serveLines input output database after

def run (settings : Settings) : IO UInt32 := do
  match settings.database? with
  | some file =>
    putLines (← IO.getStderr) ["error: databases in files are not supported: " ++ file]
    return 1
  | none =>
    let database := Server.openDatabase settings (← currentSecond) (← freshKeys)
    let output ← IO.getStdout
    putLines output settings.announcement
    serveLines (← IO.getStdin) output database (.start settings)
    return 0

end TableBrowser.Main

open TableBrowser TableBrowser.Web in
def main (args : List String) : IO UInt32 := do
  match Options.read (args.map (·.toList)) with
  | .ok options =>
    match Settings.ofOptions? options with
    | some settings => Main.run settings
    | none =>
      Main.putLines (← IO.getStderr) ["attempt to multiply with overflow"]
      return 101
  | .error .displayHelp =>
    Main.putLines (← IO.getStdout) usage
    return 0
  | .error .displayVersion =>
    Main.putLines (← IO.getStdout) ["rowscope-studio " ++ Server.version]
    return 0
  | .error fault =>
    Main.putLines (← IO.getStderr) ["error: " ++ fault.message]
    return 2
