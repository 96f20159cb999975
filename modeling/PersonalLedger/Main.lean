import PersonalLedger.CommandLine.Session
import PersonalLedger.Store.Archive
import Std.Time.Zoned.Database

namespace PersonalLedger.Program

open CommandLine

structure Places where
  config : String
  data : String

/-- The places for a call; without a home directory, those for the user's own files. -/
def places (home : Option String) : IO Places := do
  match home with
  | some home => return ⟨home ++ "/config", home ++ "/data"⟩
  | none =>
    let own := (← IO.getEnv "HOME").getD "."
    let config := (← IO.getEnv "XDG_CONFIG_HOME").getD (own ++ "/.config")
    let data := (← IO.getEnv "XDG_DATA_HOME").getD (own ++ "/.local/share")
    return ⟨config ++ "/tally", data ++ "/tally"⟩

def Places.configFile (p : Places) : String := p.config ++ "/config.json"

def Places.storeFile (p : Places) : String := p.data ++ "/ledger.json"

def bytesOf? (path : String) : IO (Option ByteArray) := do
  try return some (← IO.FS.readBinFile path)
  catch
    | .noFileOrDirectory .. => return none
    | e => throw e

/-- Loads the settings, and writes the file where that changes it. -/
def loadConfig (p : Places) : IO (Except Config.LoadError Config) := do
  let file ← bytesOf? p.configFile
  let (after, loaded) := Config.loadFile file
  if after != file then
    IO.FS.createDirAll p.config
    IO.FS.writeBinFile p.configFile (after.getD .empty)
  return loaded

/-- Reads the store; nothing if there is one that cannot be read. -/
def loadStore (p : Places) : IO (Option Store) := do
  match ← bytesOf? p.storeFile with
  | none => return some (.empty "")
  | some bytes =>
    return (String.fromUTF8? bytes).bind fun text => (Json.read? text).bind Store.ofJson?

def saveStore (p : Places) (s : Store) : IO Unit := do
  IO.FS.createDirAll p.data
  IO.FS.writeFile p.storeFile s.toJson.render

def clock : IO Moment := do
  let now ← Std.Time.Timestamp.now
  let nanos := now.toNanosecondsSinceUnixEpoch.val
  let rules ← try some <$> Std.Time.Database.defaultGetLocalZoneRules catch _ => pure none
  let offset : Int := rules.elim 0 fun r => (r.timezoneAt now).offset.second.val
  let seconds := nanos / 1000000000
  let instant := (Timestamp.instant? seconds 0 (nanos % 1000000000).toNat 0).getD (.ofSeconds seconds)
  return ⟨instant, .fixed offset⟩

def replLoop (p : Places) (sender : Sender) (store : Store) : IO Unit := do
  let input ← IO.getStdin
  let output ← IO.getStdout
  let mut store := store
  repeat
    let line ← input.getLine
    if line.isEmpty then break
    for text in linesOf line.toList do
      let (next, replies) := replLine sender store (String.ofList text) (← clock)
      store := next
      saveStore p store
      for reply in replies do output.putStrLn reply
      output.flush

/-- Carries out a call and gives its exit code. -/
def run (call : Invocation) : IO UInt32 := do
  let p ← places call.home
  match ← loadConfig p with
  | .error e =>
    IO.eprintln (e.message p.configFile)
    return 1
  | .ok config =>
    let some store ← loadStore p
      | IO.eprintln ("Failed to open " ++ p.storeFile)
        return 1
    let store := { store with defaultCurrency := config.currency }
    let sender := call.sender config
    match call.action with
    | .repl =>
      replLoop p sender store
      return 0
    | .exec time words =>
      let (store, result) := execAt sender store time words (← clock)
      saveStore p store
      IO.print result.output
      IO.eprint result.errors
      return UInt32.ofNat result.code

def usage : String :=
  "Usage: tally [--home <HOME>] [--user <USER>] <COMMAND>\n\n" ++
    "Commands:\n" ++
    "  exec [--at <AT>] <MESSAGE>...  Handle a single message\n" ++
    "  repl                           Read one message per line until the input ends\n"

end PersonalLedger.Program

def main (args : List String) : IO UInt32 := do
  let home ← IO.getEnv "TALLY_HOME"
  let user ← IO.getEnv "TALLY_USER"
  match PersonalLedger.CommandLine.invocation home user args with
  | .ok call => PersonalLedger.Program.run call
  | .error .helpScreen =>
    IO.print PersonalLedger.Program.usage
    return 0
  | .error .usage =>
    IO.eprint PersonalLedger.Program.usage
    return 2
