import RuleFlow.CommandLine
import RuleFlow.Journal.Text
import Std.Time.DateTime.Timestamp
import Std.Async.UDP
/-! # The command line

The surroundings of the program, its input and its output. -/
namespace RuleFlow.Main

open CommandLine

def names : List String :=
  ["RULE_EXECUTION_TIMEOUT_MS", "RULE_MAX_CONCURRENT_EXECUTIONS", "EVENT_QUEUE_SIZE", "EXECUTION_LOG_STORAGE_TYPE",
    "EXECUTION_LOG_DIRECTORY", "RULES_PATH", "ASSETS_PATH", "METRICS_STATSD_HOST", "METRICS_PREFIX", "RUST_LOG",
    "JSON_LOGS"]

def now : IO Instant := do
  let nanos := (← Std.Time.Timestamp.now).toNanosecondsSinceUnixEpoch.val
  return ⟨nanos.fdiv 1000000000, (nanos.fmod 1000000000).toNat⟩

def contents? (path : String) : IO (Option String) := do
  try return some (← IO.FS.readFile path)
  catch _ => return none

def look (arguments : List String) : IO Surroundings := do
  let values ← names.filterMapM fun name => do return (← IO.getEnv name).map (name, ·)
  let files ← ["RULES_PATH", "ASSETS_PATH"].filterMapM fun name => do
    match values.lookup name with
    | some path => return (← contents? path).map (path, ·)
    | none => return none
  return { arguments, env? := fun name => values.lookup name, file? := fun path => files.lookup path }

def printJournal (s : Surroundings) (entries : List Journal.Entry) : IO Unit := do
  let time ← now
  for e in entries.filter (filter s).shows do
    IO.println (if (s.env? "JSON_LOGS").isSome then e.jsonLine time else e.plainLine time)
  (← IO.getStdout).flush

def writeRecords (directory : String) (files : List (FilePath × String)) : IO Unit := do
  for (path, text) in files do
    let parent := "/".intercalate (directory :: path.dropLast)
    IO.FS.createDirAll parent
    IO.FS.writeFile (parent ++ "/" ++ path.getLast?.getD "") text

/-- Sends metrics, if there is a host that they reach. -/
def sendMetrics (p : Service) : IO Unit := do
  if let some sender := p.sender then
    if let some address := Std.Net.IPv6Addr.ofString sender.host then
      let socket ← Std.Async.UDP.Socket.mk
      for line in sender.deliver p.memory.metrics.toList do
        (socket.send (line ++ "\n").toUTF8 (some (.v6 ⟨address, sender.channel⟩))).block

/-- Prints, writes and sends what has come up, and gives the program without it. -/
def publish (s : Surroundings) (p : Service) (written : Nat) : IO (Service × Nat) := do
  let (entries, p) := p.drain
  printJournal s entries
  let files := p.recordFiles
  writeRecords (p.config.directory.getD "") (files.drop written)
  sendMetrics p
  return (p.withMemory { p.memory with metrics := #[] }, files.length)

/-- Feeds the program with the lines of the input until it ends, and gives its exit code. -/
partial def loop (s : Surroundings) (input : IO.FS.Stream) (p : Service) (written : Nat) : IO UInt32 := do
  let line ← input.getLine
  if line.isEmpty then
    let (p, _) ← publish s p.finish written
    if p.broken then IO.eprintln overflowLine
    return p.exitCode.toUInt32
  else
    let (p, written) ← publish s (p.feed (← now) [line]) written
    loop s input p written

end RuleFlow.Main

open RuleFlow RuleFlow.Main RuleFlow.CommandLine in
def main (arguments : List String) : IO UInt32 := do
  let s ← look arguments
  match start s (← now) with
  | .version =>
    IO.println Config.version
    return 0
  | .failed e journal =>
    printJournal s journal
    IO.eprintln (errorLine e)
    return 1
  | .running service journal =>
    printJournal s journal
    let (service, written) ← publish s service 0
    loop s (← IO.getStdin) service written
