import RuleFlow.Json.Reader
import RuleFlow.Execution.Stats
import RuleFlow.Storage.Error
import RuleFlow.Journal
/-! # Execution logs

Where execution records are kept: in the journal, in memory, in files or nowhere.  A record file lies at
`<tenant>/<rule>/<id>.json`, so that a directory holds the records of one rule; what else lies there is passed over
when the records are listed. -/
namespace RuleFlow

inductive ExecutionLog
  | journal
  | memory (records : List ExecutionRecord)
  | files (tree : FileTree)
  | discard

namespace ExecutionLog

/-- An identifier that may be the name of a file or directory.  What could lead out of the directory is refused. -/
def checkName (value : String) : Except StorageError String :=
  if value = "" ∨ value = "." ∨ value = ".." ∨ value.contains '/' ∨ value.contains '\\' then
    .error (.invalidInput ("Invalid path component: '" ++ value ++ "'"))
  else .ok value

def ruleDirectory (tenant rule : String) : Except StorageError FilePath := do
  let tenant ← checkName tenant
  let rule ← checkName rule
  return [tenant, rule]

def ending : String := ".json"

/-- Whether a name is that of a record file: something stands before the ending. -/
def isRecordName (name : String) : Bool := name.endsWith ending && name != ending

def recordPath (r : ExecutionRecord) : Except StorageError (FilePath × String) := do
  let directory ← ruleDirectory r.tenantId r.ruleId
  let id ← checkName r.id
  return (directory, id ++ ending)

def insertFile (tree : FileTree) (r : ExecutionRecord) : Except StorageError Unit × FileTree :=
  match recordPath r with
  | .error e => (.error e, tree)
  | .ok (directory, name) =>
    match tree.makeDirectories directory with
    | (.error e, tree) => (.error (.inputOutput e), tree)
    | (.ok _, tree) =>
      match tree.write directory name r.fileText with
      | (.error e, tree) => (.error (.inputOutput e), tree)
      | (.ok _, tree) => (.ok (), tree)

def readFile? (name : String) (entry : FileEntry) : Option ExecutionRecord :=
  match entry with
  | .directory => none
  | .binary => none
  | .file text => if isRecordName name then (Document.parse text).bind ExecutionRecord.decoder.run else none

/-- The order of listing: by the ends of the runs, the newest first, and then by the ids, the greatest first. -/
def listedBefore (a b : ExecutionRecord) : Bool :=
  if a.completedAt = b.completedAt then b.id ≤ a.id else b.completedAt.le a.completedAt

def listFiles (entries : List (String × FileEntry)) : List ExecutionRecord :=
  (entries.filterMap fun (name, entry) => readFile? name entry).mergeSort listedBefore

/-- The entries of the directory of a rule; a directory that is not there has none. -/
def openDirectory (tree : FileTree) (directory : FilePath) : Except StorageError (List (String × FileEntry)) :=
  match tree.find directory with
  | .error e => .error (.inputOutput e)
  | .ok none => .ok []
  | .ok (some (.file _)) => .error (.inputOutput .notADirectory)
  | .ok (some .binary) => .error (.inputOutput .notADirectory)
  | .ok (some .directory) => .ok (tree.list directory)

def entry (r : ExecutionRecord) : Journal.Entry where
  part := .executionLog
  level := .info
  message := if r.success then "Rule execution completed successfully" else "Rule execution failed"
  fields :=
    [("execution.id", .string r.id), ("rule.id", .string r.ruleId), ("tenant.id", .string r.tenantId),
      ("asset.id", .string r.assetId), ("execution.trigger", .string r.triggerType),
      ("execution.duration_ms", .ofUInt64 r.durationMs), ("execution.started_at", r.startedAt.toJson),
      ("execution.completed_at", r.completedAt.toJson)] ++
    if r.success then
      [("execution.actions", .count r.actions.length), ("execution.result", .string "success")]
    else [("execution.result", .string "failure"), ("execution.error", .string (r.error.getD ""))]

def insert (log : ExecutionLog) (r : ExecutionRecord) :
    Except StorageError Unit × ExecutionLog × List Journal.Entry :=
  match log with
  | .journal => (.ok (), .journal, [entry r])
  | .memory records => (.ok (), .memory (records ++ [r]), [])
  | .files tree =>
    let (result, tree) := insertFile tree r
    (result, .files tree, [])
  | .discard => (.ok (), .discard, [])

def cut (limit : Option Nat) (xs : List α) : List α :=
  match limit with
  | some n => xs.take n
  | none => xs

def isOf (tenant rule : String) (r : ExecutionRecord) : Bool := r.tenantId = tenant && r.ruleId = rule

def listAll (log : ExecutionLog) (tenant rule : String) : Except StorageError (List ExecutionRecord) :=
  match log with
  | .journal => .ok []
  | .memory records => .ok (records.reverse.filter (isOf tenant rule))
  | .files tree => do
    let directory ← ruleDirectory tenant rule
    return listFiles (← openDirectory tree directory)
  | .discard => .ok []

def list (log : ExecutionLog) (tenant rule : String) (limit : Option Nat) :
    Except StorageError (List ExecutionRecord) :=
  (log.listAll tenant rule).map (cut limit)

/-- The statistics of a rule, if the durations of its runs can be added up. -/
def stats (log : ExecutionLog) (tenant rule : String) : Except StorageError (Option ExecutionStats) :=
  (log.list tenant rule none).map ExecutionStats.ofRecords?

end ExecutionLog

end RuleFlow
