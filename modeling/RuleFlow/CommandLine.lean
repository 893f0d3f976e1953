import RuleFlow.Config
import RuleFlow.Validation
import RuleFlow.Intake
import RuleFlow.Tasks.Basic
import RuleFlow.Metric.Statsd
import RuleFlow.Journal.Filter
import RuleFlow.Backend.Memory
/-! # The program

The program reads rules and assets from files, takes events from its input line by line, and runs the rules that they
concern.  It is started in given surroundings, fed with lines and then finished; what it prints is its journal. -/
namespace RuleFlow.CommandLine

/-- What the program finds when it is started. -/
structure Surroundings where
  arguments : List String
  env? : String → Option String
  file? : String → Option String

inductive StartError
  | config (cause : ConfigError)
  | unreadable (path : String)
  | unparsable (path : String)
  | address (cause : Statsd.AddressError)
  deriving DecidableEq, Repr

def StartError.message : StartError → String
  | .config cause => cause.message
  | .unreadable path => "Failed to read " ++ path
  | .unparsable path => "Failed to parse " ++ path
  | .address cause => cause.message

/-- The program while it runs, or when it has ended or broken off. -/
structure Service where
  config : Config
  rules : List Rule
  engine : Engine Memory
  intake : Intake Memory
  tasks : TaskGroup
  sender : Option Statsd.Sender
  broken : Bool := false

/-- A part of the start: it reports and may fail. -/
abbrev Boot (α : Type) := ExceptT StartError (StateM (Array Journal.Entry)) α

def report (level : Level) (message : String) (fields : List (String × Json)) : Boot Unit :=
  modify (·.push ⟨.main, level, message, fields⟩)

def loadList (s : Surroundings) (path : String) (decoder : Decoder α) : Boot (List α) :=
  match s.file? path with
  | none => throw (.unreadable path)
  | some text =>
    match (Document.parse text).bind (Decoder.list decoder).run with
    | some items => return items
    | none => throw (.unparsable path)

/-- Whether a rule is kept: one that is active has to be valid. -/
def keepRule (r : Rule) : Boot Bool :=
  if r.isActive then
    match r.validate with
    | .ok _ => return true
    | .error e => do
      report .warn "Skipping invalid rule" [("rule.id", .string r.id), ("error", .string e.message)]
      return false
  else return true

def chooseLog (c : Config) : Boot ExecutionLog := do
  match c.storage with
  | .files =>
    report .info "Using filesystem execution log storage" [("base_dir", .string (c.directory.getD ""))]
    return .files { base := c.directory.getD "" }
  | .memory =>
    report .info "Using in-memory execution log storage" []
    return .memory []
  | .discard =>
    report .info "Using no-op execution log storage" []
    return .discard
  | .journal =>
    report .info "Using tracing execution log storage" []
    return .journal

def chooseSender (c : Config) : Boot (Option Statsd.Sender) :=
  match c.metricsHost with
  | none => return none
  | some address =>
    match Statsd.Sender.to address c.metricsLead with
    | .ok sender => return some sender
    | .error e => throw (.address e)

def readerTask : Task := { name := "event_reader", kind := .cancellable, work := .own }

def consumerTask : Task := { name := "rule_event_consumer", kind := .managed, work := .own }

def boot (s : Surroundings) (config : Config) (now : Instant) : Boot Service := do
  report .info "Starting assetrules" [("version", .string Config.version)]
  let rules ← (← loadList s config.rulesPath Rule.decoder).filterM keepRule
  let assets ← loadList s config.assetsPath Asset.decoder
  report .info "Loaded rules and assets" [("rules", .count rules.length), ("assets", .count assets.length)]
  let log ← chooseLog config
  let sender ← chooseSender config
  let memory : Memory := { rules := ⟨rules⟩, assets := .ofList assets, log, alarms := .journal, clock := now }
  let engine : Engine Memory :=
    { backend := Memory.backend
      settings := { timeoutMs := config.timeoutMs, maxConcurrent := config.maxConcurrent } }
  let tasks := (TaskGroup.spawn {} readerTask).spawn consumerTask
  let memory := (memory.reportAll tasks.journal).report Consumer.startedEntry
  return {
    config, rules, engine, sender
    intake := { capacity := config.queueSize, isOpen := true, world := memory }
    tasks := { tasks with journal := [] } }

/-- What comes of a start: the version is asked for, the program fails, or it runs; with the journal so far. -/
inductive Start
  | version
  | failed (cause : StartError) (journal : List Journal.Entry)
  | running (service : Service) (journal : List Journal.Entry)

def start (s : Surroundings) (now : Instant) : Start :=
  if s.arguments.contains "--version" then .version
  else
    match Config.load s.env? with
    | .error e => .failed (.config e) []
    | .ok config =>
      match (boot s config now).run #[] with
      | (.error e, journal) => .failed e journal.toList
      | (.ok service, journal) => .running service journal.toList

def filter (s : Surroundings) : Journal.Filter := .parse ((s.env? "RUST_LOG").getD "assetrules=info")

namespace Service

def memory (p : Service) : Memory := p.intake.world

def withMemory (p : Service) (m : Memory) : Service := { p with intake := { p.intake with world := m } }

def endTasks (p : Service) : Service :=
  let ended (done : Bool) (i : Nat) (g : TaskGroup) := if done then (g.move (.complete i true)).getD g else g
  let tasks := ended (!p.intake.consuming) 1 (ended (!p.intake.reading) 0 p.tasks)
  { p with tasks := { tasks with journal := [] } }.withMemory (p.memory.reportAll tasks.journal)

def settle (p : Service) : Service := { p with intake := p.intake.run p.engine }.endTasks

def feed (p : Service) (now : Instant) (lines : List String) : Service :=
  let p := p.withMemory { p.memory with clock := now }
  { p with intake := { p.intake with lines := p.intake.lines ++ lines } }.settle

def summaryEntry (r : Rule) (stats : ExecutionStats) : Journal.Entry :=
  ⟨.main, .info, "Execution summary",
    [("rule.id", .string r.id), ("executions.total", .count stats.total),
      ("executions.succeeded", .count stats.succeeded), ("executions.failed", .count stats.failed),
      ("executions.average_duration_ms",
        Json.ofOption Json.number (Json.Number.ofFloat? stats.averageDurationMs))]⟩

/-- Sums up the runs of each rule, as far as durations can be added up, and tells whether all can. -/
def summarize (log : ExecutionLog) : List Rule → List Journal.Entry × Bool
  | [] => ([], true)
  | r :: rest =>
    match log.stats r.tenantId r.id with
    | .error _ => summarize log rest
    | .ok none => ([], false)
    | .ok (some stats) =>
      let (entries, complete) := summarize log rest
      (summaryEntry r stats :: entries, complete)

/-- What is reported in the end; the runs of each rule are summed up if the records are in memory.  A sum that is too
large breaks the program off. -/
def summary (p : Service) : List Journal.Entry × Bool :=
  let (entries, complete) := if p.config.storage = .memory then summarize p.memory.log p.rules else ([], true)
  (if complete then entries ++ [⟨.main, .info, "All tasks completed, shutting down", []⟩] else entries, complete)

/-- Ends the input and works until everything has ended. -/
def finish (p : Service) : Service :=
  let p := { p with intake := { p.intake with isOpen := false } }.settle
  let (entries, complete) := p.summary
  { p with broken := !complete }.withMemory (p.memory.reportAll entries)

def exitCode (p : Service) : UInt8 := if p.broken then 101 else 0

def drain (p : Service) : List Journal.Entry × Service :=
  (p.memory.journal.toList, p.withMemory { p.memory with journal := #[] })

/-- The record files so far, by their paths below the directory of the records. -/
def recordFiles (p : Service) : List (FilePath × String) :=
  match p.memory.log with
  | .files tree => tree.files
  | _ => []

end Service

/-- What a run of the program leaves: its exit code, its output and error apart from the journal, the entries of the
journal that are printed, and the record files. -/
structure Report where
  exitCode : UInt8
  output : List String := []
  error : Option String := none
  journal : List Journal.Entry := []
  recordFiles : List (FilePath × String) := []

def errorLine (e : StartError) : String := "Error: " ++ e.message

/-- The error line of a program that breaks off. -/
def overflowLine : String := "attempt to add with overflow"

/-- Runs the program on the lines of its input. -/
def run (s : Surroundings) (now : Instant) (lines : List String) : Report :=
  match start s now with
  | .version => { exitCode := 0, output := [Config.version] }
  | .failed e journal =>
    { exitCode := 1, error := some (errorLine e), journal := journal.filter (filter s).shows }
  | .running service journal =>
    let service := (service.feed now lines).finish
    { exitCode := service.exitCode
      error := if service.broken then some overflowLine else none
      journal := (journal ++ service.drain.1).filter (filter s).shows
      recordFiles := service.recordFiles }

end RuleFlow.CommandLine
