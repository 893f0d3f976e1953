import RuleFlow.Text.CharClass
/-! # Configuration

The program is configured by environment variables.  The first variable that is wrong or missing decides the
error. -/
namespace RuleFlow

inductive ConfigError
  | missingVariable (name : String)
  | invalidTimeout (value : String)
  | invalidConcurrency (value : String)
  | invalidValue (details : String)
  deriving DecidableEq, Repr

def ConfigError.message : ConfigError → String
  | .missingVariable name => "error-assetrules-config-1 Required environment variable not set: " ++ name
  | .invalidTimeout value => "error-assetrules-config-3 Invalid timeout value: " ++ value
  | .invalidConcurrency value => "error-assetrules-config-4 Invalid concurrency limit: " ++ value
  | .invalidValue details => "error-assetrules-config-5 Invalid value: " ++ details

inductive LogStorage | journal | memory | files | discard
  deriving DecidableEq, Repr

structure Config where
  timeoutMs : { n : Nat // 0 < n }
  maxConcurrent : { n : Nat // 0 < n }
  queueSize : { n : Nat // 10 ≤ n }
  storage : LogStorage
  directory : Option String
  rulesPath : String
  assetsPath : String
  metricsHost : Option String
  metricsLead : String

namespace Config

def version : String := "0.1.0"

def defaultTimeoutMs : { n : Nat // 0 < n } := ⟨5000, by decide⟩

/-- How many rules run at once for one event. -/
def defaultMaxConcurrent : { n : Nat // 0 < n } := ⟨8, by decide⟩

def defaultQueueSize : { n : Nat // 10 ≤ n } := ⟨1000, by decide⟩

def defaultStorage : LogStorage := .journal

/-- The number that ASCII digits spell, if it fits a word of 64 bits. -/
def wordOfDigits? (cs : List Char) : Option Nat :=
  if cs ≠ [] ∧ cs.all Text.isDigit ∧ Text.natOfDigits cs < UInt64.size then some (Text.natOfDigits cs) else none

/-- A word of 64 bits; a plus may stand before the digits. -/
def word? (value : String) : Option Nat :=
  match value.toList with
  | '+' :: cs => wordOfDigits? cs
  | cs => wordOfDigits? cs

def readTimeout (value : String) : Except ConfigError { n : Nat // 0 < n } :=
  match word? value with
  | some n => if h : 0 < n then .ok ⟨n, h⟩ else .error (.invalidTimeout value)
  | none => .error (.invalidTimeout value)

def readConcurrency (value : String) : Except ConfigError { n : Nat // 0 < n } :=
  match word? value with
  | some n => if h : 0 < n then .ok ⟨n, h⟩ else .error (.invalidConcurrency value)
  | none => .error (.invalidConcurrency value)

def readQueueSize (value : String) : Except ConfigError { n : Nat // 10 ≤ n } :=
  match word? value with
  | some n => if h : 10 ≤ n then .ok ⟨n, h⟩ else .error (.invalidValue "Event queue size must be at least 10")
  | none => .error (.invalidValue ("Invalid event queue size: " ++ value))

def storageNames : List (String × LogStorage) :=
  [("tracing", .journal), ("memory", .memory), ("filesystem", .files), ("noop", .discard)]

/-- Reads a kind of storage.  Case does not count; no letter beyond ASCII has one of the letters of these names as its
lower case. -/
def readStorage (value : String) : Except ConfigError LogStorage :=
  match storageNames.lookup (value.map Char.toLower) with
  | some storage => .ok storage
  | none =>
    .error (.invalidValue ("Invalid EXECUTION_LOG_STORAGE_TYPE '" ++ value ++
      "'. Must be 'tracing', 'memory', 'filesystem', or 'noop'"))

def orDefault (env? : String → Option String) (name : String) (default : α)
    (read : String → Except ConfigError α) : Except ConfigError α :=
  match env? name with
  | some value => read value
  | none => .ok default

def nonEmpty (env? : String → Option String) (name : String) : Option String :=
  (env? name).filter (· ≠ "")

def required (env? : String → Option String) (name : String) : Except ConfigError String :=
  match env? name with
  | some value => .ok value
  | none => .error (.missingVariable name)

def load (env? : String → Option String) : Except ConfigError Config := do
  let timeoutMs ← orDefault env? "RULE_EXECUTION_TIMEOUT_MS" defaultTimeoutMs readTimeout
  let maxConcurrent ← orDefault env? "RULE_MAX_CONCURRENT_EXECUTIONS" defaultMaxConcurrent readConcurrency
  let queueSize ← orDefault env? "EVENT_QUEUE_SIZE" defaultQueueSize readQueueSize
  let storage ← orDefault env? "EXECUTION_LOG_STORAGE_TYPE" defaultStorage readStorage
  let directory := nonEmpty env? "EXECUTION_LOG_DIRECTORY"
  if storage = .files ∧ directory = none then throw (.missingVariable "EXECUTION_LOG_DIRECTORY")
  let rulesPath ← required env? "RULES_PATH"
  let assetsPath ← required env? "ASSETS_PATH"
  let metricsHost := nonEmpty env? "METRICS_STATSD_HOST"
  let metricsLead := (env? "METRICS_PREFIX").getD "assetrules"
  return { timeoutMs, maxConcurrent, queueSize, storage, directory, rulesPath, assetsPath, metricsHost, metricsLead }

end Config

end RuleFlow
