/-! # Metrics

Numbers that the program publishes about its work: counters, gauges and timings, with tags. -/
namespace RuleFlow

inductive Metric.Kind | counter | gauge | timing
  deriving DecidableEq, Repr

structure Metric where
  kind : Metric.Kind
  key : String
  value : UInt64
  tags : List (String × String)
  deriving DecidableEq

namespace Metric

def increment (key : String) (tags : List (String × String)) : Metric := ⟨.counter, key, 1, tags⟩

def count (key : String) (n : Nat) : Metric := ⟨.counter, key, n.toUInt64, []⟩

def gauge (key : String) (n : Nat) : Metric := ⟨.gauge, key, n.toUInt64, []⟩

def timing (key : String) (ms : UInt64) (tags : List (String × String)) : Metric := ⟨.timing, key, ms, tags⟩

end Metric

end RuleFlow
