import RuleFlow.Tasks.Basic
/-! # Tasks on a timeline

Tasks whose work takes a known time.  At one time the token is cancelled from outside first, then works come to their
ends in the order of the tasks, and then the token releases those that wait for it, in the order in which they began to
wait. -/
namespace RuleFlow

/-- How the work of a task ends after its time: well, badly, or by waiting for the token. -/
inductive Task.Plan.Outcome | ok | fail | wait
  deriving DecidableEq, Repr

structure Task.Plan where
  kind : Task.Kind
  outcome : Task.Plan.Outcome
  after : Nat
  deriving DecidableEq, Repr

namespace Task.Plan

def task (p : Plan) : Task where
  name := match p.kind with
    | .managed => "managed"
    | .cancellable => "cancellable"
  kind := p.kind
  work := if p.outcome = .wait then .token else .own

/-- When a task begins to wait for the token: a cancellable one at once. -/
def waitsFrom (p : Plan) : Nat :=
  match p.kind with
  | .managed => p.after
  | .cancellable => 0

/-- What the token does to a task, if it does anything. -/
def release? (p : Plan) (i now : Nat) : Option TaskGroup.Move :=
  match p.kind, p.outcome with
  | .cancellable, _ => some (.stop i)
  | .managed, .wait => if p.after ≤ now then some (.complete i true) else none
  | .managed, _ => none

def end? (p : Plan) (i : Nat) : Option TaskGroup.Move :=
  match p.kind, p.outcome with
  | _, .ok => some (.complete i true)
  | _, .fail => some (.complete i false)
  | .managed, .wait => some (.complete i true)
  | .cancellable, .wait => none

end Task.Plan

namespace TaskGroup

def attempt (g : TaskGroup) (m : Option Move) : TaskGroup := (m.bind g.move).getD g

def attemptAll (g : TaskGroup) (ms : List (Option Move)) : TaskGroup := ms.foldl attempt g

def advance (plans : List (Nat × Task.Plan)) (cancelAt : Option Nat) (g : TaskGroup) (now : Nat) : TaskGroup :=
  let outside := if cancelAt = some now then some Move.cancel else none
  let ended := (plans.filter fun p => p.2.after = now).map fun p => p.2.end? p.1
  let waiters := plans.mergeSort fun p q => p.2.waitsFrom ≤ q.2.waitsFrom
  let g := (g.attempt outside).attemptAll ended
  if g.cancelled then g.attemptAll (waiters.map fun p => p.2.release? p.1 now) else g

/-- The times at which something happens, each once and in their order. -/
def times (plans : List (Nat × Task.Plan)) (cancelAt : Option Nat) : List Nat :=
  ((cancelAt.toList ++ plans.map fun p => p.2.after).mergeSort (· ≤ ·)).eraseDups

/-- How long the tasks are waited for after the cancellation or, if there is none, after their beginning. -/
def patience : Nat := 60000

def runPlans (plans : List Task.Plan) (cancelAt : Option Nat) : TaskGroup :=
  let numbered := (List.range plans.length).zip plans
  let started := plans.foldl (fun g p => g.spawn p.task) {}
  let horizon := cancelAt.getD 0 + patience
  ((times numbered cancelAt).filter (· < horizon)).foldl (advance numbered cancelAt) started

end TaskGroup

end RuleFlow
