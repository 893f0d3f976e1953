import RuleFlow.Journal
/-! # Tasks

Tasks of the program under one token by which all of them are told to stop.  A task that fails cancels the token.  A
cancellable task is stopped as soon as the token is cancelled; a managed one ends by itself. -/
namespace RuleFlow

/-- Whether the token stops a task. -/
inductive Task.Kind | managed | cancellable
  deriving DecidableEq, Repr

/-- What a task waits for before it can end by itself. -/
inductive Task.Work | own | token
  deriving DecidableEq, Repr

inductive Task.Ending | finished | failed | stopped
  deriving DecidableEq, Repr

structure Task where
  name : String
  kind : Task.Kind
  work : Task.Work
  ending : Option Task.Ending := none
  deriving DecidableEq, Repr

structure TaskGroup where
  tasks : List Task := []
  cancelled : Bool := false
  journal : List Journal.Entry := []

namespace Task

def entry (level : Level) (message name : String) : Journal.Entry :=
  ⟨.tasks, level, message, [("task", .string name)]⟩

def startEntry (t : Task) : Journal.Entry :=
  match t.kind with
  | .managed => entry .info "Starting task" t.name
  | .cancellable => entry .info "Starting cancellable task" t.name

def endEntry (t : Task) : Ending → Journal.Entry
  | .finished => entry .info "Task finished" t.name
  | .failed => entry .error "Task failed, shutting down" t.name
  | .stopped => entry .info "Task stopped by shutdown" t.name

end Task

namespace TaskGroup

/-- What may happen: the work of a task comes to its end, well or not; the token stops a task; the token is cancelled
from outside. -/
inductive Move
  | complete (task : Nat) (ok : Bool)
  | stop (task : Nat)
  | cancel
  deriving DecidableEq, Repr

def spawn (g : TaskGroup) (t : Task) : TaskGroup :=
  { g with tasks := g.tasks ++ [t], journal := g.journal ++ [t.startEntry] }

def finish (g : TaskGroup) (i : Nat) (t : Task) (ending : Task.Ending) : TaskGroup where
  tasks := g.tasks.set i { t with ending := some ending }
  cancelled := g.cancelled || ending = .failed
  journal := g.journal ++ [t.endEntry ending]

def move (g : TaskGroup) : Move → Option TaskGroup
  | .complete i ok =>
    match g.tasks[i]? with
    | some t =>
      if t.ending = none ∧ (t.work = .own ∨ g.cancelled = true) then
        some (g.finish i t (if ok then .finished else .failed))
      else none
    | none => none
  | .stop i =>
    match g.tasks[i]? with
    | some t =>
      if t.ending = none ∧ t.kind = .cancellable ∧ g.cancelled = true then some (g.finish i t .stopped) else none
    | none => none
  | .cancel => some { g with cancelled := true }

def unfinished (g : TaskGroup) : Nat := g.tasks.countP fun t => t.ending.isNone

end TaskGroup

end RuleFlow
