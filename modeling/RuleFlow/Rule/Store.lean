import RuleFlow.Rule.Basic
import RuleFlow.Storage.Keyed
/-! # The rule store

Rules in the order in which they were first stored. -/
namespace RuleFlow

structure RuleStore where
  rules : List Rule := []

namespace RuleStore

def key (r : Rule) : String × String := (r.id, r.tenantId)

/-- Stores a rule in the place of one with the same id and tenant, or at the end. -/
def upsert (s : RuleStore) (r : Rule) : RuleStore := ⟨Keyed.put key r s.rules⟩

def findActive (s : RuleStore) (rule tenant : String) : Option Rule :=
  s.rules.find? fun r => r.id = rule && r.tenantId = tenant && r.isActive

def activeOf (s : RuleStore) (tenant : String) : List Rule := s.rules.filter fun r => r.tenantId = tenant && r.isActive

end RuleStore

end RuleFlow
