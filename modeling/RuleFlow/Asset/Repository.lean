import RuleFlow.Asset.Snapshot
import RuleFlow.Storage.Error
import RuleFlow.Storage.Keyed
/-! # The asset repository

Assets by tenant and id.  Every attempt to write is counted, also one that is rejected because there is no such
asset. -/
namespace RuleFlow

structure AssetRepository where
  assets : List Asset := []
  writes : Nat := 0

namespace AssetRepository

def key (a : Asset) : String × String := (a.tenantId, a.id)

def get? (s : AssetRepository) (tenant asset : String) : Option Asset := Keyed.get? key s.assets (tenant, asset)

def insert (s : AssetRepository) (a : Asset) : AssetRepository := { s with assets := Keyed.put key a s.assets }

/-- A repository of some assets; of two with the same tenant and id the later counts. -/
def ofList (assets : List Asset) : AssetRepository := assets.foldl insert {}

def modify (s : AssetRepository) (tenant asset : String) (f : Asset → Asset) :
    Except StorageError Unit × AssetRepository :=
  let s := { s with writes := s.writes + 1 }
  match s.get? tenant asset with
  | some a => (.ok (), s.insert (f a))
  | none =>
    (.error (.writeRejected ("asset " ++ asset ++ " does not exist for tenant " ++ tenant)), s)

def update (s : AssetRepository) (tenant asset : String) (change : AssetUpdate) :
    Except StorageError Unit × AssetRepository := s.modify tenant asset change.apply

def replaceComputed (s : AssetRepository) (tenant asset : String) (values : Json.Object) :
    Except StorageError Unit × AssetRepository := s.modify tenant asset fun a => { a with computed := values }

end AssetRepository

end RuleFlow
