import Mathlib.Data.Rat.Defs
import Rankuno.Foundation.Machine
import Rankuno.Foundation.Table

/-!
# Organization settings on disk

`DiskOrgConfigStore` of `core/state_store.py`. A store keeps all configurations in memory
and writes all of them to one file after each change; a new store reads the file, and takes
one it cannot read for an empty one. Each call holds the store's lock, so it is a step. A
read or a write that fails is part of the step's label. What calls that returned have left
is kept beside the file.

A configuration is written as JSON and validated when it is read, which gives it back.
-/

namespace Rankuno.OrgConfigs

structure GscAccountCredential where
  refreshToken : String
  clientId : Option String := none
  clientSecret : Option String := none
  deriving DecidableEq

structure OrgConfig where
  orgId : String
  displayName : String
  allowedFacets : List String := []
  maxConcurrentCrawls : Nat := 3
  llmCreditLimitUsd : ℚ := 100
  isActive : Bool := true
  gscAccounts : Dict String GscAccountCredential := .empty
  deriving DecidableEq

/-- `_configs`. -/
abbrev Configs := Dict String OrgConfig

/-- The configuration a store adds when there is none for `default`. -/
def defaultOrg : OrgConfig where
  orgId := "default"
  displayName := "Default Organization"
  allowedFacets := ["seo.page_classifier", "seo.health_engine", "seo.theme_classification"]
  maxConcurrentCrawls := 5
  llmCreditLimitUsd := 5

/-- How a call raises. -/
inductive OrgError where
  | valueError (message : String)
  | keyError (message : String)
  | osError
  deriving DecidableEq

namespace OrgError

def alreadyExists (orgId : String) : OrgError :=
  .valueError ("Organization '" ++ orgId ++ "' already exists")

def notFound (orgId : String) : OrgError :=
  .keyError ("Organization '" ++ orgId ++ "' not found")

end OrgError

inductive OrgCall where
  | create (orgConfig : OrgConfig)
  | update (orgConfig : OrgConfig)
  | delete (orgId : String)
  deriving DecidableEq

namespace OrgCall

def org : OrgCall → String
  | create orgConfig | update orgConfig => orgConfig.orgId
  | delete orgId => orgId

/-- What the call leaves of the configuration of its organization. -/
def leaves : OrgCall → Option OrgConfig
  | create orgConfig | update orgConfig => some orgConfig
  | delete _ => none

end OrgCall

namespace Configs

/-- `_configs[org_id] = …`. -/
def assign (configs : Configs) (orgConfig : OrgConfig) : Configs :=
  configs.alter orgConfig.orgId orgConfig fun _ => orgConfig

/-- `del _configs[org_id]`. -/
def remove (configs : Configs) (orgId : String) : Configs :=
  configs.delete fun row => row.1 = orgId

/-- `get`. -/
def read (configs : Configs) (orgId : String) : Except OrgError OrgConfig :=
  match configs.get orgId with
  | some orgConfig => .ok orgConfig
  | none => .error (.notFound orgId)

/-- What `create`, `update` and `delete` do to the memory, before they save it. -/
def apply (configs : Configs) : OrgCall → Except OrgError Configs
  | .create orgConfig =>
    if (configs.get orgConfig.orgId).isSome then .error (.alreadyExists orgConfig.orgId)
    else .ok (configs.assign orgConfig)
  | .update orgConfig =>
    if (configs.get orgConfig.orgId).isSome then .ok (configs.assign orgConfig)
    else .error (.notFound orgConfig.orgId)
  | .delete orgId =>
    if (configs.get orgId).isSome then .ok (configs.remove orgId)
    else .error (.notFound orgId)

end Configs

/-- The file, the memory of each store that was built over it, and what the calls that
returned have left. -/
structure OrgDirectory where
  file : Option Configs
  stores : List Configs := []
  settled : Configs := .empty
  deriving DecidableEq

inductive OrgEvent where
  | construct (readFails writeFails : Bool)
  | call (store : Nat) (call : OrgCall) (writeFails : Bool)
  deriving DecidableEq

namespace OrgDirectory

variable (s : OrgDirectory)

def saved (orgId : String) : Option OrgConfig := s.file.bind fun configs => configs.get orgId

/-- What `_load_or_init` takes the file to hold. -/
def loaded (readFails : Bool) : Configs :=
  match s.file with
  | none => .empty
  | some configs => if readFails then .empty else configs

/-- `__init__`, which raises when its `_save` does. -/
def construct (readFails writeFails : Bool) : OrgDirectory :=
  let configs := s.loaded readFails
  if (configs.get "default").isSome then { s with stores := s.stores ++ [configs] }
  else if writeFails then s
  else
    let configs := configs.assign defaultOrg
    { s with file := some configs, stores := s.stores ++ [configs] }

/-- What a returned call settles. -/
def settle (call : OrgCall) : Configs :=
  match call.leaves with
  | some orgConfig => s.settled.assign orgConfig
  | none => s.settled.remove call.org

/-- A call on a store with this memory: how it ends, and what it leaves. -/
def perform (store : Nat) (configs : Configs) (call : OrgCall) (writeFails : Bool) :
    Except OrgError Unit × OrgDirectory :=
  match configs.apply call with
  | .error e => (.error e, s)
  | .ok configs =>
    if writeFails then (.error .osError, { s with stores := s.stores.set store configs })
    else
      (.ok (), ⟨some configs, s.stores.set store configs, s.settle call⟩)

/-- Every order of constructions and calls. -/
def machine : Machine OrgDirectory OrgEvent where
  step s
    | .construct readFails writeFails => some (s.construct readFails writeFails)
    | .call store call writeFails =>
      s.stores[store]?.map fun configs => (s.perform store configs call writeFails).2

end OrgDirectory

end Rankuno.OrgConfigs
