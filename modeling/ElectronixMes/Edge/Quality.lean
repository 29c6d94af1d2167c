import ElectronixMes.Db.RepoQms
import ElectronixMes.Core.Roles

/-!
# Quality and material requests on the edge

The handlers of `/v1/qms` and `/v1/trace` that write. Recording a result and issuing
material are open to every caller; dispositions, and placing and releasing holds, are
for the quality roles.
-/

namespace ElectronixMes.Edge

open Db ElectronixMes.Core Serde

/-- The check of a disposition. -/
def requireQuality (auth : AuthUser) : Except ApiErr Unit :=
  if canManageQuality auth.role then .ok ()
  else .error ⟨403, "forbidden", "quality role required"⟩

/-- Record an inspection result under the caller; a failed one also answers its nonconformance. -/
def recordResult (db : Database) (now : Int) (ids : ℕ → String) (auth : AuthUser)
    (input : ResultInput) : Database × Except ApiErr (InspectionResultRow × Option NcrRow) :=
  match Db.recordResult db now ids input auth.userId with
  | .error e => (db, .error (repoErr e))
  | .ok (db, result, ncr) => (db, .ok (result, ncr))

/-- Decide on a nonconformance. The role is checked before the disposition is read. -/
def dispositionNcr (db : Database) (now : Int) (auth : AuthUser) (id disposition : String)
    (reason : Option String) : Database × Except ApiErr NcrRow :=
  match requireQuality auth with
  | .error e => (db, .error e)
  | .ok () =>
      match Disposition.parse disposition with
      | none =>
          (db, .error ⟨400, "bad_disposition", "disposition must be rework|scrap|use_as_is|return"⟩)
      | some d =>
          match Db.dispositionNcr db now id d reason auth.userId with
          | .error e => (db, .error (repoErr e))
          | .ok (db, ncr) => (db, .ok ncr)

/-- What is to be held, and why. -/
structure HoldInput where
  entityType : String
  entityId : String
  reason : Option String

/-- Place a hold; unlike a disposition it has its own words for a role that may not. -/
def placeHold (db : Database) (now : Int) (id : String) (auth : AuthUser) (input : HoldInput) :
    Database × Except ApiErr String :=
  if canManageQuality auth.role then
    match Db.placeHold db now id input.entityType input.entityId input.reason auth.userId with
    | .error e => (db, .error (repoErr e))
    | .ok (db, id) => (db, .ok id)
  else (db, .error ⟨403, "forbidden", "role may not place holds"⟩)

/-- Release a hold. -/
def releaseHold (db : Database) (now : Int) (auth : AuthUser) (id : String) :
    Database × Except ApiErr Unit :=
  if canManageQuality auth.role then
    match Db.releaseHold db now id auth.userId with
    | .error e => (db, .error (repoErr e))
    | .ok db => (db, .ok ())
  else (db, .error ⟨403, "forbidden", "role may not release holds"⟩)

/-- A quantity of a lot or a serial, and the operation it goes to. -/
structure IssueMaterialInput where
  lotId : Option String
  serialId : Option String
  qty : Decimal
  woOperationId : Option String

/-- Issue material under the caller, whatever the role. -/
def issueMaterial (db : Database) (now : Int) (id : String) (auth : AuthUser)
    (input : IssueMaterialInput) : Database × Except ApiErr String :=
  match Db.issueMaterial db now id input.lotId input.serialId input.qty input.woOperationId
      auth.userId with
  | .error e => (db, .error (repoErr e))
  | .ok (db, txnId) => (db, .ok txnId)

end ElectronixMes.Edge
