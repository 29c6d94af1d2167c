import ElectronixMes.Edge.Auth

/-!
# Master data handlers (crates/mes-edge/src/master.rs)

Every write stands behind the extractor of a master writer, runs one statement and records an
audit entry. Reads stand behind the extractor of an authenticated caller. The handlers of
programs, whose table is not among the master data here, and the lists, whose order is the
server's collation, are not modelled.
-/

namespace ElectronixMes.Edge.Master

open Db (ApiErr RepoError repoErr)
open Db.Master (MasterData SiteRow AreaRow WorkCenterRow PartRow UserRow)

/-- The body of a write to a site; without a time zone it gets the default. -/
structure SiteInput where
  code : String
  name : String
  timezone : Option String

/-- The body of a write to an area. The site is read at the creation alone. -/
structure AreaInput where
  siteId : String
  code : String
  name : String

/-- The body of a write to a work center. The area is read at the creation alone. -/
structure WorkCenterInput where
  areaId : String
  code : String
  name : String
  externalRef : Option String

/-- The body of a write to a part; without a unit it is counted in pieces. -/
structure PartInput where
  code : String
  name : String
  uom : Option String

/-- The body of a new user, with the secrets in plain text. -/
structure UserInput where
  username : String
  displayName : String
  roleCode : String
  password : Option String
  pin : Option String
  badgeId : Option String

/-- A user as a client sees it, without secrets. -/
structure User where
  id : String
  username : String
  displayName : String
  roleCode : String
  active : Bool
  createdAt : Int
  updatedAt : Int
  deriving DecidableEq

/-- What may be seen of a row. -/
def User.ofRow (r : UserRow) : User :=
  ⟨r.id, r.username, r.displayName, r.roleCode, r.active, r.createdAt, r.updatedAt⟩

/-- The body of a successful answer. -/
inductive Body where
  | site (row : SiteRow)
  | area (row : AreaRow)
  | workCenter (row : WorkCenterRow)
  | part (row : PartRow)
  | user (row : User)
  | noContent
  deriving DecidableEq

/-- A successful answer to a write: its status, its body and the entity it is about. -/
structure Written where
  status : Nat
  body : Body
  entityId : String
  deriving DecidableEq

/-- A write to master data; the string is the id in the path. -/
inductive MasterWrite where
  | createSite (input : SiteInput)
  | updateSite (id : String) (input : SiteInput)
  | deleteSite (id : String)
  | createArea (input : AreaInput)
  | updateArea (id : String) (input : AreaInput)
  | deleteArea (id : String)
  | createWorkCenter (input : WorkCenterInput)
  | updateWorkCenter (id : String) (input : WorkCenterInput)
  | deleteWorkCenter (id : String)
  | createPart (input : PartInput)
  | updatePart (id : String) (input : PartInput)
  | deletePart (id : String)
  | createUser (input : UserInput)

/-- The action and the entity that the audit entry of a write names. -/
def MasterWrite.subject : MasterWrite → String × String
  | createSite _ => ("create", "site")
  | updateSite _ _ => ("update", "site")
  | deleteSite _ => ("delete", "site")
  | createArea _ => ("create", "area")
  | updateArea _ _ => ("update", "area")
  | deleteArea _ => ("delete", "area")
  | createWorkCenter _ => ("create", "work_center")
  | updateWorkCenter _ _ => ("update", "work_center")
  | deleteWorkCenter _ => ("delete", "work_center")
  | createPart _ => ("create", "part")
  | updatePart _ _ => ("update", "part")
  | deletePart _ => ("delete", "part")
  | createUser _ => ("create", "user")

/-- The answer to a row that was created. -/
def created {ρ : Type} (result : Except RepoError (MasterData × ρ)) (body : ρ → Body)
    (id : ρ → String) : Except ApiErr (MasterData × Written) :=
  (result.mapError repoErr).map fun (m, row) => (m, ⟨201, body row, id row⟩)

/-- The answer to a row that was updated. -/
def updated {ρ : Type} (result : Except RepoError (MasterData × ρ)) (body : ρ → Body)
    (id : String) : Except ApiErr (MasterData × Written) :=
  (result.mapError repoErr).map fun (m, row) => (m, ⟨200, body row, id⟩)

/-- The answer to a row that was deleted. -/
def deleted (result : Except RepoError MasterData) (id : String) :
    Except ApiErr (MasterData × Written) :=
  (result.mapError repoErr).map fun m => (m, ⟨204, .noContent, id⟩)

section Handlers

variable (cfg : AuthConfig) (m : MasterData) (call : Call)

/-- The hash of a secret that is given and not empty. -/
def hashGiven (salt : String) (plain : Option String) : Except ApiErr (Option String) :=
  match plain.filter (· ≠ "") with
  | none => .ok none
  | some p =>
      match cfg.hash salt p with
      | none => .error ⟨500, "internal", "hash error"⟩
      | some phc => .ok (some phc)

/-- What the handler of a write runs behind its extractor. -/
def MasterWrite.perform : MasterWrite → Except ApiErr (MasterData × Written)
  | createSite input =>
      created (Db.Master.createSite m call.now call.id input.code input.name
        (input.timezone.getD "Asia/Kolkata")) .site SiteRow.id
  | updateSite id input =>
      updated (Db.Master.updateSite m call.now id input.code input.name
        (input.timezone.getD "Asia/Kolkata")) .site id
  | deleteSite id => deleted (Db.Master.deleteSite m id) id
  | createArea input =>
      created (Db.Master.createArea m call.now call.id input.siteId input.code input.name) .area
        AreaRow.id
  | updateArea id input =>
      updated (Db.Master.updateArea m call.now id input.code input.name) .area id
  | deleteArea id => deleted (Db.Master.deleteArea m id) id
  | createWorkCenter input =>
      created (Db.Master.createWorkCenter m call.now call.id input.areaId input.code input.name
        input.externalRef) .workCenter WorkCenterRow.id
  | updateWorkCenter id input =>
      updated (Db.Master.updateWorkCenter m call.now id input.code input.name input.externalRef)
        .workCenter id
  | deleteWorkCenter id => deleted (Db.Master.deleteWorkCenter m id) id
  | createPart input =>
      created (Db.Master.createPart m call.now call.id input.code input.name
        (input.uom.getD "ea")) .part PartRow.id
  | updatePart id input =>
      updated (Db.Master.updatePart m call.now id input.code input.name (input.uom.getD "ea")) .part
        id
  | deletePart id => deleted (Db.Master.deletePart m id) id
  | createUser input => do
      let passwordHash ← hashGiven cfg call.passwordSalt input.password
      let pinHash ← hashGiven cfg call.pinSalt input.pin
      created (Db.Master.createUser m call.now call.id input.username input.displayName
        input.roleCode passwordHash pinHash (input.badgeId.filter (· ≠ "")))
          (fun r => .user (User.ofRow r)) UserRow.id

/-- The handler of a write: the extractor, the statement, the audit entry. -/
def handleWrite (w : MasterWrite) : MasterData × Except ApiErr Written :=
  match masterWriter cfg call.now call.authorization with
  | .error e => (m, .error e)
  | .ok actor =>
      match w.perform cfg m call with
      | .error e => (m, .error e)
      | .ok (m', written) =>
          (audit m' call (some actor.userId) w.subject.1 w.subject.2 (some written.entityId) none,
            .ok written)

def createSite (input : SiteInput) := handleWrite cfg m call (.createSite input)
def updateSite (id : String) (input : SiteInput) := handleWrite cfg m call (.updateSite id input)
def deleteSite (id : String) := handleWrite cfg m call (.deleteSite id)
def createArea (input : AreaInput) := handleWrite cfg m call (.createArea input)
def updateArea (id : String) (input : AreaInput) := handleWrite cfg m call (.updateArea id input)
def deleteArea (id : String) := handleWrite cfg m call (.deleteArea id)
def createWorkCenter (input : WorkCenterInput) := handleWrite cfg m call (.createWorkCenter input)
def updateWorkCenter (id : String) (input : WorkCenterInput) :=
  handleWrite cfg m call (.updateWorkCenter id input)
def deleteWorkCenter (id : String) := handleWrite cfg m call (.deleteWorkCenter id)
def createPart (input : PartInput) := handleWrite cfg m call (.createPart input)
def updatePart (id : String) (input : PartInput) := handleWrite cfg m call (.updatePart id input)
def deletePart (id : String) := handleWrite cfg m call (.deletePart id)
def createUser (input : UserInput) := handleWrite cfg m call (.createUser input)

/-- The handler of a read of one row. -/
def handleRead {ρ : Type} (read : String → Except RepoError ρ) (id : String) : Except ApiErr ρ :=
  match authUser cfg call.now call.authorization with
  | .error e => .error e
  | .ok _ => (read id).mapError repoErr

def getSite (id : String) := handleRead cfg call (Db.Master.getSite m) id
def getArea (id : String) := handleRead cfg call (Db.Master.getArea m) id
def getWorkCenter (id : String) := handleRead cfg call (Db.Master.getWorkCenter m) id
def getPart (id : String) := handleRead cfg call (Db.Master.getPart m) id

end Handlers

end ElectronixMes.Edge.Master
