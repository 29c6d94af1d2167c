import ElectronixMes.Cloud.Sync
import ElectronixMes.Db.RepoMaster

/-!
# Provisioning (crates/mes-db/src/repo_sync.rs, crates/mes-cloud/src/sync.rs)

Organisations, and plants that are enrolled below them. An enrollment mints a token, keeps its
hash and shows it once. A token finds its plant by the hash alone.
-/

namespace ElectronixMes

namespace Db

open Relational Db.Master

/-- An org is known by its code. -/
def OrgRow.constraints : List (UniqueConstraint OrgRow) :=
  [uniqueColumn "orgs_code_key" OrgRow.code]

/-- A plant is known by its code within its org. -/
def PlantRow.constraints : List (UniqueConstraint PlantRow) :=
  [uniqueColumn "plants_org_id_code_key" fun r => (r.orgId, r.code)]

section Provisioning

variable (hashToken : String → String) (db : Database)

/-- Insert an org. -/
def createOrg (id code name : String) : Except RepoError (Database × OrgRow) :=
  let row : OrgRow := ⟨id, code, name⟩
  (insertRow "orgs_pkey" OrgRow.constraints db.orgs row).map fun orgs => ({ db with orgs }, row)

/-- Enroll a plant under an org; the answer is its id and the token in plain text. -/
def enrollPlant (id ulid orgId code name : String) :
    Except RepoError (Database × String × String) := do
  let token := "plant_" ++ ulid
  let row : PlantRow := ⟨id, orgId, code, name, some (hashToken token), none⟩
  let plants ← insertRow "plants_pkey" PlantRow.constraints db.plants row
  requireRef (db.orgs.lookup orgId).isSome "plants" "plants_org_id_fkey"
  .ok ({ db with plants }, id, token)

/-- The plant and the org of an enrollment token. -/
def resolveTenantByToken (token : String) : Option (String × String) :=
  (db.plants.rows.find? fun p => p.enrollmentTokenHash = some (hashToken token)).map fun p =>
    (p.id, p.orgId)

end Provisioning

theorem enrollPlant_ok {hashToken : String → String} {db db' : Database}
    {id ulid orgId code name : String} {res : String × String}
    (h : enrollPlant hashToken db id ulid orgId code name = .ok (db', res)) :
    res = (id, "plant_" ++ ulid) ∧ ∃ plants, db.plants.insert?
        ⟨id, orgId, code, name, some (hashToken ("plant_" ++ ulid)), none⟩ = some plants ∧
      db' = { db with plants } := by
  obtain ⟨plants, hins, h⟩ := bind_eq_ok.mp h
  obtain ⟨_, -, h⟩ := bind_eq_ok.mp h
  cases h
  exact ⟨rfl, plants, (insertRow_ok hins).1, rfl⟩

theorem createOrg_ok {db db' : Database} {id code name : String} {row : OrgRow}
    (h : createOrg db id code name = .ok (db', row)) :
    db'.plants = db.plants ∧ db'.workOrders = db.workOrders := by
  obtain ⟨orgs, -, heq⟩ := map_eq_ok.mp h
  cases heq
  exact ⟨rfl, rfl⟩

end Db

namespace Cloud

open Db

/-- The body of a request for an org. -/
structure OrgInput where
  code : String
  name : String

/-- An org as a client sees it. -/
structure Org where
  id : String
  code : String
  name : String
  createdAt : Int

/-- The body of an enrollment. -/
structure PlantInput where
  code : String
  name : String

/-- The answer to an enrollment, the only place where the token is shown. -/
structure PlantEnrollment where
  id : String
  orgId : String
  code : String
  name : String
  token : String
  deriving DecidableEq

section Handlers

variable (hashToken : String → String) (adminToken : Option String) (db : Database)
  (authorization : Option String)

/-- Create an org, for the administrator. -/
def createOrg (now : Int) (id : String) (input : OrgInput) : Database × Except ApiErr Org :=
  match requireAdmin adminToken authorization with
  | .error e => (db, .error e)
  | .ok () =>
      match Db.createOrg db id input.code input.name with
      | .error e => (db, .error (repoErr e))
      | .ok (db, row) => (db, .ok ⟨row.id, row.code, row.name, now⟩)

/-- Enroll a plant under the org in the path, for the administrator. -/
def enrollPlant (id ulid orgId : String) (input : PlantInput) :
    Database × Except ApiErr PlantEnrollment :=
  match requireAdmin adminToken authorization with
  | .error e => (db, .error e)
  | .ok () =>
      match Db.enrollPlant hashToken db id ulid orgId input.code input.name with
      | .error e => (db, .error (repoErr e))
      | .ok (db, id, token) => (db, .ok ⟨id, orgId, input.code, input.name, token⟩)

end Handlers

end Cloud

end ElectronixMes
