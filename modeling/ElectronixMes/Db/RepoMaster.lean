import ElectronixMes.Db.Repo
import ElectronixMes.Relational.Unique

/-!
# Master data, users and the audit log (crates/mes-db/src/repo.rs)

Sites, areas and work centers hang below each other and go with their parent; parts and
users stand alone. What the rest of the database holds against a delete is the set of the
work centers that a routing operation or an order operation names, the references of their
maintenance, and the set of the parts that an order names. No statement changes or deletes a
user or an audit entry.
-/

namespace ElectronixMes.Db.Master

open Relational Keyed Serde

/-- A row of `sites`. -/
structure SiteRow where
  id : String
  code : String
  name : String
  timezone : String
  createdAt : Int
  updatedAt : Int
  deriving DecidableEq

/-- A row of `areas`. -/
structure AreaRow where
  id : String
  siteId : String
  code : String
  name : String
  createdAt : Int
  updatedAt : Int
  deriving DecidableEq

/-- A row of `work_centers`. -/
structure WorkCenterRow where
  id : String
  areaId : String
  code : String
  name : String
  externalRef : Option String
  createdAt : Int
  updatedAt : Int
  deriving DecidableEq

/-- A row of `parts`. -/
structure PartRow where
  id : String
  code : String
  name : String
  uom : String
  createdAt : Int
  updatedAt : Int
  deriving DecidableEq

/-- A row of `users`, with the hashes of its secrets. -/
structure UserRow where
  id : String
  username : String
  displayName : String
  roleCode : String
  passwordHash : Option String
  pinHash : Option String
  badgeId : Option String
  active : Bool
  createdAt : Int
  updatedAt : Int
  deriving DecidableEq

/-- A row of `audit_log`. -/
structure AuditRow where
  id : String
  actorId : Option String
  action : String
  entity : String
  entityId : Option String
  detail : Option Json
  createdAt : Int

instance : Keyed SiteRow String := ⟨SiteRow.id⟩
instance : Keyed AreaRow String := ⟨AreaRow.id⟩
instance : Keyed WorkCenterRow String := ⟨WorkCenterRow.id⟩
instance : Keyed PartRow String := ⟨PartRow.id⟩
instance : Keyed UserRow String := ⟨UserRow.id⟩
instance : Keyed AuditRow String := ⟨AuditRow.id⟩

@[simp] theorem key_site (r : SiteRow) : key r = r.id := rfl
@[simp] theorem key_area (r : AreaRow) : key r = r.id := rfl
@[simp] theorem key_workCenter (r : WorkCenterRow) : key r = r.id := rfl
@[simp] theorem key_part (r : PartRow) : key r = r.id := rfl
@[simp] theorem key_user (r : UserRow) : key r = r.id := rfl
@[simp] theorem key_audit (r : AuditRow) : key r = r.id := rfl

/-- The constraint that a column which is never `NULL` is unique. -/
def uniqueColumn {ρ β : Type} [DecidableEq β] (name : String) (column : ρ → β) :
    UniqueConstraint ρ where
  name := name
  clash r s := column r = column s
  symm r s := by simp only [eq_comm]

/-- The constraint that a column is unique where it is not `NULL`. -/
def uniqueNullable {ρ β : Type} [DecidableEq β] (name : String) (column : ρ → Option β) :
    UniqueConstraint ρ where
  name := name
  clash r s := (column r).isSome && column r = column s
  symm r s := by
    by_cases h : column r = column s
    · simp [h]
    · simp [h, Ne.symm h]

/-- A site is known by its code. -/
def SiteRow.constraints : List (UniqueConstraint SiteRow) :=
  [uniqueColumn "sites_code_key" code]

/-- An area is known by its code within its site. -/
def AreaRow.constraints : List (UniqueConstraint AreaRow) :=
  [uniqueColumn "areas_site_id_code_key" fun r => (r.siteId, r.code)]

/-- A work center is known by its code within its area. -/
def WorkCenterRow.constraints : List (UniqueConstraint WorkCenterRow) :=
  [uniqueColumn "work_centers_area_id_code_key" fun r => (r.areaId, r.code)]

/-- A part is known by its code. -/
def PartRow.constraints : List (UniqueConstraint PartRow) :=
  [uniqueColumn "parts_code_key" code]

/-- No two users share a name, nor a badge. -/
def UserRow.constraints : List (UniqueConstraint UserRow) :=
  [uniqueColumn "users_username_key" username, uniqueNullable "users_badge_id_key" badgeId]

/-- The roles that the migrations seed. -/
def seededRoles : Finset String :=
  {"Admin", "Planner", "Supervisor", "Operator", "Quality", "Maintenance"}

/-- The master data of one edge. -/
structure MasterData where
  roles : Finset String := seededRoles
  users : Table UserRow := ∅
  auditLog : Table AuditRow := ∅
  sites : Table SiteRow := ∅
  areas : Table AreaRow := ∅
  workCenters : Table WorkCenterRow := ∅
  parts : Table PartRow := ∅
  /-- The work centers that a routing operation names. -/
  routedWorkCenters : Finset String := ∅
  /-- The work centers that an order operation names. -/
  operationWorkCenters : Finset String := ∅
  /-- The references of the maintenance of the work centers. -/
  maintenance : MaintenanceRefs := {}
  /-- The parts that an order names. -/
  orderedParts : Finset String := ∅

/-! ## Statements on one table -/

section Statements

variable {ρ : Type} [Keyed ρ String]

/-- `INSERT`: the primary key is checked first, then the unique constraints. -/
def insertRow (pkey : String) (constraints : List (UniqueConstraint ρ)) (t : Table ρ) (r : ρ) :
    Except RepoError (Table ρ) :=
  match t.insert? r with
  | none => .error (mapSqlx (.uniqueViolation pkey))
  | some t' =>
      match firstBroken constraints t.rows r with
      | some name => .error (mapSqlx (.uniqueViolation name))
      | none => .ok t'

/-- `UPDATE ... WHERE id`, for a change that leaves the key alone. -/
def updateRow (constraints : List (UniqueConstraint ρ)) (t : Table ρ) (id : String)
    (set : ρ → ρ) : Except RepoError (Table ρ × ρ) :=
  match t.lookup id with
  | none => .error .notFound
  | some r =>
      match firstBroken constraints (t.rows.filter fun s => key s ≠ key (set r)) (set r) with
      | some name => .error (mapSqlx (.uniqueViolation name))
      | none => .ok (t.put (set r), set r)

/-- `SELECT ... WHERE id`. -/
def getRow (t : Table ρ) (id : String) : Except RepoError ρ :=
  match t.lookup id with
  | none => .error .notFound
  | some r => .ok r

end Statements

/-- A reference that must be present. -/
def requireRef (present : Bool) (table constraint : String) : Except RepoError Unit :=
  if present then .ok () else .error (mapSqlx (.foreignKeyViolation table constraint))

section Operations

variable (m : MasterData) (now : Int)

/-! ## Sites -/

/-- Insert a site. -/
def createSite (id code name timezone : String) : Except RepoError (MasterData × SiteRow) :=
  let row : SiteRow := ⟨id, code, name, timezone, now, now⟩
  (insertRow "sites_pkey" SiteRow.constraints m.sites row).map fun sites => ({ m with sites }, row)

def getSite (id : String) : Except RepoError SiteRow := getRow m.sites id

/-- Change all that a site has. -/
def updateSite (id code name timezone : String) : Except RepoError (MasterData × SiteRow) :=
  (updateRow SiteRow.constraints m.sites id fun r =>
    { r with code, name, timezone, updatedAt := now }).map
      fun (sites, row) => ({ m with sites }, row)

/-! ## Areas -/

/-- Insert an area below a site that is there. -/
def createArea (id siteId code name : String) : Except RepoError (MasterData × AreaRow) := do
  let row : AreaRow := ⟨id, siteId, code, name, now, now⟩
  let areas ← insertRow "areas_pkey" AreaRow.constraints m.areas row
  requireRef (m.sites.lookup siteId).isSome "areas" "areas_site_id_fkey"
  .ok ({ m with areas }, row)

def getArea (id : String) : Except RepoError AreaRow := getRow m.areas id

/-- An area stays in its site. -/
def updateArea (id code name : String) : Except RepoError (MasterData × AreaRow) :=
  (updateRow AreaRow.constraints m.areas id fun r => { r with code, name, updatedAt := now }).map
    fun (areas, row) => ({ m with areas }, row)

/-! ## Work centers -/

/-- Insert a work center below an area that is there. -/
def createWorkCenter (id areaId code name : String) (externalRef : Option String) :
    Except RepoError (MasterData × WorkCenterRow) := do
  let row : WorkCenterRow := ⟨id, areaId, code, name, externalRef, now, now⟩
  let workCenters ←
    insertRow "work_centers_pkey" WorkCenterRow.constraints m.workCenters row
  requireRef (m.areas.lookup areaId).isSome "work_centers" "work_centers_area_id_fkey"
  .ok ({ m with workCenters }, row)

def getWorkCenter (id : String) : Except RepoError WorkCenterRow := getRow m.workCenters id

/-- A work center stays in its area. -/
def updateWorkCenter (id code name : String) (externalRef : Option String) :
    Except RepoError (MasterData × WorkCenterRow) :=
  (updateRow WorkCenterRow.constraints m.workCenters id fun r =>
    { r with code, name, externalRef, updatedAt := now }).map
      fun (workCenters, row) => ({ m with workCenters }, row)

/-! ## Deletes of the hierarchy -/

/-- The work center of the id is there and goes. -/
def goes (gone : WorkCenterRow → Bool) (id : String) : Bool :=
  m.workCenters.rows.any fun r => r.id = id && gone r

/-- Delete the work centers of a predicate, none of which may be named by an operation, with
their maintenance, which nothing that stays may name. -/
def dropWorkCenters (gone : WorkCenterRow → Bool) : Except RepoError MasterData :=
  if ∃ r ∈ m.workCenters.rows, gone r = true ∧ r.id ∈ m.routedWorkCenters then
    .error (stillReferenced "work_centers" "routing_ops_work_center_id_fkey" "routing_ops")
  else if ∃ r ∈ m.workCenters.rows, gone r = true ∧ r.id ∈ m.operationWorkCenters then
    .error (stillReferenced "work_centers" "wo_operations_work_center_id_fkey" "wo_operations")
  else
    match m.maintenance.refusal (goes m gone) with
    | some e => .error e
    | none =>
        .ok { m with
          workCenters := m.workCenters.delete gone
          maintenance := m.maintenance.drop (goes m gone) }

/-- The area stands in the site. -/
def areaIn (siteId areaId : String) : Bool :=
  m.areas.rows.any fun a => a.id = areaId && a.siteId = siteId

/-- Delete one work center. -/
def deleteWorkCenter (id : String) : Except RepoError MasterData :=
  if (m.workCenters.lookup id).isSome then dropWorkCenters m fun r => r.id = id
  else .error .notFound

/-- Delete an area, and the work centers in it before. -/
def deleteArea (id : String) : Except RepoError MasterData :=
  if (m.areas.lookup id).isSome then
    (dropWorkCenters m fun r => r.areaId = id).map fun m' =>
      { m' with areas := m'.areas.delete fun a => a.id = id }
  else .error .notFound

/-- Delete a site with its areas, and the work centers in these before. -/
def deleteSite (id : String) : Except RepoError MasterData :=
  if (m.sites.lookup id).isSome then
    (dropWorkCenters m fun r => areaIn m id r.areaId).map fun m' =>
      { m' with
        areas := m'.areas.delete fun a => a.siteId = id
        sites := m'.sites.delete fun s => s.id = id }
  else .error .notFound

/-! ## Parts -/

/-- Insert a part. -/
def createPart (id code name uom : String) : Except RepoError (MasterData × PartRow) :=
  let row : PartRow := ⟨id, code, name, uom, now, now⟩
  (insertRow "parts_pkey" PartRow.constraints m.parts row).map fun parts => ({ m with parts }, row)

def getPart (id : String) : Except RepoError PartRow := getRow m.parts id

/-- Change all that a part has. -/
def updatePart (id code name uom : String) : Except RepoError (MasterData × PartRow) :=
  (updateRow PartRow.constraints m.parts id fun r =>
    { r with code, name, uom, updatedAt := now }).map
      fun (parts, row) => ({ m with parts }, row)

/-- An order keeps its part. -/
def deletePart (id : String) : Except RepoError MasterData :=
  if (m.parts.lookup id).isSome then
    if id ∈ m.orderedParts then
      .error (stillReferenced "parts" "work_orders_part_id_fkey" "work_orders")
    else .ok { m with parts := m.parts.delete fun r => r.id = id }
  else .error .notFound

/-! ## Users -/

/-- Insert an active user with a role that is there. -/
def createUser (id username displayName roleCode : String)
    (passwordHash pinHash badgeId : Option String) : Except RepoError (MasterData × UserRow) := do
  let row : UserRow :=
    ⟨id, username, displayName, roleCode, passwordHash, pinHash, badgeId, true, now, now⟩
  let users ← insertRow "users_pkey" UserRow.constraints m.users row
  requireRef (roleCode ∈ m.roles) "users" "users_role_code_fkey"
  .ok ({ m with users }, row)

/-- The user that a login names. -/
def findAuthByUsername (username : String) : Except RepoError UserRow :=
  match m.users.rows.find? fun u => u.username = username with
  | none => .error .notFound
  | some u => .ok u

/-- The user that a badge names. -/
def findAuthByBadge (badgeId : String) : Except RepoError UserRow :=
  match m.users.rows.find? fun u => u.badgeId = some badgeId with
  | none => .error .notFound
  | some u => .ok u

/-! ## The audit log -/

/-- Append an entry; its actor must be a user. -/
def insertAudit (id : String) (actorId : Option String) (action entity : String)
    (entityId : Option String) (detail : Option Json) : Except RepoError MasterData :=
  match m.auditLog.insert? ⟨id, actorId, action, entity, entityId, detail, now⟩ with
  | none => .error (mapSqlx (.uniqueViolation "audit_log_pkey"))
  | some auditLog =>
      match optionalRef (fun id => (m.users.lookup id).isSome) "audit_log"
          "audit_log_actor_id_fkey" actorId with
      | .error e => .error (mapSqlx e)
      | .ok () => .ok { m with auditLog }

end Operations

/-! ## What a statement does -/

section Specs

variable {ρ : Type} [Keyed ρ String] {pkey : String} {constraints : List (UniqueConstraint ρ)}
  {t t' : Table ρ} {r r' : ρ} {id : String} {set : ρ → ρ}

theorem insertRow_ok (h : insertRow pkey constraints t r = .ok t') :
    t.insert? r = some t' ∧ firstBroken constraints t.rows r = none := by
  unfold insertRow at h
  split at h
  · cases h
  · rename_i hins
    split at h
    · cases h
    · rename_i hfree
      cases h
      exact ⟨hins, hfree⟩

theorem updateRow_ok (h : updateRow constraints t id set = .ok (t', r')) :
    ∃ r ∈ t, key r = id ∧ r' = set r ∧ t' = t.put r' ∧
      firstBroken constraints (t.rows.filter fun s => key s ≠ key r') r' = none := by
  unfold updateRow at h
  split at h
  · cases h
  · rename_i r hlookup
    obtain ⟨hr, hkey⟩ := Table.lookup_eq_some.mp hlookup
    split at h
    · cases h
    · rename_i hfree
      cases h
      exact ⟨r, hr, hkey, rfl, rfl, hfree⟩

theorem insertRow_separate (h : insertRow pkey constraints t r = .ok t')
    (ht : t.Separate constraints) : t'.Separate constraints :=
  ht.insert? (insertRow_ok h).1 (insertRow_ok h).2

theorem updateRow_separate (h : updateRow constraints t id set = .ok (t', r'))
    (ht : t.Separate constraints) : t'.Separate constraints := by
  obtain ⟨r, -, -, -, rfl, hfree⟩ := updateRow_ok h
  exact ht.put hfree

theorem requireRef_ok {present : Bool} {table constraint : String}
    (h : requireRef present table constraint = .ok ()) : present = true := by
  unfold requireRef at h
  split at h
  · assumption
  · cases h

end Specs

theorem map_eq_ok {ε α β : Type} {x : Except ε α} {f : α → β} {b : β} :
    x.map f = .ok b ↔ ∃ a, x = .ok a ∧ f a = b := by
  cases x with
  | error e => simp [Except.map]
  | ok a => simp [Except.map]

section OperationSpecs

variable {m m' : MasterData} {now : Int} {id : String}

theorem createArea_ok {siteId code name : String} {row : AreaRow}
    (h : createArea m now id siteId code name = .ok (m', row)) :
    row = ⟨id, siteId, code, name, now, now⟩ ∧ m.sites.Has siteId ∧
      ∃ areas, insertRow "areas_pkey" AreaRow.constraints m.areas row = .ok areas ∧
        m' = { m with areas } := by
  unfold createArea at h
  obtain ⟨areas, hins, h⟩ := bind_eq_ok.mp h
  obtain ⟨_, href, h⟩ := bind_eq_ok.mp h
  cases h
  exact ⟨rfl, Table.isSome_lookup.mp (requireRef_ok href), areas, hins, rfl⟩

theorem createWorkCenter_ok {areaId code name : String} {externalRef : Option String}
    {row : WorkCenterRow}
    (h : createWorkCenter m now id areaId code name externalRef = .ok (m', row)) :
    row = ⟨id, areaId, code, name, externalRef, now, now⟩ ∧ m.areas.Has areaId ∧
      ∃ workCenters,
        insertRow "work_centers_pkey" WorkCenterRow.constraints m.workCenters row =
          .ok workCenters ∧ m' = { m with workCenters } := by
  unfold createWorkCenter at h
  obtain ⟨workCenters, hins, h⟩ := bind_eq_ok.mp h
  obtain ⟨_, href, h⟩ := bind_eq_ok.mp h
  cases h
  exact ⟨rfl, Table.isSome_lookup.mp (requireRef_ok href), workCenters, hins, rfl⟩

theorem createUser_ok {username displayName roleCode : String}
    {passwordHash pinHash badgeId : Option String} {row : UserRow}
    (h : createUser m now id username displayName roleCode passwordHash pinHash badgeId =
      .ok (m', row)) :
    row = ⟨id, username, displayName, roleCode, passwordHash, pinHash, badgeId, true, now, now⟩ ∧
      roleCode ∈ m.roles ∧
      ∃ users, insertRow "users_pkey" UserRow.constraints m.users row = .ok users ∧
        m' = { m with users } := by
  unfold createUser at h
  obtain ⟨users, hins, h⟩ := bind_eq_ok.mp h
  obtain ⟨_, href, h⟩ := bind_eq_ok.mp h
  cases h
  exact ⟨rfl, of_decide_eq_true (requireRef_ok href), users, hins, rfl⟩

/-- Nothing that stays names a work center of these, an order of one of them or a schedule. -/
structure Unheld (m : MasterData) (gone : WorkCenterRow → Prop) : Prop where
  named : ∀ r ∈ m.workCenters, gone r →
    r.id ∉ m.routedWorkCenters ∧ r.id ∉ m.operationWorkCenters ∧ r.id ∉ m.maintenance.spared
  scheduled : ∀ p ∈ m.maintenance.scheduled,
    (∃ r ∈ m.workCenters, r.id = p.1 ∧ gone r) → ∃ r ∈ m.workCenters, r.id = p.2 ∧ gone r

theorem Unheld.congr {gone gone' : WorkCenterRow → Prop} (hgone : ∀ r, gone r ↔ gone' r)
    (h : Unheld m gone) : Unheld m gone' := by
  obtain rfl : gone = gone' := funext fun r => propext (hgone r)
  exact h

theorem goes_iff {gone : WorkCenterRow → Bool} :
    goes m gone id = true ↔ ∃ r ∈ m.workCenters, r.id = id ∧ gone r = true := by
  simp [goes]

theorem dropWorkCenters_isOk {gone : WorkCenterRow → Bool} :
    (∃ m', dropWorkCenters m gone = .ok m') ↔ Unheld m fun r => gone r = true := by
  have hrefusal : m.maintenance.refusal (goes m gone) = none ↔
      (∀ p ∈ m.maintenance.scheduled, (∃ r ∈ m.workCenters, r.id = p.1 ∧ gone r = true) →
        ∃ r ∈ m.workCenters, r.id = p.2 ∧ gone r = true) ∧
      ∀ r ∈ m.workCenters, gone r = true → r.id ∉ m.maintenance.spared := by
    rw [MaintenanceRefs.refusal_eq_none]
    simp only [goes_iff]
    refine and_congr_right fun _ => ⟨?_, ?_⟩
    · intro h r hr hgone hin
      have hnot := h r.id hin
      rw [goes_iff.mpr ⟨r, hr, rfl, hgone⟩] at hnot
      cases hnot
    · intro h wc hwc
      apply Bool.eq_false_of_not_eq_true
      intro hgoes
      obtain ⟨r, hr, rfl, hgone⟩ := goes_iff.mp hgoes
      exact h r hr hgone hwc
  unfold dropWorkCenters
  split
  · rename_i hrouted
    obtain ⟨r, hr, hgone, hin⟩ := hrouted
    exact iff_of_false (fun ⟨_, h⟩ => by cases h) fun h => (h.named r hr hgone).1 hin
  · rename_i hrouted
    split
    · rename_i hoperation
      obtain ⟨r, hr, hgone, hin⟩ := hoperation
      exact iff_of_false (fun ⟨_, h⟩ => by cases h) fun h => (h.named r hr hgone).2.1 hin
    · rename_i hoperation
      split
      · rename_i e he
        refine iff_of_false (fun ⟨_, h⟩ => by cases h) fun h => ?_
        rw [hrefusal.mpr ⟨h.scheduled, fun r hr hgone => (h.named r hr hgone).2.2⟩] at he
        cases he
      · rename_i hnone
        obtain ⟨hscheduled, hspared⟩ := hrefusal.mp hnone
        refine iff_of_true ⟨_, rfl⟩ ⟨?_, hscheduled⟩
        intro r hr hgone
        exact ⟨fun hin => hrouted ⟨r, hr, hgone, hin⟩, fun hin => hoperation ⟨r, hr, hgone, hin⟩,
          hspared r hr hgone⟩

/-- A delete of work centers takes those of the predicate, which nothing that stays names. -/
theorem dropWorkCenters_ok {gone : WorkCenterRow → Bool} (h : dropWorkCenters m gone = .ok m') :
    m' = { m with
        workCenters := m.workCenters.delete gone
        maintenance := m.maintenance.drop (goes m gone) } ∧
      Unheld m fun r => gone r = true := by
  refine ⟨?_, dropWorkCenters_isOk.mp ⟨m', h⟩⟩
  unfold dropWorkCenters at h
  split at h
  · cases h
  · split at h
    · cases h
    · split at h
      · cases h
      · cases h
        rfl

theorem deleteWorkCenter_ok (h : deleteWorkCenter m id = .ok m') :
    dropWorkCenters m (fun r => r.id = id) = .ok m' := by
  unfold deleteWorkCenter at h
  split at h
  · exact h
  · cases h

theorem deleteArea_ok (h : deleteArea m id = .ok m') :
    ∃ mid, dropWorkCenters m (fun r => r.areaId = id) = .ok mid ∧
      m' = { mid with areas := mid.areas.delete fun a => a.id = id } := by
  unfold deleteArea at h
  split at h
  · obtain ⟨mid, hmid, rfl⟩ := map_eq_ok.mp h
    exact ⟨mid, hmid, rfl⟩
  · cases h

theorem deleteSite_ok (h : deleteSite m id = .ok m') :
    ∃ mid, dropWorkCenters m (fun r => areaIn m id r.areaId) = .ok mid ∧
      m' = { mid with
        areas := mid.areas.delete fun a => a.siteId = id
        sites := mid.sites.delete fun s => s.id = id } := by
  unfold deleteSite at h
  split at h
  · obtain ⟨mid, hmid, rfl⟩ := map_eq_ok.mp h
    exact ⟨mid, hmid, rfl⟩
  · cases h

theorem areaIn_iff {siteId areaId : String} :
    areaIn m siteId areaId = true ↔ ∃ a ∈ m.areas, a.id = areaId ∧ a.siteId = siteId := by
  simp [areaIn]

theorem deletePart_ok (h : deletePart m id = .ok m') :
    id ∉ m.orderedParts ∧ m' = { m with parts := m.parts.delete fun r => r.id = id } := by
  unfold deletePart at h
  split at h
  · split at h
    · cases h
    · rename_i hfree
      cases h
      exact ⟨hfree, rfl⟩
  · cases h

theorem insertAudit_ok {actorId entityId : Option String} {action entity : String}
    {detail : Option Json}
    (h : insertAudit m now id actorId action entity entityId detail = .ok m') :
    (∀ k ∈ actorId, m.users.Has k) ∧
      ∃ auditLog, m.auditLog.insert? ⟨id, actorId, action, entity, entityId, detail, now⟩ =
        some auditLog ∧ m' = { m with auditLog } := by
  unfold insertAudit at h
  split at h
  · cases h
  · rename_i auditLog hins
    split at h
    · cases h
    · rename_i href
      cases h
      refine ⟨?_, auditLog, hins, rfl⟩
      intro k hk
      exact Table.isSome_lookup.mp (optionalRef_isOk.mp href k hk)

end OperationSpecs

end ElectronixMes.Db.Master
