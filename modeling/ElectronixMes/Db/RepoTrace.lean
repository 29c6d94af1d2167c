import ElectronixMes.Db.RepoOrders
import ElectronixMes.Graph.Walks

/-!
# Genealogy, holds and material

The statements of the traceability repository. Traces follow the genealogy in either
direction with one recursive query. Holds are placed and released, and a lot or a serial
under an active hold is not issued.

## Implementation notes

The recursive term of a trace runs on rows of a depth below 64, so 63 times after the first
rows. Texts are ordered by their code points.
-/

namespace ElectronixMes.Db

open Relational Serde ElectronixMes.Graph

section Genealogy

/-- The type and the id of a lot or a serial. -/
abbrev Entity := String × String

@[ext] structure TraceNode where
  entityType : String
  entityId : String
  refNo : Option String
  depth : ℕ
  deriving DecidableEq

def TraceNode.entity (n : TraceNode) : Entity := (n.entityType, n.entityId)

def GenealogyRow.parent (g : GenealogyRow) : Entity := (g.parentType, g.parentId)

def GenealogyRow.child (g : GenealogyRow) : Entity := (g.childType, g.childId)

/-- Record that the parent consumed the child, once. -/
def addGenealogy (db : Database) (parentType parentId childType childId : String) : Database :=
  { db with
    genealogy :=
      (db.genealogy.insert? ⟨parentType, parentId, childType, childId⟩).getD db.genealogy }

def childrenOf (db : Database) (e : Entity) : List Entity :=
  (db.genealogy.rows.filter fun g => g.parent = e).map GenealogyRow.child

def parentsOf (db : Database) (e : Entity) : List Entity :=
  (db.genealogy.rows.filter fun g => g.child = e).map GenealogyRow.parent

/-- `COALESCE(l.lot_no, s.serial_no)` of the joined lot and serial. -/
def refNo (db : Database) (e : Entity) : Option String :=
  (if e.1 = "lot" then (db.lots.lookup e.2).map LotRow.lotNo else none) <|>
    if e.1 = "serial" then (db.serials.lookup e.2).map SerialRow.serialNo else none

/-- `ORDER BY depth, ref_no`, where a missing number comes last. -/
def TraceNode.Before (m n : TraceNode) : Prop :=
  m.depth < n.depth ∨ m.depth = n.depth ∧
    ∀ y ∈ n.refNo, ∃ x ∈ m.refNo, x ≤ y

instance : DecidableRel TraceNode.Before := fun m n =>
  inferInstanceAs (Decidable (m.depth < n.depth ∨ m.depth = n.depth ∧
    ∀ y ∈ n.refNo, ∃ x ∈ m.refNo, x ≤ y))

/-- The trace along a direction of the genealogy: the rows of the recursive query, joined
with the numbers and grouped. -/
def trace (db : Database) (next : Entity → List Entity) (e : Entity) : List TraceNode :=
  let rows := (walkRows next 1 63 (next e)).map fun row => ((row.1, refNo db row.1), row.2)
  ((groupMin rows).map fun g => ⟨g.1.1.1, g.1.1.2, g.1.2, g.2⟩).insertionSort TraceNode.Before

/-- Every component that the given assembly consumed, directly or not. -/
def traceBackward (db : Database) (entityType entityId : String) : List TraceNode :=
  trace db (childrenOf db) (entityType, entityId)

/-- Every assembly that the given component ended up in. -/
def traceForward (db : Database) (entityType entityId : String) : List TraceNode :=
  trace db (parentsOf db) (entityType, entityId)

end Genealogy

/-- What a hold can stand on. -/
inductive Material where
  | lot (id : String)
  | serial (id : String)
  deriving DecidableEq

namespace Material

def entityType : Material → String
  | lot _ => "lot"
  | serial _ => "serial"

def entityId : Material → String
  | lot id => id
  | serial id => id

/-- The lot and the serial that a row names, in this order. -/
def named (lotId serialId : Option String) : List Material :=
  (lotId.map lot).toList ++ (serialId.map serial).toList

end Material

def HoldRow.IsOn (h : HoldRow) (m : Material) : Prop :=
  h.entityType = m.entityType ∧ h.entityId = m.entityId

instance (h : HoldRow) (m : Material) : Decidable (h.IsOn m) :=
  inferInstanceAs (Decidable (h.entityType = m.entityType ∧ h.entityId = m.entityId))

/-- Is the material under an active hold? -/
def isHeld (db : Database) (m : Material) : Bool :=
  db.holds.rows.any fun h => h.IsOn m ∧ h.status = "active"

/-- A hold that has just been placed. -/
def newHold (now : Int) (id entityType entityId : String) (reason : Option String)
    (createdBy : String) (ncrId : Option String) : HoldRow :=
  { id, entityType, entityId, reason
    status := "active"
    createdBy := some createdBy
    releasedBy := none
    createdAt := now
    releasedAt := none
    ncrId }

def insertHold (db : Database) (h : HoldRow) : Except SqlError Database :=
  match db.holds.insert? h with
  | none => .error (.uniqueViolation "holds_pkey")
  | some holds => do
      optionalRef (· ∈ db.users) "holds" "holds_created_by_fkey" h.createdBy
      optionalRef (fun k => (db.ncrs.lookup k).isSome) "holds" "holds_ncr_id_fkey" h.ncrId
      return { db with holds }

def placeHold (db : Database) (now : Int) (id entityType entityId : String)
    (reason : Option String) (createdBy : String) : Except RepoError (Database × String) :=
  match insertHold db (newHold now id entityType entityId reason createdBy none) with
  | .error e => .error (mapSqlx e)
  | .ok db => .ok (db, id)

def HoldRow.released (h : HoldRow) (now : Int) (releasedBy : String) : HoldRow :=
  { h with status := "released", releasedBy := some releasedBy, releasedAt := some now }

/-- Release one active hold. -/
def releaseHold (db : Database) (now : Int) (holdId releasedBy : String) :
    Except RepoError Database :=
  match db.holds.lookup holdId with
  | none => .error .notFound
  | some h =>
      if h.status = "active" then
        if releasedBy ∈ db.users then
          .ok { db with holds := db.holds.put (h.released now releasedBy) }
        else .error (mapSqlx (.foreignKeyViolation "holds" "holds_released_by_fkey"))
      else .error .notFound

/-- The insert of an issue into the ledger of movements. -/
def insertIssue (db : Database) (now : Int) (id : String) (lotId serialId : Option String)
    (qty : Decimal) (woOperationId : Option String) (userId : String) :
    Except SqlError Database :=
  let row : MaterialTxnRow := ⟨id, lotId, serialId, "issue", qty, woOperationId, now, some userId⟩
  match db.materialTxns.insert? row with
  | none => .error (.uniqueViolation "material_txns_pkey")
  | some materialTxns => do
      optionalRef (fun k => (db.lots.lookup k).isSome) "material_txns" "material_txns_lot_id_fkey"
        lotId
      optionalRef (fun k => (db.serials.lookup k).isSome) "material_txns"
        "material_txns_serial_id_fkey" serialId
      optionalRef (fun k => (db.woOperations.lookup k).isSome) "material_txns"
        "material_txns_wo_operation_id_fkey" woOperationId
      optionalRef (· ∈ db.users) "material_txns" "material_txns_user_id_fkey" (some userId)
      return { db with materialTxns }

/-- Issue material that is not on hold. -/
def issueMaterial (db : Database) (now : Int) (id : String) (lotId serialId : Option String)
    (qty : Decimal) (woOperationId : Option String) (userId : String) :
    Except RepoError (Database × String) :=
  if lotId.any fun l => isHeld db (.lot l) then .error (.conflict "lot is on hold")
  else if serialId.any fun s => isHeld db (.serial s) then .error (.conflict "serial is on hold")
  else
    match insertIssue db now id lotId serialId qty woOperationId userId with
    | .error e => .error (mapSqlx e)
    | .ok db => .ok (db, id)

section Lemmas

variable {db db' : Database} {h : HoldRow} {m : Material}

theorem isHeld_of_active (hmem : h ∈ db.holds) (hon : h.IsOn m) (hactive : h.status = "active") :
    isHeld db m = true :=
  List.any_eq_true.mpr ⟨h, hmem, decide_eq_true ⟨hon, hactive⟩⟩

theorem insertHold_ok (hok : insertHold db h = .ok db') :
    ∃ holds, db.holds.insert? h = some holds ∧ db' = { db with holds } := by
  unfold insertHold at hok
  split at hok
  · cases hok
  · rename_i holds hins
    repeat replace hok := of_check hok
    cases hok
    exact ⟨holds, hins, rfl⟩

theorem placeHold_ok {now : Int} {id entityType entityId createdBy : String}
    {reason : Option String} {res : Database × String}
    (hok : placeHold db now id entityType entityId reason createdBy = .ok res) :
    ∃ holds, db.holds.insert? (newHold now id entityType entityId reason createdBy none) =
      some holds ∧ res.1 = { db with holds } := by
  unfold placeHold at hok
  split at hok
  · cases hok
  · rename_i hins
    cases hok
    exact insertHold_ok hins

theorem releaseHold_ok {now : Int} {holdId releasedBy : String}
    (hok : releaseHold db now holdId releasedBy = .ok db') :
    ∃ h, db.holds.lookup holdId = some h ∧ h.status = "active" ∧
      db' = { db with holds := db.holds.put (h.released now releasedBy) } := by
  unfold releaseHold at hok
  split at hok
  · cases hok
  · rename_i h hh
    split at hok
    · rename_i hactive
      split at hok
      · cases hok
        exact ⟨h, hh, hactive, rfl⟩
      · cases hok
    · cases hok

theorem insertIssue_ok {now : Int} {id userId : String}
    {lotId serialId woOperationId : Option String} {qty : Decimal}
    (hok : insertIssue db now id lotId serialId qty woOperationId userId = .ok db') :
    ∃ materialTxns, db.materialTxns.insert?
        ⟨id, lotId, serialId, "issue", qty, woOperationId, now, some userId⟩ = some materialTxns ∧
      db' = { db with materialTxns } := by
  unfold insertIssue at hok
  dsimp only at hok
  split at hok
  · cases hok
  · rename_i txns hins
    repeat replace hok := of_check hok
    cases hok
    exact ⟨txns, hins, rfl⟩

theorem issueMaterial_ok {now : Int} {id userId : String}
    {lotId serialId woOperationId : Option String} {qty : Decimal} {res : Database × String}
    (hok : issueMaterial db now id lotId serialId qty woOperationId userId = .ok res) :
    res.1 = { db with materialTxns := res.1.materialTxns } := by
  unfold issueMaterial at hok
  repeat' split at hok
  all_goals cases hok
  rename_i hins
  obtain ⟨txns, -, rfl⟩ := insertIssue_ok hins
  rfl

/-- Material on hold is not issued. -/
theorem issueMaterial_of_held {lotId serialId : Option String}
    (hm : m ∈ Material.named lotId serialId) (hheld : isHeld db m = true) (now : Int)
    (id : String) (qty : Decimal) (woOperationId : Option String) (userId : String) :
    ∃ message, issueMaterial db now id lotId serialId qty woOperationId userId =
      .error (.conflict message) := by
  unfold issueMaterial
  split
  · exact ⟨_, rfl⟩
  · rename_i hlot
    split
    · exact ⟨_, rfl⟩
    · rename_i hserial
      rcases List.mem_append.mp hm with hmem | hmem
      · obtain ⟨l, hl, rfl⟩ := Option.map_eq_some_iff.mp (Option.mem_toList.mp hmem)
        rw [hl] at hlot
        exact absurd hheld hlot
      · obtain ⟨s, hs, rfl⟩ := Option.map_eq_some_iff.mp (Option.mem_toList.mp hmem)
        rw [hs] at hserial
        exact absurd hheld hserial

end Lemmas

end ElectronixMes.Db
