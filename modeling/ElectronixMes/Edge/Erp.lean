import ElectronixMes.Db.RepoOrders

/-!
# Import of work orders from an ERP

Each external record is translated by the connection's field mapping into a
canonical record, read as a work-order input and created. The import stops at
the first record that fails; the orders created before it stay.

## Implementation notes

A mapping is the list of its entries in the order of the canonical names. The
canonical record is always an object, so the input is read from its fields. The
debug text of a repository error is a parameter.
-/

namespace ElectronixMes.Edge

open Db Relational Serde

/-- Canonical field name to external field name. -/
structure FieldMapping where
  fields : List (String × String)

/-- External fields without a mapping are dropped; a mapped field that is absent
is omitted. -/
def FieldMapping.toCanonical (mapping : FieldMapping) (external : Json) : List (String × Json) :=
  mapping.fields.filterMap fun f => (external.get? f.2).map fun v => (f.1, v)

def woOperationInputFromJson : Json → Option WoOperationInput
  | .obj fields => do
      let opNo ← required fields "op_no" Json.asInt32
      let routingOpId ← optional fields "routing_op_id" Json.asString
      let workCenterId ← optional fields "work_center_id" Json.asString
      return ⟨opNo, routingOpId, workCenterId⟩
  | .arr [opNo, routingOpId, workCenterId] => do
      let opNo ← Json.asInt32 opNo
      let routingOpId ← Json.asOption Json.asString routingOpId
      let workCenterId ← Json.asOption Json.asString workCenterId
      return ⟨opNo, routingOpId, workCenterId⟩
  | _ => none

def woOperationInputsFromJson : Json → Option (List WoOperationInput)
  | .arr items => items.mapM woOperationInputFromJson
  | _ => none

def workOrderInputFromFields (c : Codec) (fields : List (String × Json)) :
    Option WorkOrderInput := do
  let woNumber ← required fields "wo_number" Json.asString
  let partId ← required fields "part_id" Json.asString
  let routingId ← optional fields "routing_id" Json.asString
  let qtyOrdered ← required fields "qty_ordered" c.decimalFromJson
  let priority ← optional fields "priority" Json.asInt32
  let plannedStart ← optional fields "planned_start" c.dateTimeFromJson
  let plannedEnd ← optional fields "planned_end" c.dateTimeFromJson
  let operations ← defaulted fields "operations" woOperationInputsFromJson []
  return ⟨woNumber, partId, routingId, qtyOrdered, priority, plannedStart, plannedEnd, operations⟩

/-- The loop over the records from index `i` on; each record draws its own
timestamp and ids. -/
def importLoop (c : Codec) (debug : RepoError → String) (now : ℕ → Int) (ids : ℕ → ℕ → String)
    (mapping : FieldMapping) :
    Database → ℕ → List Json → List String → Database × Except String (List String)
  | db, _, [], created => (db, .ok created)
  | db, i, rec :: rest, created =>
      match workOrderInputFromFields c (mapping.toCanonical rec) with
      | none =>
          (db, .error ("record " ++ toString i ++ ": " ++
            c.errorText (.obj (mapping.toCanonical rec))))
      | some input =>
          match createWorkOrder c db (now i) (ids i) input with
          | .error e => (db, .error ("record " ++ toString i ++ ": " ++ debug e))
          | .ok (db, wo) => importLoop c debug now ids mapping db (i + 1) rest (created ++ [wo.id])

/-- Map each external record to a work-order input and create it. -/
def importWorkOrders (c : Codec) (debug : RepoError → String) (db : Database) (now : ℕ → Int)
    (ids : ℕ → ℕ → String) (mapping : FieldMapping) (records : List Json) :
    Database × Except String (List String) :=
  importLoop c debug now ids mapping db 0 records []

/-- What every created order keeps, an import keeps. -/
theorem importLoop_induction {c : Codec} {debug : RepoError → String} {now : ℕ → Int}
    {ids : ℕ → ℕ → String} {mapping : FieldMapping} {P : Database → Prop}
    (hstep : ∀ db res now ids input, P db → createWorkOrder c db now ids input = .ok res →
      P res.1)
    {records : List Json} {db : Database} {i : ℕ} {created : List String} (hinit : P db) :
    P (importLoop c debug now ids mapping db i records created).1 := by
  induction records generalizing db i created with
  | nil => exact hinit
  | cons rec rest ih =>
      unfold importLoop
      split
      · exact hinit
      · split
        · exact hinit
        · rename_i hok
          exact ih (hstep _ _ _ _ _ hinit hok)

end ElectronixMes.Edge
