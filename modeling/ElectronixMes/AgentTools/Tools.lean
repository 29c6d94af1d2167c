import ElectronixMes.Db.Schema
import Mathlib.Data.List.Sort

/-!
# The read-only agent tools (crates/mes-agent-tools)

One dispatcher serves both front doors of the agents. Every tool is bound to the
organisation of its caller: the only one that reads the database joins through the plants
of that organisation. Two databases that agree on these plants and on their work orders
cannot be told apart by any call.
-/

namespace ElectronixMes.AgentTools

open Db Relational Serde

inductive AgentToolError where
  | unknownTool (name : String)
  | query (text : String)
  deriving DecidableEq

/-- The text of an error. -/
def AgentToolError.text : AgentToolError → String
  | unknownTool name => "unknown tool: " ++ name
  | query text => "query error: " ++ text

/-- The tenant the tools are allowed to see. -/
structure TenantScope where
  orgId : String

/-- A tool's public definition; the schema is that of its input object. -/
structure ToolDef where
  name : String
  description : String
  inputSchema : Json

section WoStatus

/-- The driver's text for a failed statement. -/
def qerr (e : SqlError) : AgentToolError :=
  .query ("error returned from database: " ++ e.message)

/-- The orders that the join attributes to a plant of the organisation. -/
def ofOrg (db : Database) (orgId : String) (w : WorkOrderRow) : Bool :=
  db.plants.rows.any fun p => decide (w.plantId = some p.id) && decide (p.orgId = orgId)

/-- `status = $2`, or no filter when there is none. -/
def hasStatus (statusFilter : Option String) (w : WorkOrderRow) : Bool :=
  match statusFilter with
  | none => true
  | some status => w.status = status

/-- The orders of the organisation that pass the filter. -/
def matchingOrders (db : Database) (orgId : String) (statusFilter : Option String) :
    List WorkOrderRow :=
  db.workOrders.rows.filter fun w => ofOrg db orgId w && hasStatus statusFilter w

/-- `ORDER BY created_at DESC LIMIT 200` over the matching orders. A text with a zero
character is refused by the server. -/
def woStatusRows (db : Database) (orgId : String) (statusFilter : Option String) :
    Except AgentToolError (List WorkOrderRow) :=
  if ∃ text ∈ orgId :: statusFilter.toList, text.contains '\x00' then
    .error (qerr (.other "invalid byte sequence for encoding \"UTF8\": 0x00"))
  else
    .ok (((matchingOrders db orgId statusFilter).insertionSort
      fun a b => b.createdAt ≤ a.createdAt).take 200)

/-- Count one more order of a status; the map keeps its keys in order. -/
def bump (status : String) : List (String × Int) → List (String × Int)
  | [] => [(status, 1)]
  | (s, n) :: rest =>
      if status = s then (s, n + 1) :: rest
      else if status < s then (status, 1) :: (s, n) :: rest
      else (s, n) :: bump status rest

def countsByStatus (rows : List WorkOrderRow) : List (String × Int) :=
  rows.foldl (fun counts w => bump w.status counts) []

/-- One order of the answer. -/
def woItem (c : Codec) (w : WorkOrderRow) : Json :=
  .obj [("plant_id", optStringToJson w.plantId), ("qty_ordered", c.decimalToJson w.qtyOrdered),
    ("status", .str w.status), ("wo_number", .str w.woNumber)]

/-- Work-order status for the tenant's plants. -/
def getWoStatus (c : Codec) (db : Database) (scope : TenantScope) (args : Json) :
    Except AgentToolError Json :=
  let statusFilter := (args.get? "status").bind Json.asString
  (woStatusRows db scope.orgId statusFilter).map fun rows =>
    .obj [("counts_by_status", .obj ((countsByStatus rows).map fun e => (e.1, .int e.2))),
      ("total", .int rows.length), ("work_orders", .arr (rows.map (woItem c)))]

end WoStatus

/-- The answer of a tool whose aggregate is not yet synced to the cloud. -/
def pending (aggregate : String) : Json :=
  .obj [("items", .arr []),
    ("note", .str (aggregate ++
      " is available per-plant on the edge; cloud aggregation for this tool arrives when that " ++
      "aggregate is added to the sync set (additive)."))]

/-- The single entry point both front doors use, always bound to `scope`. -/
def dispatch (c : Codec) (db : Database) (scope : TenantScope) (name : String) (args : Json) :
    Except AgentToolError Json :=
  match name with
  | "get_wo_status" => getWoStatus c db scope args
  | "get_oee" => .ok (pending "OEE")
  | "get_downtime_pareto" => .ok (pending "Downtime Pareto")
  | "get_ncr_queue" => .ok (pending "The NCR queue")
  | "get_trace" => .ok (pending "Traceability")
  | "get_maintenance_due" => .ok (pending "Maintenance-due")
  | other => .error (.unknownTool other)

section Catalog

/-- The schema of an input object with these properties. -/
def objectSchema (properties : List (String × Json)) : Json :=
  .obj [("properties", .obj properties), ("type", .str "object")]

def stringSchema : Json := .obj [("type", .str "string")]

def describedSchema (description : String) : Json :=
  .obj [("description", .str description), ("type", .str "string")]

def enumSchema (values : List String) : Json :=
  .obj [("enum", .arr (values.map Json.str)), ("type", .str "string")]

/-- The tool catalog, advertised by both front doors. -/
def catalog : List ToolDef :=
  [{ name := "get_wo_status"
     description := "Work-order status and counts for the caller's plants. " ++
       "Optional `status` filters to one lifecycle status."
     inputSchema := objectSchema [("status", describedSchema "Filter to a WO status")] },
   { name := "get_oee"
     description := "OEE (A×P×Q) for a work center over a window."
     inputSchema := objectSchema [("end", describedSchema "RFC3339"),
       ("start", describedSchema "RFC3339"), ("work_center_id", stringSchema)] },
   { name := "get_downtime_pareto"
     description := "Ranked downtime loss by reason for a work center over a window."
     inputSchema := objectSchema [("work_center_id", stringSchema)] },
   { name := "get_ncr_queue"
     description := "Open non-conformances (NCRs) for the caller's plants."
     inputSchema := objectSchema [] },
   { name := "get_trace"
     description := "Forward/backward genealogy for a lot or serial."
     inputSchema := objectSchema [("direction", enumSchema ["forward", "backward"]),
       ("entity_id", stringSchema), ("entity_type", enumSchema ["lot", "serial"])] },
   { name := "get_maintenance_due"
     description := "Preventive-maintenance schedules currently due."
     inputSchema := objectSchema [] }]

end Catalog

section Isolation

variable {orgId : String} {db₁ db₂ : Database}

/-- Both databases have the same plants of the organisation and the same orders attributed
to these plants. -/
structure AgreeOn (orgId : String) (db₁ db₂ : Database) : Prop where
  plants : ∀ p, p.orgId = orgId → (p ∈ db₁.plants ↔ p ∈ db₂.plants)
  orders : ∀ p ∈ db₁.plants, p.orgId = orgId → ∀ w, w.plantId = some p.id →
    (w ∈ db₁.workOrders ↔ w ∈ db₂.workOrders)

/-- No two orders of the organisation were created at the same instant. -/
def CreatedApart (orgId : String) (db : Database) : Prop :=
  ∀ w ∈ db.workOrders, ∀ v ∈ db.workOrders, ofOrg db orgId w → ofOrg db orgId v →
    w.createdAt = v.createdAt → w = v

theorem ofOrg_iff {db : Database} {w : WorkOrderRow} :
    ofOrg db orgId w ↔ ∃ p ∈ db.plants, w.plantId = some p.id ∧ p.orgId = orgId := by
  simp [ofOrg]

theorem AgreeOn.ofOrg_eq (h : AgreeOn orgId db₁ db₂) (w : WorkOrderRow) :
    ofOrg db₁ orgId w = ofOrg db₂ orgId w := by
  rw [Bool.eq_iff_iff, ofOrg_iff, ofOrg_iff]
  constructor
  · rintro ⟨p, hp, hw, horg⟩
    exact ⟨p, (h.plants p horg).mp hp, hw, horg⟩
  · rintro ⟨p, hp, hw, horg⟩
    exact ⟨p, (h.plants p horg).mpr hp, hw, horg⟩

theorem mem_matchingOrders {db : Database} {statusFilter : Option String} {w : WorkOrderRow} :
    w ∈ matchingOrders db orgId statusFilter ↔
      w ∈ db.workOrders ∧ ofOrg db orgId w ∧ hasStatus statusFilter w := by
  simp [matchingOrders]

theorem AgreeOn.mem_matchingOrders_iff (h : AgreeOn orgId db₁ db₂)
    (statusFilter : Option String) (w : WorkOrderRow) :
    w ∈ matchingOrders db₁ orgId statusFilter ↔ w ∈ matchingOrders db₂ orgId statusFilter := by
  rw [mem_matchingOrders, mem_matchingOrders, ← h.ofOrg_eq w]
  apply and_congr_left
  rintro ⟨horg, -⟩
  obtain ⟨p, hp, hw, hporg⟩ := ofOrg_iff.mp horg
  exact h.orders p hp hporg w hw

theorem nodup_matchingOrders (db : Database) (orgId : String) (statusFilter : Option String) :
    (matchingOrders db orgId statusFilter).Nodup :=
  db.workOrders.nodup_rows.filter _

/-- Sorted by creation, the same orders stand in the same places. -/
theorem AgreeOn.sorted_eq (h : AgreeOn orgId db₁ db₂) (hapart : CreatedApart orgId db₁)
    (statusFilter : Option String) :
    (matchingOrders db₁ orgId statusFilter).insertionSort (fun a b => b.createdAt ≤ a.createdAt)
      = (matchingOrders db₂ orgId statusFilter).insertionSort
          fun a b => b.createdAt ≤ a.createdAt := by
  have hperm : (matchingOrders db₁ orgId statusFilter).Perm
      (matchingOrders db₂ orgId statusFilter) := by
    rw [List.perm_ext_iff_of_nodup (nodup_matchingOrders _ _ _) (nodup_matchingOrders _ _ _)]
    exact h.mem_matchingOrders_iff statusFilter
  refine List.Perm.eq_of_pairwise ?_ (List.pairwise_insertionSort _ _)
    (List.pairwise_insertionSort _ _)
    ((List.perm_insertionSort _ _).trans (hperm.trans (List.perm_insertionSort _ _).symm))
  intro a b ha hb hab hba
  rw [List.mem_insertionSort, mem_matchingOrders] at ha
  rw [List.mem_insertionSort, ← h.mem_matchingOrders_iff, mem_matchingOrders] at hb
  exact hapart a ha.1 b hb.1 ha.2.1 hb.2.1 (le_antisymm hba hab)

/-- No call tells the two databases apart. -/
theorem AgreeOn.dispatch_eq (h : AgreeOn orgId db₁ db₂) (hapart : CreatedApart orgId db₁)
    (c : Codec) (name : String) (args : Json) :
    dispatch c db₁ ⟨orgId⟩ name args = dispatch c db₂ ⟨orgId⟩ name args := by
  unfold dispatch
  split
  · unfold getWoStatus woStatusRows
    dsimp only
    rw [h.sorted_eq hapart]
  all_goals rfl

end Isolation

end ElectronixMes.AgentTools
