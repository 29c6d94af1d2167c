import ElectronixMes.Db.RepoOrders

/-!
# The sync handlers of the cloud

`push`, `pull` and `ack`, each behind the check of the plant's enrollment
token, and the creation of a remote work order behind the optional admin
token. A request names the plant it is authenticated as; everything else in
its body is unchecked. A handler returns the database it leaves next to its
response, because a push that fails keeps what it applied before.
-/

namespace ElectronixMes.Cloud

open Db Relational Serde

/-- Maximum number of outbox entries pushed in a single sync batch. -/
def maxBatch : ℕ := 500

/-- The token of an `Authorization: Bearer ...` header. -/
def bearer (authorization : Option String) : Option String :=
  authorization.bind fun v =>
    if "Bearer ".toList.isPrefixOf v.toList then some (String.ofList (v.toList.drop 7)) else none

section Auth

variable (hashToken : String → String) (db : Database)

/-- Gate provisioning on the admin token when one is configured. -/
def requireAdmin (adminToken authorization : Option String) : Except ApiErr Unit :=
  match adminToken with
  | none => .ok ()
  | some expected =>
      if bearer authorization = some expected then .ok ()
      else .error ⟨401, "unauthorized", "admin token required"⟩

/-- Authenticate a plant by its enrollment token against a claimed id. -/
def requirePlant (authorization : Option String) (plantId : String) : Except ApiErr Unit :=
  match bearer authorization with
  | none => .error ⟨401, "unauthorized", "missing plant token"⟩
  | some token =>
      if verifyPlantToken hashToken db plantId token then .ok ()
      else .error ⟨401, "unauthorized", "invalid plant token"⟩

end Auth

structure PushRequest where
  plantId : String
  entries : List SyncEntry

structure AckRequest where
  plantId : String
  ids : List String

structure RemoteWorkOrderInput where
  woNumber : String
  partId : String
  qtyOrdered : Decimal
  priority : Option Int32

section Handlers

variable (hashToken : String → String) (c : Codec) (db : Database)

def remoteWorkOrder (adminToken authorization : Option String) (now : Int)
    (woId entryId plantId : String) (input : RemoteWorkOrderInput) :
    Database × Except ApiErr String :=
  match requireAdmin adminToken authorization with
  | .error e => (db, .error e)
  | .ok () =>
      match createRemoteWorkOrder c db now woId entryId plantId input.woNumber input.partId
          input.qtyOrdered input.priority with
      | .error e => (db, .error (repoErr e))
      | .ok (db, woId) => (db, .ok woId)

/-- The response carries the counts (applied, skipped). -/
def push (now : ℕ → Int) (authorization : Option String) (req : PushRequest) :
    Database × Except ApiErr (ℕ × ℕ) :=
  match requirePlant hashToken db authorization req.plantId with
  | .error e => (db, .error e)
  | .ok () =>
      if maxBatch < req.entries.length then
        (db, .error ⟨400, "batch_too_large", "batch exceeds 500 entries"⟩)
      else
        match applyBatch c db now req.entries (some req.plantId) with
        | (db, .error e) => (db, .error (repoErr e))
        | (db, .ok counts) =>
            (touchPlantSync db req.plantId (now req.entries.length), .ok counts)

/-- A missing limit is the batch size, and no limit exceeds it. -/
def pull (authorization : Option String) (plantId : String) (limit : Option Int) :
    Except ApiErr (List SyncEntry) :=
  match requirePlant hashToken db authorization plantId with
  | .error e => .error e
  | .ok () => (pullForPlant db plantId (min (limit.getD maxBatch) maxBatch)).mapError repoErr

def ack (now : Int) (authorization : Option String) (req : AckRequest) :
    Database × Except ApiErr Unit :=
  match requirePlant hashToken db authorization req.plantId with
  | .error e => (db, .error e)
  | .ok () => ((markSynced db req.ids now).1, .ok ())

end Handlers

section Sample

/-- The SHA-256 of the two sample tokens. -/
def sampleHash (token : String) : String :=
  if token = "plant_a" then "40b6bdbdc71f58c1fc2c220ce1fd70701f6033df0af2a17b19d29388377d98a1"
  else if token = "plant_b" then
    "047faaa82202a5e1bbe12ed4485473376303639964824a3ba47ddf534ffbcf1f"
  else ""

/-- A cloud with two plants of different orgs and one part. -/
def sampleCloud : Database where
  orgs := ⟨[⟨"org_a", "A", "Org A"⟩, ⟨"org_b", "B", "Org B"⟩], by decide⟩
  plants := ⟨[⟨"a", "org_a", "PA", "Plant A", some (sampleHash "plant_a"), none⟩,
    ⟨"b", "org_b", "PB", "Plant B", some (sampleHash "plant_b"), none⟩], by decide⟩
  parts := {"part"}

/-- The entry of an order as an edge queues it. -/
def sampleEntry (id woId woNumber : String) : SyncEntry :=
  ⟨id, "work_order", woId, "upsert", orderPayload Codec.sample woId
    { woNumber, partId := "part", routingId := none, qtyOrdered := ⟨10, 0⟩, priority := none,
      plannedStart := none, plannedEnd := none }⟩

end Sample

section Spec

variable {hashToken : String → String} {c : Codec} {db : Database}

/-- An accepted push of a batch that fits leaves the orders and the ledger of
the batch, whether the batch succeeds or not. -/
theorem push_accepted (c : Codec) (now : ℕ → Int) {authorization : Option String}
    {req : PushRequest} (hauth : requirePlant hashToken db authorization req.plantId = .ok ())
    (hlen : req.entries.length ≤ maxBatch) :
    (push hashToken c db now authorization req).1.workOrders =
        (applyBatch c db now req.entries (some req.plantId)).1.workOrders ∧
      (push hashToken c db now authorization req).1.appliedEntries =
        (applyBatch c db now req.entries (some req.plantId)).1.appliedEntries ∧
      (push hashToken c db now authorization req).2 =
        (applyBatch c db now req.entries (some req.plantId)).2.mapError repoErr := by
  unfold push
  rw [hauth]
  dsimp only
  rw [if_neg (not_lt.mpr hlen)]
  split
  · rename_i h
    rw [h]
    exact ⟨rfl, rfl, rfl⟩
  · rename_i h
    rw [h]
    exact ⟨rfl, rfl, rfl⟩

/-- A batch over the size is refused before anything is written. -/
theorem push_too_large {now : ℕ → Int} {authorization : Option String} {req : PushRequest}
    (hauth : requirePlant hashToken db authorization req.plantId = .ok ())
    (hlen : maxBatch < req.entries.length) :
    push hashToken c db now authorization req =
      (db, .error ⟨400, "batch_too_large", "batch exceeds 500 entries"⟩) := by
  unfold push
  rw [hauth]
  dsimp only
  rw [if_pos hlen]

/-- What each applied entry keeps, and the stamp of the last sync too, a push
keeps. -/
theorem push_induction {P : Database → Prop} {now : ℕ → Int} {authorization : Option String}
    {req : PushRequest}
    (hstep : ∀ d d' i e b, e ∈ req.entries → P d →
      applyEntry c d (now i) e (some req.plantId) = .ok (d', b) → P d')
    (htouch : ∀ d t, P d → P (touchPlantSync d req.plantId t)) (hinit : P db) :
    P (push hashToken c db now authorization req).1 := by
  have hbatch : P (applyBatch c db now req.entries (some req.plantId)).1 :=
    applyBatchLoop_induction hstep 0 0 hinit
  unfold push
  split
  · exact hinit
  · split
    · exact hinit
    · split
      · rename_i h
        rw [h] at hbatch
        exact hbatch
      · rename_i h
        rw [h] at hbatch
        exact htouch _ _ hbatch

theorem verifyPlantToken_touch (plantId other token : String) (t : Int) :
    verifyPlantToken hashToken (touchPlantSync db plantId t) other token =
      verifyPlantToken hashToken db other token := by
  unfold verifyPlantToken touchPlantSync
  dsimp only
  rw [Table.lookup_modify]
  cases db.plants.lookup other with
  | none => rfl
  | some p =>
      rw [Option.map_some]
      by_cases h : p.id = plantId
      · rw [if_pos h]
      · rw [if_neg h]

/-- A push changes nobody's credentials. -/
theorem requirePlant_push (now : ℕ → Int) (authorization : Option String) (req : PushRequest)
    (authorization' : Option String) (other : String) :
    requirePlant hashToken (push hashToken c db now authorization req).1 authorization' other =
      requirePlant hashToken db authorization' other := by
  refine push_induction (P := fun d => requirePlant hashToken d authorization' other =
    requirePlant hashToken db authorization' other) ?_ ?_ rfl
  · intro d d' i e b _ hd happ
    rw [applyEntry_frame happ]
    exact hd
  · intro d t hd
    rw [← hd]
    unfold requirePlant
    cases bearer authorization' with
    | none => rfl
    | some token =>
        dsimp only
        rw [verifyPlantToken_touch]

end Spec

end ElectronixMes.Cloud
