import ElectronixMes.Cloud.Agent
import ElectronixMes.Db.RepoSync
import ElectronixMes.Transition.Run

/-!
# Runs of a cloud

Everything that changes a cloud's database comes in through its provisioning and sync handlers,
in any order and with any header. Next to the database the run keeps the enrollments that were
answered. The plants of a cloud are exactly these, each with the hash of its own token.
-/

namespace ElectronixMes.Tenants

open Relational Db Cloud Serde

/-- A cloud with the enrollments it has answered. -/
structure Hub where
  db : Database
  issued : List PlantEnrollment

/-- A request that may write; new ids and the random part of a token are drawn by the caller. -/
inductive Event where
  | createOrg (authorization : Option String) (now : Int) (id : String) (input : OrgInput)
  | enrollPlant (authorization : Option String) (id ulid orgId : String) (input : PlantInput)
  | order (authorization : Option String) (now : Int) (woId entryId plantId : String)
      (input : RemoteWorkOrderInput)
  | push (now : ℕ → Int) (authorization : Option String) (req : PushRequest)
  | ack (now : Int) (authorization : Option String) (req : AckRequest)

/-- How a cloud hashes tokens, reads decimals and instants, and guards its provisioning. -/
structure Config where
  hashToken : String → String
  codec : Codec
  adminToken : Option String

section Steps

variable (cfg : Config)

/-- The enrollment that an answer carries. -/
def enrollmentOf : Except ApiErr PlantEnrollment → List PlantEnrollment
  | .ok e => [e]
  | .error _ => []

def step (h : Hub) : Event → Hub
  | .createOrg authorization now id input =>
      { h with db := (Cloud.createOrg cfg.adminToken h.db authorization now id input).1 }
  | .enrollPlant authorization id ulid orgId input =>
      let res := Cloud.enrollPlant cfg.hashToken cfg.adminToken h.db authorization id ulid orgId
        input
      ⟨res.1, h.issued ++ enrollmentOf res.2⟩
  | .order authorization now woId entryId plantId input =>
      { h with db := (remoteWorkOrder cfg.codec h.db cfg.adminToken authorization now woId entryId
          plantId input).1 }
  | .push now authorization req =>
      { h with db := (Cloud.push cfg.hashToken cfg.codec h.db now authorization req).1 }
  | .ack now authorization req =>
      { h with db := (Cloud.ack cfg.hashToken h.db now authorization req).1 }

/-- The state in front of the `k`-th request of a run. -/
def stateAt (h : Hub) (run : List Event) (k : ℕ) : Hub := (run.take k).foldl (step cfg) h

variable {cfg} {h : Hub} {run : List Event}

theorem stateAt_succ {k : ℕ} {a : Event} (ha : run[k]? = some a) :
    stateAt cfg h run (k + 1) = step cfg (stateAt cfg h run k) a := by
  rw [stateAt, stateAt, List.take_add_one, ha]
  simp

theorem issued_step {e : PlantEnrollment} (he : e ∈ h.issued) (a : Event) :
    e ∈ (step cfg h a).issued := by
  cases a with
  | enrollPlant authorization id ulid orgId input => exact List.mem_append_left _ he
  | createOrg authorization now id input => exact he
  | order authorization now woId entryId plantId input => exact he
  | push now authorization req => exact he
  | ack now authorization req => exact he

/-- An enrollment that was answered stays answered. -/
theorem issued_last {j k : ℕ} (hjk : j ≤ k) {e : PlantEnrollment}
    (he : e ∈ (stateAt cfg h run j).issued) : e ∈ (stateAt cfg h run k).issued := by
  induction hjk with
  | refl => exact he
  | @step k _ ih =>
      rcases Transition.foldl_take_succ (step cfg) h run k with hsame | ⟨a, -, heq⟩
      · rw [stateAt, hsame]
        exact ih
      · rw [stateAt, heq]
        exact issued_step ih a

end Steps

/-! ## Credentials -/

section Credentials

/-- What a token is checked against: each plant with its org and its hash. -/
def credentials (db : Database) : List (String × String × Option String) :=
  db.plants.rows.map fun p => (p.id, p.orgId, p.enrollmentTokenHash)

variable {hashToken : String → String} {db : Database}

theorem resolveTenantByToken_eq (token : String) :
    resolveTenantByToken hashToken db token =
      ((credentials db).find? fun p => p.2.2 = some (hashToken token)).map fun p =>
        (p.1, p.2.1) := by
  rw [resolveTenantByToken, credentials, List.find?_map, Option.map_map]
  rfl

theorem verifyPlantToken_iff {plantId token : String} :
    verifyPlantToken hashToken db plantId token = true ↔
      ∃ orgId, (plantId, orgId, some (hashToken token)) ∈ credentials db := by
  simp only [credentials, List.mem_map, Prod.mk.injEq]
  constructor
  · intro hverify
    unfold verifyPlantToken at hverify
    split at hverify
    · rename_i p hlookup
      obtain ⟨hp, hid⟩ := Table.lookup_eq_some.mp hlookup
      split at hverify
      · rename_i hash hhash
        exact ⟨p.orgId, p, hp, hid, rfl, by rw [hhash, of_decide_eq_true hverify]⟩
      · cases hverify
    · cases hverify
  · rintro ⟨orgId, p, hp, rfl, -, hhash⟩
    have hlookup : db.plants.lookup p.id = some p := Table.lookup_of_mem hp
    simp [verifyPlantToken, hlookup, hhash]

theorem nodup_credentials (db : Database) : ((credentials db).map Prod.fst).Nodup := by
  rw [credentials, List.map_map]
  exact db.plants.unique

theorem credentials_touch (db : Database) (plantId : String) (now : Int) :
    credentials (touchPlantSync db plantId now) = credentials db := by
  change ((db.plants.rows.map _).map _) = _
  rw [List.map_map]
  apply List.map_congr_left
  intro p _
  by_cases hp : p.id = plantId <;> simp [hp]

variable {c : Codec}

theorem credentials_push (now : ℕ → Int) (authorization : Option String) (req : PushRequest) :
    credentials (Cloud.push hashToken c db now authorization req).1 = credentials db := by
  apply push_induction (P := fun d => credentials d = credentials db)
  · intro d d' i e b _ hd happ
    rw [applyEntry_frame happ]
    exact hd
  · intro d t hd
    rw [credentials_touch]
    exact hd
  · rfl

theorem ack_frame (now : Int) (authorization : Option String) (req : AckRequest) :
    (Cloud.ack hashToken db now authorization req).1.plants = db.plants ∧
      (Cloud.ack hashToken db now authorization req).1.workOrders = db.workOrders := by
  unfold Cloud.ack markSynced
  split
  · exact ⟨rfl, rfl⟩
  · split <;> exact ⟨rfl, rfl⟩

end Credentials

end ElectronixMes.Tenants
