import ElectronixMes.Tenants.Requests

/-!
# Enrolled tokens

The token of an enrollment is random, so its hash is not among those that are stored already.
Then along every run from a cloud without plants the plants are exactly the answered
enrollments, no two of which share a hash. From its enrollment on a token stands for its own
plant and that plant's org, whatever happens in between, and for no other plant.
-/

namespace ElectronixMes.Tenants

open Relational Db Cloud Serde AgentTools

variable {cfg : Config} {h : Hub} {run : List Event}

/-- An enrollment draws a token whose hash no plant has. -/
def Fresh (cfg : Config) (h : Hub) : Event → Prop
  | .enrollPlant _ _ ulid _ _ =>
      ∀ p ∈ h.db.plants, p.enrollmentTokenHash ≠ some (cfg.hashToken ("plant_" ++ ulid))
  | _ => True

instance (cfg : Config) (h : Hub) : (a : Event) → Decidable (Fresh cfg h a)
  | .enrollPlant _ _ ulid _ _ =>
      inferInstanceAs (Decidable (∀ p ∈ h.db.plants,
        p.enrollmentTokenHash ≠ some (cfg.hashToken ("plant_" ++ ulid))))
  | .createOrg _ _ _ _ => isTrue trivial
  | .order _ _ _ _ _ _ => isTrue trivial
  | .push _ _ _ => isTrue trivial
  | .ack _ _ _ => isTrue trivial

/-- The plants are those that were enrolled, and their tokens are told apart by their hashes. -/
structure Vouched (cfg : Config) (h : Hub) : Prop where
  plants : credentials h.db =
    h.issued.map fun e => (e.id, e.orgId, some (cfg.hashToken e.token))
  hashes : (h.issued.map fun e => cfg.hashToken e.token).Nodup

theorem vouched_start (hplants : h.db.plants.rows = []) (hissued : h.issued = []) :
    Vouched cfg h := by
  constructor
  · simp [credentials, hplants, hissued]
  · simp [hissued]

/-- What an accepted enrollment answers and leaves. -/
theorem enrollPlant_cases (cfg : Config) (db : Database) (authorization : Option String)
    (id ulid orgId : String) (input : PlantInput) :
    (∃ e, Cloud.enrollPlant cfg.hashToken cfg.adminToken db authorization id ulid orgId input =
        (db, .error e)) ∨
      ∃ plants, db.plants.insert? ⟨id, orgId, input.code, input.name,
          some (cfg.hashToken ("plant_" ++ ulid)), none⟩ = some plants ∧
        Cloud.enrollPlant cfg.hashToken cfg.adminToken db authorization id ulid orgId input =
          ({ db with plants }, .ok ⟨id, orgId, input.code, input.name, "plant_" ++ ulid⟩) := by
  unfold Cloud.enrollPlant
  split
  · exact Or.inl ⟨_, rfl⟩
  · split
    · exact Or.inl ⟨_, rfl⟩
    · rename_i hok
      obtain ⟨heq, plants, hins, rfl⟩ := enrollPlant_ok hok
      cases heq
      exact Or.inr ⟨plants, hins, rfl⟩

theorem createOrg_frame (db : Database) (authorization : Option String) (now : Int) (id : String)
    (input : OrgInput) :
    (Cloud.createOrg cfg.adminToken db authorization now id input).1.plants = db.plants ∧
      (Cloud.createOrg cfg.adminToken db authorization now id input).1.workOrders =
        db.workOrders := by
  unfold Cloud.createOrg
  split
  · exact ⟨rfl, rfl⟩
  · split
    · exact ⟨rfl, rfl⟩
    · rename_i hok
      exact createOrg_ok hok

/-- A remote order leaves the plants alone and adds at most its own draft, for its plant. -/
theorem remoteWorkOrder_orders (c : Codec) (db : Database)
    (adminToken authorization : Option String) (now : Int) (woId entryId plantId : String)
    (input : RemoteWorkOrderInput) :
    remoteWorkOrder c db adminToken authorization now woId entryId plantId input =
        (db, (remoteWorkOrder c db adminToken authorization now woId entryId plantId input).2) ∨
      requireAdmin adminToken authorization = .ok () ∧
        (remoteWorkOrder c db adminToken authorization now woId entryId plantId input).1.plants =
          db.plants ∧
        ∀ w ∈ (remoteWorkOrder c db adminToken authorization now woId entryId plantId
          input).1.workOrders, w ∈ db.workOrders ∨
            w = ⟨woId, input.woNumber, input.partId, none, input.qtyOrdered,
              input.priority.getD 100, "draft", none, none, some plantId, now, now⟩ := by
  unfold remoteWorkOrder
  split
  · exact Or.inl rfl
  · rename_i hadmin
    split
    · exact Or.inl rfl
    · rename_i mid _ hok
      refine Or.inr ⟨hadmin, ?_⟩
      unfold createRemoteWorkOrder at hok
      dsimp only at hok
      split at hok
      · cases hok
      · rename_i inserted hins
        obtain ⟨workOrders, hrow, -, -, rfl⟩ := insertWorkOrder_ok hins
        obtain ⟨queued, henq, heq⟩ := Db.Master.map_eq_ok.mp hok
        obtain ⟨outbox, -, rfl⟩ := enqueue_ok henq
        cases heq
        exact ⟨rfl, fun w hw => (Table.mem_insert? hrow).mp hw⟩

theorem credentials_order (authorization : Option String) (now : Int)
    (woId entryId plantId : String) (input : RemoteWorkOrderInput) :
    credentials (remoteWorkOrder cfg.codec h.db cfg.adminToken authorization now woId entryId
      plantId input).1 = credentials h.db := by
  rcases remoteWorkOrder_orders cfg.codec h.db cfg.adminToken authorization now woId entryId
      plantId input with heq | ⟨-, hplants, -⟩
  · rw [heq]
  · rw [credentials, hplants, credentials]

theorem Vouched.step (hvouched : Vouched cfg h) (a : Event) (hfresh : Fresh cfg h a) :
    Vouched cfg (step cfg h a) := by
  have hkeep : ∀ db, credentials db = credentials h.db → Vouched cfg { h with db } :=
    fun db hsame => ⟨hsame.trans hvouched.plants, hvouched.hashes⟩
  cases a with
  | createOrg authorization now id input =>
      apply hkeep
      rw [credentials, (createOrg_frame h.db authorization now id input).1, credentials]
  | order authorization now woId entryId plantId input =>
      exact hkeep _ (credentials_order authorization now woId entryId plantId input)
  | push now authorization req => exact hkeep _ (credentials_push now authorization req)
  | ack now authorization req =>
      apply hkeep
      rw [credentials, (ack_frame now authorization req).1, credentials]
  | enrollPlant authorization id ulid orgId input =>
      rw [Tenants.step]
      rcases enrollPlant_cases cfg h.db authorization id ulid orgId input with
        ⟨e, heq⟩ | ⟨plants, hins, heq⟩
      · rw [heq, enrollmentOf, List.append_nil]
        exact hvouched
      · rw [heq, enrollmentOf]
        constructor
        · change plants.rows.map _ = _
          rw [Table.rows_insert? hins, List.map_append, List.map_append]
          exact congrArg (· ++ _) hvouched.plants
        · rw [List.map_append, List.map_singleton, ← List.concat_eq_append]
          refine hvouched.hashes.concat ?_
          intro hmem
          -- the hash of an issued token is stored with its plant
          obtain ⟨e, he, hhash⟩ := List.mem_map.mp hmem
          have hcred : (e.id, e.orgId, some (cfg.hashToken e.token)) ∈ credentials h.db := by
            rw [hvouched.plants]
            exact List.mem_map_of_mem he
          obtain ⟨p, hp, heq⟩ := List.mem_map.mp hcred
          apply hfresh p hp
          rw [(Prod.mk.inj (Prod.mk.inj heq).2).2, hhash]

/-- By induction along the run. -/
theorem vouched_stateAt (hplants : h.db.plants.rows = []) (hissued : h.issued = [])
    (hrun : Transition.Along (step cfg) (Fresh cfg) h run) (k : ℕ) :
    Vouched cfg (stateAt cfg h run k) :=
  (hrun.take k).invariant (fun _ a hv hf => hv.step a hf) (vouched_start hplants hissued)

section Tokens

variable {e : PlantEnrollment}

theorem Vouched.mem_credentials (hvouched : Vouched cfg h) (he : e ∈ h.issued) :
    (e.id, e.orgId, some (cfg.hashToken e.token)) ∈ credentials h.db := by
  rw [hvouched.plants]
  exact List.mem_map_of_mem he

/-- Two enrollments with one id are one. -/
theorem Vouched.eq_of_id (hvouched : Vouched cfg h) {e' : PlantEnrollment} (he : e ∈ h.issued)
    (he' : e' ∈ h.issued) (hid : e.id = e'.id) : e = e' := by
  have hids : (h.issued.map fun e => e.id).Nodup := by
    have hnodup := nodup_credentials h.db
    rw [hvouched.plants, List.map_map] at hnodup
    exact hnodup
  exact List.inj_on_of_nodup_map hids he he' hid

theorem Vouched.resolve_eq (hvouched : Vouched cfg h) (token : String) :
    resolveTenantByToken cfg.hashToken h.db token =
      (h.issued.find? fun e => cfg.hashToken e.token = cfg.hashToken token).map fun e =>
        (e.id, e.orgId) := by
  rw [resolveTenantByToken_eq, hvouched.plants, List.find?_map, Option.map_map]
  simp only [Function.comp_def, Option.some.injEq]

/-- The token of an enrollment resolves to its plant and its org. -/
theorem Vouched.resolve (hvouched : Vouched cfg h) (he : e ∈ h.issued) :
    resolveTenantByToken cfg.hashToken h.db e.token = some (e.id, e.orgId) := by
  rw [hvouched.resolve_eq]
  cases hfind : h.issued.find? fun e' => cfg.hashToken e'.token = cfg.hashToken e.token with
  | none =>
      have hno := List.find?_eq_none.mp hfind e he
      simp at hno
  | some e' =>
      have hsame : cfg.hashToken e'.token = cfg.hashToken e.token := by
        simpa using List.find?_some hfind
      obtain rfl := List.inj_on_of_nodup_map hvouched.hashes (List.mem_of_find?_eq_some hfind) he
        hsame
      rfl

/-- The token of an enrollment passes for its plant and for no other. -/
theorem Vouched.verify (hvouched : Vouched cfg h) (he : e ∈ h.issued) (plantId : String) :
    verifyPlantToken cfg.hashToken h.db plantId e.token = true ↔ plantId = e.id := by
  rw [verifyPlantToken_iff]
  constructor
  · rintro ⟨orgId, hcred⟩
    rw [hvouched.plants] at hcred
    obtain ⟨e', he', heq⟩ := List.mem_map.mp hcred
    obtain ⟨hid, hrest⟩ := Prod.mk.inj heq
    have hsame : cfg.hashToken e'.token = cfg.hashToken e.token := by
      simpa using (Prod.mk.inj hrest).2
    obtain rfl := List.inj_on_of_nodup_map hvouched.hashes he' he hsame
    exact hid.symm
  · rintro rfl
    exact ⟨e.orgId, hvouched.mem_credentials he⟩

theorem bearer_header (token : String) : bearer (some ("Bearer " ++ token)) = some token := by
  rw [bearer, Option.bind_some, if_pos]
  · simp
  · simp

theorem requirePlant_iff {db : Database} {token plantId : String} :
    requirePlant cfg.hashToken db (some ("Bearer " ++ token)) plantId = .ok () ↔
      verifyPlantToken cfg.hashToken db plantId token = true := by
  rw [requirePlant, bearer_header]
  dsimp only
  split
  · simp [*]
  · simp [*]

/-- A hash that no plant has by some request was no plant's before. -/
theorem hash_notMem_credentials (hplants : h.db.plants.rows = []) (hissued : h.issued = [])
    (hrun : Transition.Along (step cfg) (Fresh cfg) h run) {l k : ℕ} (hlk : l ≤ k) {hash : String}
    (hfresh : ∀ p ∈ (stateAt cfg h run k).db.plants, p.enrollmentTokenHash ≠ some hash) :
    ∀ p ∈ credentials (stateAt cfg h run l).db, p.2.2 ≠ some hash := by
  intro p hp
  rw [(vouched_stateAt hplants hissued hrun l).plants] at hp
  obtain ⟨e, he, rfl⟩ := List.mem_map.mp hp
  have hlater := (vouched_stateAt hplants hissued hrun k).mem_credentials (issued_last hlk he)
  obtain ⟨row, hrow, heq⟩ := List.mem_map.mp hlater
  rw [← (Prod.mk.inj (Prod.mk.inj heq).2).2]
  exact hfresh row hrow

/-- From its enrollment on, whatever else is asked of the cloud, a token lets its own plant sync
and no other, and it opens both doors of the agents to its plant's org. Before the enrollment
no door opens to it. -/
theorem enrolled_token_scope (hplants : h.db.plants.rows = []) (hissued : h.issued = [])
    (hrun : Transition.Along (step cfg) (Fresh cfg) h run) {k : ℕ}
    {authorization : Option String} {id ulid orgId : String} {input : PlantInput}
    (hk : run[k]? = some (.enrollPlant authorization id ulid orgId input))
    (hok : (Cloud.enrollPlant cfg.hashToken cfg.adminToken (stateAt cfg h run k).db authorization
      id ulid orgId input).2 = .ok e) (l : ℕ) :
    e.orgId = orgId ∧
    (k < l →
      (∀ plantId, requirePlant cfg.hashToken (stateAt cfg h run l).db
        (some ("Bearer " ++ e.token)) plantId = .ok () ↔ plantId = e.id) ∧
      resolveScope cfg.hashToken (stateAt cfg h run l).db (some ("Bearer " ++ e.token)) =
        .ok ⟨orgId⟩) ∧
    (l ≤ k →
      (∀ plantId, requirePlant cfg.hashToken (stateAt cfg h run l).db
        (some ("Bearer " ++ e.token)) plantId ≠ .ok ()) ∧
      resolveScope cfg.hashToken (stateAt cfg h run l).db (some ("Bearer " ++ e.token)) =
        .error ⟨401, "unauthorized", "invalid tenant token"⟩) := by
  have hanswer : e.orgId = orgId ∧ e.token = "plant_" ++ ulid := by
    rcases enrollPlant_cases cfg (stateAt cfg h run k).db authorization id ulid orgId input with
      ⟨_, heq⟩ | ⟨_, -, heq⟩
    · rw [heq] at hok
      cases hok
    · rw [heq] at hok
      cases hok
      exact ⟨rfl, rfl⟩
  refine ⟨hanswer.1, ?_, ?_⟩
  · intro hl
    have hissuedNext : e ∈ (stateAt cfg h run (k + 1)).issued := by
      rw [stateAt_succ hk, step]
      dsimp only
      rw [hok]
      exact List.mem_append_right _ List.mem_cons_self
    have he := issued_last hl hissuedNext
    have hvouched := vouched_stateAt hplants hissued hrun l
    refine ⟨fun plantId => ?_, ?_⟩
    · rw [requirePlant_iff, hvouched.verify he]
    · rw [resolveScope, bearer_header]
      dsimp only
      rw [hvouched.resolve he, hanswer.1]
  · intro hl
    have hnone := hash_notMem_credentials hplants hissued hrun hl (hrun.getElem? hk)
    rw [hanswer.2]
    refine ⟨fun plantId => ?_, ?_⟩
    · rw [ne_eq, requirePlant_iff, verifyPlantToken_iff]
      rintro ⟨orgId, hmem⟩
      exact hnone _ hmem rfl
    · have hresolve : resolveTenantByToken cfg.hashToken (stateAt cfg h run l).db
          ("plant_" ++ ulid) = none := by
        rw [resolveTenantByToken_eq, Option.map_eq_none_iff, List.find?_eq_none]
        intro p hp
        simpa using hnone p hp
      rw [resolveScope, bearer_header]
      dsimp only
      rw [hresolve]

/-- A cloud that keeps tokens as they are; its administrator enrolls two plants of one org. -/
def plainCloud : Config := ⟨id, Codec.sample, some "root"⟩

def enrollTwo : List Event :=
  [.createOrg (some "Bearer root") 1 "org" ⟨"ACME", "Acme"⟩,
    .enrollPlant (some "Bearer root") "p1" "AAA" "org" ⟨"P1", "Plant 1"⟩,
    .enrollPlant (some "Bearer root") "p2" "BBB" "org" ⟨"P2", "Plant 2"⟩]

/-- The token of the first plant does not let the second one sync, but both see one org; before
its enrollment it is a stranger's. -/
theorem enrollTwo_token_scope :
    requirePlant plainCloud.hashToken (stateAt plainCloud ⟨{}, []⟩ enrollTwo 3).db
        (some "Bearer plant_AAA") "p2" ≠ .ok () ∧
      resolveScope plainCloud.hashToken (stateAt plainCloud ⟨{}, []⟩ enrollTwo 3).db
        (some "Bearer plant_AAA") = .ok ⟨"org"⟩ ∧
      requirePlant plainCloud.hashToken (stateAt plainCloud ⟨{}, []⟩ enrollTwo 0).db
        (some "Bearer plant_AAA") "p1" ≠ .ok () := by
  have hscope := @enrolled_token_scope plainCloud ⟨{}, []⟩ enrollTwo
    ⟨"p1", "org", "P1", "Plant 1", "plant_AAA"⟩ rfl rfl (by decide) 1 _ _ _ _ _ rfl rfl
  obtain ⟨hsync, hagent⟩ := (hscope 3).2.1 (by decide)
  refine ⟨?_, hagent, ((hscope 0).2.2 (by decide)).1 "p1"⟩
  intro hok
  exact absurd ((hsync "p2").mp hok) (by decide)

end Tokens

end ElectronixMes.Tenants
