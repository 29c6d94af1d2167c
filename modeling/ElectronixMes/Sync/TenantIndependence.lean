import ElectronixMes.Sync.TenantIsolation
import Mathlib.Order.Monotone.Basic

/-!
# Whether one tenant's push depends on another's

Two runs are compared: plant `b` pushes alone, or after a push of plant `a`
whose batch shares no entry id and no order id with its own. They differ when
the first push takes an order of `b`, or when a number that `b` uses is held by
another order in one run only, because order numbers are unique across tenants.
-/

namespace ElectronixMes.Sync

open Db Cloud Relational Serde

/-- The number an entry brings is held by another order. -/
def clashes (c : Codec) (db : Database) (entry : SyncEntry) : Bool :=
  match entryOrder c entry with
  | none => false
  | some wo => numberTaken db.workOrders wo.woNumber wo.id

/-- At each entry that the batch reaches, its number is held by another order in
both states or in neither. Both states then take the entry's transaction. -/
def SameNumbers (c : Codec) (plantId : String) :
    (ℕ → Int) → Database → Database → List SyncEntry → Prop
  | _, _, _, [] => True
  | now, db₁, db₂, e :: rest =>
      if e.id ∈ db₁.appliedEntries then SameNumbers c plantId (now ∘ Nat.succ) db₁ db₂ rest
      else
        clashes c db₂ e = clashes c db₁ e ∧
          (accepts c db₁ e = true → SameNumbers c plantId (now ∘ Nat.succ)
            (afterApply c db₁ (now 0) e (some plantId))
            (afterApply c db₂ (now 0) e (some plantId)) rest)

/-- For a batch of a plant the two states differ in numbers at most. -/
structure Agree (c : Codec) (plantId : String) (entries : List SyncEntry)
    (db₁ db₂ : Database) : Prop where
  parts : db₂.parts = db₁.parts
  routings : db₂.routings = db₁.routings
  claims : ∀ e ∈ entries, e.id ∈ db₂.appliedEntries ↔ e.id ∈ db₁.appliedEntries
  targets : ∀ e ∈ entries, ∀ wo, entryOrder c e = some wo →
    db₂.workOrders.lookup wo.id = db₁.workOrders.lookup wo.id
  rows : ∀ r : WorkOrderRow, r.plantId = some plantId →
    (r ∈ db₂.workOrders ↔ r ∈ db₁.workOrders)

section Lockstep

variable {c : Codec} {plantId : String} {e : SyncEntry} {rest entries : List SyncEntry}
  {db₁ db₂ : Database} {now : ℕ → Int} {applied skipped : ℕ}

theorem Agree.tail (h : Agree c plantId (e :: rest) db₁ db₂) : Agree c plantId rest db₁ db₂ where
  parts := h.parts
  routings := h.routings
  claims e he := h.claims e (List.mem_cons_of_mem _ he)
  targets e he := h.targets e (List.mem_cons_of_mem _ he)
  rows := h.rows

/-- Committing the same entry with the same row keeps the agreement. -/
theorem Agree.commit (h : Agree c plantId entries db₁ db₂) (id : String)
    (row : Option WorkOrderRow) :
    Agree c plantId entries (commitEntry db₁ id row) (commitEntry db₂ id row) := by
  refine ⟨h.parts, h.routings, ?_, ?_, ?_⟩
  · intro e he
    rw [commitEntry_appliedEntries, commitEntry_appliedEntries, Finset.mem_insert,
      Finset.mem_insert, h.claims e he]
  · intro e he wo hwo
    cases row with
    | none => exact h.targets e he wo hwo
    | some w =>
        rw [commitEntry_some_workOrders, commitEntry_some_workOrders]
        by_cases hid : wo.id = Keyed.key w
        · rw [hid, Table.lookup_put_self, Table.lookup_put_self]
        · rw [Table.lookup_put_of_ne hid, Table.lookup_put_of_ne hid, h.targets e he wo hwo]
  · intro r hr
    cases row with
    | none => exact h.rows r hr
    | some w =>
        rw [commitEntry_some_workOrders, commitEntry_some_workOrders, Table.mem_put,
          Table.mem_put, h.rows r hr]

theorem Agree.entryWrite (h : Agree c plantId entries db₁ db₂) (he : e ∈ entries)
    (hclash : clashes c db₂ e = clashes c db₁ e) (t : Int) :
    entryWrite c db₂ t e (some plantId) = entryWrite c db₁ t e (some plantId) := by
  unfold clashes at hclash
  cases hwo : entryOrder c e with
  | none => exact entryWrite_of_no_order hwo db₂ db₁ t (some plantId)
  | some wo =>
      rw [hwo] at hclash
      dsimp only at hclash
      rw [entryWrite_of_order hwo, entryWrite_of_order hwo,
        upsertRow_congr h.parts h.routings (h.targets e he wo hwo) hclash]

theorem loop_of_mem (h : e.id ∈ db₁.appliedEntries) :
    applyBatchLoop c (some plantId) now db₁ (e :: rest) applied skipped =
      applyBatchLoop c (some plantId) (now ∘ Nat.succ) db₁ rest applied (skipped + 1) := by
  rw [applyBatchLoop, applyEntry_of_mem h]

theorem loop_of_error (h : e.id ∉ db₁.appliedEntries) {err : RepoError}
    (hw : entryWrite c db₁ (now 0) e (some plantId) = .error err) :
    applyBatchLoop c (some plantId) now db₁ (e :: rest) applied skipped = (db₁, .error err) := by
  rw [applyBatchLoop, applyEntry_of_notMem h, hw]

theorem loop_of_ok (h : e.id ∉ db₁.appliedEntries) {row : Option WorkOrderRow}
    (hw : entryWrite c db₁ (now 0) e (some plantId) = .ok row) :
    applyBatchLoop c (some plantId) now db₁ (e :: rest) applied skipped =
      applyBatchLoop c (some plantId) (now ∘ Nat.succ) (commitEntry db₁ e.id row) rest
        (applied + 1) skipped := by
  rw [applyBatchLoop, applyEntry_of_notMem h, hw]

theorem afterApply_of_ok (h : e.id ∉ db₁.appliedEntries) {row : Option WorkOrderRow} {t : Int}
    (hw : entryWrite c db₁ t e (some plantId) = .ok row) :
    afterApply c db₁ t e (some plantId) = commitEntry db₁ e.id row := by
  rw [afterApply, applyEntry_of_notMem h, hw]

/-- States that agree, and clash alike at every entry, give one outcome. -/
theorem loop_agree (h : Agree c plantId entries db₁ db₂)
    (hsame : SameNumbers c plantId now db₁ db₂ entries) :
    (applyBatchLoop c (some plantId) now db₂ entries applied skipped).2 =
        (applyBatchLoop c (some plantId) now db₁ entries applied skipped).2 ∧
      ∀ r : WorkOrderRow, r.plantId = some plantId →
        (r ∈ (applyBatchLoop c (some plantId) now db₂ entries applied skipped).1.workOrders ↔
          r ∈ (applyBatchLoop c (some plantId) now db₁ entries applied skipped).1.workOrders) := by
  induction entries generalizing db₁ db₂ now applied skipped with
  | nil => exact ⟨rfl, h.rows⟩
  | cons e rest ih =>
      have hclaim := h.claims e List.mem_cons_self
      unfold SameNumbers at hsame
      by_cases hmem : e.id ∈ db₁.appliedEntries
      · rw [if_pos hmem] at hsame
        rw [loop_of_mem hmem, loop_of_mem (hclaim.mpr hmem)]
        exact ih h.tail hsame
      · have hmem₂ : e.id ∉ db₂.appliedEntries := fun hm => hmem (hclaim.mp hm)
        rw [if_neg hmem] at hsame
        have hwrite := h.entryWrite List.mem_cons_self hsame.1 (now 0)
        cases hw : Db.entryWrite c db₁ (now 0) e (some plantId) with
        | error err =>
            rw [hw] at hwrite
            rw [loop_of_error hmem hw, loop_of_error hmem₂ hwrite]
            exact ⟨rfl, h.rows⟩
        | ok row =>
            rw [hw] at hwrite
            have haccepts : accepts c db₁ e = true := by
              rw [← entryWrite_isOk c db₁ (now 0) e (some plantId), hw]
              rfl
            have hrest := hsame.2 haccepts
            rw [afterApply_of_ok hmem hw, afterApply_of_ok hmem₂ hwrite] at hrest
            rw [loop_of_ok hmem hw, loop_of_ok hmem₂ hwrite]
            exact ih (h.tail.commit e.id row) hrest

end Lockstep

section Visible

variable {c : Codec} {plantId : String} {e : SyncEntry} {rest entries : List SyncEntry}
  {db₁ db₂ : Database} {now : ℕ → Int} {applied skipped : ℕ}

/-- A clash comes from an order and is refused as a conflict. -/
theorem entryWrite_of_clash (plantId : String) (h : clashes c db₁ e = true) (t : Int) :
    (∃ wo, entryOrder c e = some wo) ∧
      ∃ m, entryWrite c db₁ t e (some plantId) = .error (.conflict m) := by
  unfold clashes at h
  cases hwo : entryOrder c e with
  | none =>
      rw [hwo] at h
      cases h
  | some wo =>
      rw [hwo] at h
      dsimp only at h
      rw [entryWrite_of_order hwo, upsertRow, if_pos h]
      exact ⟨⟨wo, rfl⟩, _, rfl⟩

/-- Without a clash an order is written, or refused for another reason. -/
theorem entryWrite_of_no_clash (plantId : String) {wo : WoPayload}
    (hwo : entryOrder c e = some wo) (h : clashes c db₁ e = false) (t : Int) :
    (∃ r, entryWrite c db₁ t e (some plantId) = .ok (some r) ∧ r.plantId = some plantId ∧
        r.updatedAt = t) ∨
      ∃ m, entryWrite c db₁ t e (some plantId) = .error (.invalidReference m) := by
  have hfree : ¬ numberTaken db₁.workOrders wo.woNumber wo.id = true := by
    rw [clashes, hwo] at h
    rw [Bool.not_eq_true]
    exact h
  cases hup : upsertRow db₁ t wo (some plantId) with
  | ok r =>
      left
      have hwrite : entryWrite c db₁ t e (some plantId) = .ok (some r) := by
        rw [entryWrite_of_order hwo, hup]
      exact ⟨r, hwrite, (entryWrite_target hwrite).2, (upsertRow_ok hup).updatedAt⟩
  | error err =>
      right
      have hfk : ∃ table key, err = .foreignKeyViolation table key := by
        rw [upsertRow, if_neg hfree] at hup
        split at hup
        · cases hup
        · split at hup
          · rename_i hrefs
            cases hup
            exact orderRefs_error hrefs
          · cases hup
      obtain ⟨table, key, rfl⟩ := hfk
      rw [entryWrite_of_order hwo, hup]
      exact ⟨_, rfl⟩

/-- The latest write of an order by a plant stays until the end of its batch. -/
theorem written_stays {id : String} {t : Int}
    (h : ∃ r ∈ db₁.workOrders, r.id = id ∧ r.plantId = some plantId ∧ t ≤ r.updatedAt)
    (hclock : ∀ i, t ≤ now i) :
    ∃ r ∈ (applyBatchLoop c (some plantId) now db₁ entries applied skipped).1.workOrders,
      r.id = id ∧ r.plantId = some plantId ∧ t ≤ r.updatedAt := by
  refine applyBatchLoop_induction (P := fun d => ∃ r ∈ d.workOrders,
    r.id = id ∧ r.plantId = some plantId ∧ t ≤ r.updatedAt) ?_ applied skipped h
  rintro d d' i e b - ⟨r, hr, hid, hplant, htime⟩ happ
  cases b with
  | false =>
      rw [applyEntry_false happ]
      exact ⟨r, hr, hid, hplant, htime⟩
  | true =>
      obtain ⟨-, row, hw, rfl⟩ := applyEntry_true happ
      cases row with
      | none => exact ⟨r, hr, hid, hplant, htime⟩
      | some w =>
          by_cases hkey : r.id = w.id
          · refine ⟨w, Table.mem_put_self _ w, hkey ▸ hid, (entryWrite_target hw).2, ?_⟩
            rw [updatedAt_of_entryWrite hw]
            exact hclock i
          · exact ⟨r, Table.mem_put.mpr (Or.inr ⟨hr, hkey⟩), hid, hplant, htime⟩

/-- After a commit every order was last written before the next entry's time. -/
theorem updatedAt_commit {row : Option WorkOrderRow} {t next : Int}
    (hw : entryWrite c db₁ t e (some plantId) = .ok row)
    (hold : ∀ r ∈ db₁.workOrders, r.updatedAt < t) (hlt : t < next) :
    ∀ r ∈ (commitEntry db₁ e.id row).workOrders, r.updatedAt < next := by
  intro r hr
  cases row with
  | none => exact (hold r hr).trans hlt
  | some w =>
      rcases Table.mem_put.mp hr with rfl | ⟨hr, -⟩
      · rw [updatedAt_of_entryWrite hw]
        exact hlt
      · exact (hold r hr).trans hlt

/-- A clash in one state only shows in the outcome: either the errors differ, or
one run has written an order that the other has not. -/
theorem clash_visible (hmem₁ : e.id ∉ db₁.appliedEntries) (hmem₂ : e.id ∉ db₂.appliedEntries)
    (hclash₁ : clashes c db₁ e = true) (hclash₂ : clashes c db₂ e = false)
    (hclock : ∀ i, now 0 ≤ now i) (hold : ∀ r ∈ db₁.workOrders, r.updatedAt < now 0)
    (hres : (applyBatchLoop c (some plantId) now db₂ (e :: rest) applied skipped).2.mapError
        repoErr =
      (applyBatchLoop c (some plantId) now db₁ (e :: rest) applied skipped).2.mapError repoErr)
    (hrows : ∀ r : WorkOrderRow, r.plantId = some plantId →
      (r ∈ (applyBatchLoop c (some plantId) now db₂ (e :: rest) applied skipped).1.workOrders ↔
        r ∈ (applyBatchLoop c (some plantId) now db₁ (e :: rest) applied skipped).1.workOrders)) :
    False := by
  obtain ⟨⟨wo, hwo⟩, m, hw₁⟩ := entryWrite_of_clash plantId hclash₁ (now 0)
  rw [loop_of_error hmem₁ hw₁] at hres hrows
  rcases entryWrite_of_no_clash plantId hwo hclash₂ (now 0) with
    ⟨w, hw₂, hplant, htime⟩ | ⟨m', hw₂⟩
  · rw [loop_of_ok hmem₂ hw₂] at hrows
    have hwritten : ∃ r ∈ (commitEntry db₂ e.id (some w)).workOrders,
        r.id = w.id ∧ r.plantId = some plantId ∧ now 0 ≤ r.updatedAt :=
      ⟨w, Table.mem_put_self _ w, rfl, hplant, htime.ge⟩
    obtain ⟨r, hr, -, hrplant, hrtime⟩ := written_stays hwritten
      fun i => hclock (i + 1)
    exact absurd hrtime (not_le.mpr (hold r ((hrows r hrplant).mp hr)))
  · rw [loop_of_error hmem₂ hw₂] at hres
    have hstatus := congrArg ApiErr.status (Except.error.inj hres)
    exact absurd hstatus (by simp [repoErr])

/-- Under a clock that advances, one outcome means that no entry clashes in one
state only. -/
theorem sameNumbers_of_outcome (h : Agree c plantId entries db₁ db₂)
    (hclock : ∀ i, now i < now (i + 1))
    (hold₁ : ∀ r ∈ db₁.workOrders, r.updatedAt < now 0)
    (hold₂ : ∀ r ∈ db₂.workOrders, r.updatedAt < now 0)
    (hres : (applyBatchLoop c (some plantId) now db₂ entries applied skipped).2.mapError repoErr =
      (applyBatchLoop c (some plantId) now db₁ entries applied skipped).2.mapError repoErr)
    (hrows : ∀ r : WorkOrderRow, r.plantId = some plantId →
      (r ∈ (applyBatchLoop c (some plantId) now db₂ entries applied skipped).1.workOrders ↔
        r ∈ (applyBatchLoop c (some plantId) now db₁ entries applied skipped).1.workOrders)) :
    SameNumbers c plantId now db₁ db₂ entries := by
  induction entries generalizing db₁ db₂ now applied skipped with
  | nil => trivial
  | cons e rest ih =>
      have hlt : now 0 < (now ∘ Nat.succ) 0 := hclock 0
      have hclock' : ∀ i, (now ∘ Nat.succ) i < (now ∘ Nat.succ) (i + 1) :=
        fun i => hclock (i + 1)
      have hfirst : ∀ i, now 0 ≤ now i :=
        fun i => (strictMono_nat_of_lt_succ hclock).monotone (Nat.zero_le i)
      have hclaim := h.claims e List.mem_cons_self
      unfold SameNumbers
      by_cases hmem : e.id ∈ db₁.appliedEntries
      · rw [if_pos hmem]
        rw [loop_of_mem hmem, loop_of_mem (hclaim.mpr hmem)] at hres hrows
        exact ih h.tail hclock' (fun r hr => (hold₁ r hr).trans hlt)
          (fun r hr => (hold₂ r hr).trans hlt) hres hrows
      · have hmem₂ : e.id ∉ db₂.appliedEntries := fun hm => hmem (hclaim.mp hm)
        rw [if_neg hmem]
        have hclash : clashes c db₂ e = clashes c db₁ e := by
          cases h₁ : clashes c db₁ e <;> cases h₂ : clashes c db₂ e
          · rfl
          · exact (clash_visible hmem₂ hmem h₂ h₁ hfirst hold₂ hres.symm
              fun r hr => (hrows r hr).symm).elim
          · exact (clash_visible hmem hmem₂ h₁ h₂ hfirst hold₁ hres hrows).elim
          · rfl
        refine ⟨hclash, ?_⟩
        intro haccepts
        rw [← entryWrite_isOk c db₁ (now 0) e (some plantId)] at haccepts
        have hwrite := h.entryWrite List.mem_cons_self hclash (now 0)
        cases hw : Db.entryWrite c db₁ (now 0) e (some plantId) with
        | error err =>
            rw [hw] at haccepts
            cases haccepts
        | ok row =>
            rw [hw] at hwrite
            rw [loop_of_ok hmem hw, loop_of_ok hmem₂ hwrite] at hres hrows
            rw [afterApply_of_ok hmem hw, afterApply_of_ok hmem₂ hwrite]
            exact ih (h.tail.commit e.id row) hclock' (updatedAt_commit hw hold₁ hlt)
              (updatedAt_commit hwrite hold₂ hlt) hres hrows

end Visible

section Push

variable {hashToken : String → String} {c : Codec} {db : Database}

/-- The batches share no entry id and no order id. -/
structure DisjointBatches (c : Codec) (first second : List SyncEntry) : Prop where
  entries : ∀ a ∈ first, ∀ b ∈ second, a.id ≠ b.id
  orders : ∀ a ∈ first, ∀ b ∈ second, ∀ id, target c a = some id → target c b ≠ some id

/-- The push of `b` has the same response after the push of `a` as without it,
and leaves the same orders attributed to its plant. -/
def SameOutcome (hashToken : String → String) (c : Codec) (db : Database)
    (nowA : ℕ → Int) (authA : Option String) (a : PushRequest)
    (nowB : ℕ → Int) (authB : Option String) (b : PushRequest) : Prop :=
  let alone := push hashToken c db nowB authB b
  let after := push hashToken c (push hashToken c db nowA authA a).1 nowB authB b
  after.2 = alone.2 ∧ ∀ r : WorkOrderRow, r.plantId = some b.plantId →
    (r ∈ after.1.workOrders ↔ r ∈ alone.1.workOrders)

/-- A push leaves the order alone that none of its entries writes. -/
theorem push_lookup (hashToken : String → String) (now : ℕ → Int)
    (authorization : Option String) {req : PushRequest} {id : String}
    (h : ∀ e ∈ req.entries, target c e ≠ some id) :
    (push hashToken c db now authorization req).1.workOrders.lookup id =
      db.workOrders.lookup id := by
  refine push_induction
    (P := fun d => d.workOrders.lookup id = db.workOrders.lookup id) ?_ (fun _ _ hd => hd) rfl
  intro d d' i e b he hd happ
  cases b with
  | false => rw [applyEntry_false happ, hd]
  | true =>
      obtain ⟨-, row, hw, rfl⟩ := applyEntry_true happ
      cases row with
      | none => exact hd
      | some w =>
          rw [commitEntry_some_workOrders, Table.lookup_put_of_ne, hd]
          rintro rfl
          exact h e he (entryWrite_target hw).1

/-- A push claims the ids of its own entries only. -/
theorem push_claims {now : ℕ → Int} {authorization : Option String} {req : PushRequest}
    {id : String} (h : ∀ e ∈ req.entries, e.id ≠ id) :
    id ∈ (push hashToken c db now authorization req).1.appliedEntries ↔
      id ∈ db.appliedEntries := by
  refine push_induction
    (P := fun d => id ∈ d.appliedEntries ↔ id ∈ db.appliedEntries) ?_ (fun _ _ hd => hd) Iff.rfl
  intro d d' i e b he hd happ
  cases b with
  | false => rw [applyEntry_false happ, hd]
  | true =>
      obtain ⟨-, row, -, rfl⟩ := applyEntry_true happ
      rw [commitEntry_appliedEntries, Finset.mem_insert, hd, or_iff_right (h e he).symm]

theorem push_refs {now : ℕ → Int} {authorization : Option String} {req : PushRequest} :
    (push hashToken c db now authorization req).1.parts = db.parts ∧
      (push hashToken c db now authorization req).1.routings = db.routings := by
  refine push_induction
    (P := fun d => d.parts = db.parts ∧ d.routings = db.routings) ?_ (fun _ _ hd => hd) ⟨rfl, rfl⟩
  intro d d' i e b _ hd happ
  rw [applyEntry_frame happ]
  exact hd

theorem mem_of_push {now : ℕ → Int} {authorization : Option String} {req : PushRequest}
    {r : WorkOrderRow} (hr : r ∈ (push hashToken c db now authorization req).1.workOrders) :
    r ∈ db.workOrders ∨ r.plantId = some req.plantId ∧ ∃ i, r.updatedAt = now i := by
  have hall : ∀ r ∈ (push hashToken c db now authorization req).1.workOrders,
      r ∈ db.workOrders ∨ r.plantId = some req.plantId ∧ ∃ i, r.updatedAt = now i := by
    refine push_induction (P := fun d => ∀ r ∈ d.workOrders,
      r ∈ db.workOrders ∨ r.plantId = some req.plantId ∧ ∃ i, r.updatedAt = now i) ?_
      (fun _ _ hd => hd) (fun r hr => Or.inl hr)
    intro d d' i e b _ hd happ r hr
    cases b with
    | false =>
        rw [applyEntry_false happ] at hr
        exact hd r hr
    | true =>
        obtain ⟨-, row, hw, rfl⟩ := applyEntry_true happ
        cases row with
        | none => exact hd r hr
        | some w =>
            rcases Table.mem_put.mp hr with rfl | ⟨hr, -⟩
            · exact Or.inr ⟨(entryWrite_target hw).2, i, updatedAt_of_entryWrite hw⟩
            · exact hd r hr
  exact hall r hr

variable {nowA nowB : ℕ → Int} {authA authB : Option String} {a b : PushRequest}

/-- A push that spares the orders of `b` leaves a state that agrees for it. -/
theorem agree_push (hne : a.plantId ≠ b.plantId) (hdisj : DisjointBatches c a.entries b.entries)
    (hiso : Isolated (fun r => r.plantId = some b.plantId) ∅ db
      (push hashToken c db nowA authA a).1) :
    Agree c b.plantId b.entries db (push hashToken c db nowA authA a).1 := by
  refine ⟨push_refs.1, push_refs.2, ?_, ?_, ?_⟩
  · intro e he
    exact push_claims fun e' he' => hdisj.entries e' he' e he
  · intro e he wo hwo
    apply push_lookup
    intro e' he' htarget
    apply hdisj.orders e' he' e he wo.id htarget
    rw [target, hwo, Option.map_some]
  · intro r hr
    constructor
    · intro hmem
      rcases mem_of_push hmem with hmem | ⟨hplant, -⟩
      · exact hmem
      · rw [hr, Option.some.injEq] at hplant
        exact absurd hplant.symm hne
    · intro hmem
      exact hiso.orders r hmem hr

/-- One outcome needs a first push that spares the orders of `b`: an order that
it takes is in no entry of `b`, so it stays lost. -/
theorem isolated_of_sameOutcome (hdisj : DisjointBatches c a.entries b.entries)
    (h : SameOutcome hashToken c db nowA authA a nowB authB b) :
    Isolated (fun r => r.plantId = some b.plantId) ∅ db
      (push hashToken c db nowA authA a).1 := by
  refine ⟨?_, fun id hid => absurd hid (Set.notMem_empty id)⟩
  intro r hr hplant
  have hlookup : db.workOrders.lookup r.id = some r := Table.lookup_of_mem hr
  by_cases htouched : ∃ e ∈ b.entries, target c e = some r.id
  · obtain ⟨e, he, htarget⟩ := htouched
    have huntouched : ∀ e' ∈ a.entries, target c e' ≠ some r.id :=
      fun e' he' h' => hdisj.orders e' he' e he r.id h' htarget
    rw [← push_lookup hashToken nowA authA huntouched] at hlookup
    exact (Table.lookup_eq_some.mp hlookup).1
  · have hfree : ∀ e ∈ b.entries, target c e ≠ some r.id :=
      fun e he htarget => htouched ⟨e, he, htarget⟩
    have halone : r ∈ (push hashToken c db nowB authB b).1.workOrders := by
      rw [← push_lookup hashToken nowB authB hfree] at hlookup
      exact (Table.lookup_eq_some.mp hlookup).1
    have hafter := Table.lookup_of_mem ((h.2 r hplant).mpr halone)
    rw [key_workOrder, push_lookup hashToken nowB authB hfree] at hafter
    exact (Table.lookup_eq_some.mp hafter).1

/-- The first push takes no order of `b`, and no entry that the second reaches
has its number held by another order in one of the two states only. -/
def Independent (hashToken : String → String) (c : Codec) (db : Database)
    (nowA : ℕ → Int) (authA : Option String) (a : PushRequest)
    (nowB : ℕ → Int) (b : PushRequest) : Prop :=
  (maxBatch < a.entries.length ∨
    SparesBatch c (fun r => r.plantId = some b.plantId) ∅ a.plantId nowA db a.entries) ∧
  (maxBatch < b.entries.length ∨
    SameNumbers c b.plantId nowB db (push hashToken c db nowA authA a).1 b.entries)

/-- The times of the second push are later than all before, and strictly
increasing. -/
structure ClockAhead (db : Database) (nowA nowB : ℕ → Int) : Prop where
  increasing : ∀ i, nowB i < nowB (i + 1)
  stored : ∀ r ∈ db.workOrders, r.updatedAt < nowB 0
  first : ∀ i, nowA i < nowB 0

theorem sameOutcome_of_independent (hne : a.plantId ≠ b.plantId)
    (hdisj : DisjointBatches c a.entries b.entries)
    (hauthA : requirePlant hashToken db authA a.plantId = .ok ())
    (hauthB : requirePlant hashToken db authB b.plantId = .ok ())
    (h : Independent hashToken c db nowA authA a nowB b) :
    SameOutcome hashToken c db nowA authA a nowB authB b := by
  have hkeep : ∀ r : WorkOrderRow, r.plantId = some b.plantId → r.plantId ≠ some a.plantId := by
    intro r hr heq
    rw [hr, Option.some.injEq] at heq
    exact hne heq.symm
  have hagree := agree_push hne hdisj ((push_spares_iff hkeep hauthA).mpr h.1)
  have hauthB' := hauthB
  rw [← requirePlant_push nowA authA a] at hauthB'
  rcases h.2 with hlarge | hsame
  · unfold SameOutcome
    dsimp only
    rw [push_too_large hauthB hlarge, push_too_large hauthB' hlarge]
    exact ⟨rfl, hagree.rows⟩
  · rcases lt_or_ge maxBatch b.entries.length with hlarge | hlen
    · unfold SameOutcome
      dsimp only
      rw [push_too_large hauthB hlarge, push_too_large hauthB' hlarge]
      exact ⟨rfl, hagree.rows⟩
    · obtain ⟨horders, -, hres⟩ := push_accepted c nowB hauthB hlen
      obtain ⟨horders', -, hres'⟩ := push_accepted c nowB hauthB' hlen
      obtain ⟨hloop, hrows⟩ := loop_agree hagree hsame
      refine ⟨?_, ?_⟩
      · rw [hres, hres']
        exact congrArg (Except.mapError repoErr) hloop
      · intro r hr
        rw [horders, horders']
        exact hrows r hr

theorem independent_of_sameOutcome (hne : a.plantId ≠ b.plantId)
    (hdisj : DisjointBatches c a.entries b.entries)
    (hauthA : requirePlant hashToken db authA a.plantId = .ok ())
    (hauthB : requirePlant hashToken db authB b.plantId = .ok ())
    (hclock : ClockAhead db nowA nowB)
    (h : SameOutcome hashToken c db nowA authA a nowB authB b) :
    Independent hashToken c db nowA authA a nowB b := by
  have hkeep : ∀ r : WorkOrderRow, r.plantId = some b.plantId → r.plantId ≠ some a.plantId := by
    intro r hr heq
    rw [hr, Option.some.injEq] at heq
    exact hne heq.symm
  have hiso := isolated_of_sameOutcome hdisj h
  refine ⟨(push_spares_iff hkeep hauthA).mp hiso, ?_⟩
  rcases lt_or_ge maxBatch b.entries.length with hlarge | hlen
  · exact Or.inl hlarge
  · right
    have hauthB' := hauthB
    rw [← requirePlant_push nowA authA a] at hauthB'
    obtain ⟨horders, -, hres⟩ := push_accepted c nowB hauthB hlen
    obtain ⟨horders', -, hres'⟩ := push_accepted c nowB hauthB' hlen
    have hold : ∀ r ∈ (push hashToken c db nowA authA a).1.workOrders, r.updatedAt < nowB 0 := by
      intro r hr
      rcases mem_of_push hr with hr | ⟨-, i, htime⟩
      · exact hclock.stored r hr
      · rw [htime]
        exact hclock.first i
    apply sameNumbers_of_outcome (agree_push hne hdisj hiso) hclock.increasing hclock.stored hold
    · have hsame := h.1
      rw [hres, hres'] at hsame
      exact hsame
    · intro r hr
      have hrow := h.2 r hr
      rw [horders, horders'] at hrow
      exact hrow

/-- Two plants push batches that share no entry id and no order id. When the
pushes are independent, the second has the same outcome with and without the
first; and under a clock that advances, only then. -/
theorem push_outcome_independent (hashToken : String → String) (c : Codec) (db : Database)
    (nowA nowB : ℕ → Int) (authA authB : Option String) (a b : PushRequest)
    (hne : a.plantId ≠ b.plantId) (hdisj : DisjointBatches c a.entries b.entries)
    (hauthA : requirePlant hashToken db authA a.plantId = .ok ())
    (hauthB : requirePlant hashToken db authB b.plantId = .ok ()) :
    (Independent hashToken c db nowA authA a nowB b →
      SameOutcome hashToken c db nowA authA a nowB authB b) ∧
    (ClockAhead db nowA nowB →
      (SameOutcome hashToken c db nowA authA a nowB authB b ↔
        Independent hashToken c db nowA authA a nowB b)) := by
  refine ⟨sameOutcome_of_independent hne hdisj hauthA hauthB, ?_⟩
  intro hclock
  exact ⟨independent_of_sameOutcome hne hdisj hauthA hauthB hclock,
    sameOutcome_of_independent hne hdisj hauthA hauthB⟩

end Push

section Sample

/-- Both plants number an order `WO-1`; the second push fails because of the
first. -/
theorem shared_number_refused :
    ¬ ∀ (db : Database) (nowA nowB : ℕ → Int) (authA authB : Option String) (a b : PushRequest),
        OtherOrg db a.plantId b.plantId →
        DisjointBatches Codec.sample a.entries b.entries →
        (∀ e ∈ a.entries ++ b.entries, ∀ wo, entryOrder Codec.sample e = some wo →
          wo.partId ∈ db.parts) →
        requirePlant sampleHash db authA a.plantId = .ok () →
        requirePlant sampleHash db authB b.plantId = .ok () →
        SameOutcome sampleHash Codec.sample db nowA authA a nowB authB b := by
  intro hall
  have hsame := hall sampleCloud (fun _ => 1) (fun i => i + 10) (some "Bearer plant_a")
    (some "Bearer plant_b") ⟨"a", [sampleEntry "entry_a" "wo_a" "WO-1"]⟩
    ⟨"b", [sampleEntry "entry_b" "wo_b" "WO-1"]⟩
    ⟨_, List.mem_cons_self, _, List.mem_cons_of_mem _ List.mem_cons_self, rfl, rfl, by decide⟩
    ⟨by decide, by
      intro e he e' he' id htarget
      obtain rfl := List.mem_singleton.mp he
      obtain rfl := List.mem_singleton.mp he'
      have hid : id = "wo_a" := (Option.some.inj htarget).symm
      rw [hid]
      decide +kernel⟩
    (by
      intro e he wo hwo
      have hpart : wo.partId = "part" := by
        rcases List.mem_cons.mp he with rfl | he
        · cases hwo
          rfl
        · obtain rfl := List.mem_singleton.mp he
          cases hwo
          rfl
      rw [hpart]
      decide)
    (by decide +kernel) (by decide +kernel)
  have halone : (push sampleHash Codec.sample sampleCloud (fun i => i + 10)
      (some "Bearer plant_b") ⟨"b", [sampleEntry "entry_b" "wo_b" "WO-1"]⟩).2.isOk = true := by
    decide +kernel
  rw [← hsame.1] at halone
  exact absurd halone (by decide +kernel)

/-- With different numbers the pushes are independent. -/
theorem distinct_numbers_independent :
    SameOutcome sampleHash Codec.sample sampleCloud (fun _ => 1) (some "Bearer plant_a")
      ⟨"a", [sampleEntry "entry_a" "wo_a" "WO-1"]⟩ (fun i => i + 10) (some "Bearer plant_b")
      ⟨"b", [sampleEntry "entry_b" "wo_b" "WO-2"]⟩ ∧
    Independent sampleHash Codec.sample sampleCloud (fun _ => 1) (some "Bearer plant_a")
      ⟨"a", [sampleEntry "entry_a" "wo_a" "WO-1"]⟩ (fun i => i + 10)
      ⟨"b", [sampleEntry "entry_b" "wo_b" "WO-2"]⟩ := by
  have hdisj : DisjointBatches Codec.sample [sampleEntry "entry_a" "wo_a" "WO-1"]
      [sampleEntry "entry_b" "wo_b" "WO-2"] := by
    refine ⟨by decide, ?_⟩
    intro e he e' he' id htarget
    obtain rfl := List.mem_singleton.mp he
    obtain rfl := List.mem_singleton.mp he'
    have hid : id = "wo_a" := (Option.some.inj htarget).symm
    rw [hid]
    decide +kernel
  have hboth := push_outcome_independent sampleHash Codec.sample sampleCloud (fun _ => 1)
    (fun i => i + 10) (some "Bearer plant_a") (some "Bearer plant_b")
    ⟨"a", [sampleEntry "entry_a" "wo_a" "WO-1"]⟩ ⟨"b", [sampleEntry "entry_b" "wo_b" "WO-2"]⟩
    (by decide) hdisj (by decide +kernel) (by decide +kernel)
  have hsame := hboth.1 ⟨Or.inr ?_, Or.inr ?_⟩
  · refine ⟨hsame, (hboth.2 ⟨?_, ?_, ?_⟩).mp hsame⟩
    · intro i
      omega
    · exact fun r hr => absurd hr (Table.notMem_empty r)
    · exact fun _ => by decide
  · unfold SparesBatch
    rw [if_neg (by decide), if_pos (by decide +kernel)]
    exact ⟨⟨id, fun r hr => absurd hr (Table.notMem_empty r)⟩, trivial⟩
  · unfold SameNumbers
    rw [if_neg (by decide)]
    exact ⟨by decide +kernel, fun _ => trivial⟩

end Sample

end ElectronixMes.Sync
