import ElectronixMes.Cloud.Sync

/-!
# What one tenant's push does to another's data

A push names entry ids and order ids freely, while only its plant is
authenticated. The apply is keyed by the order id alone, and the ledger by the
entry id alone, so a push leaves another org's orders and entries alone exactly
when no entry it newly applies uses an id of theirs.
-/

namespace ElectronixMes.Sync

open Db Cloud Relational Serde

/-- The two plants are enrolled under different orgs. -/
def OtherOrg (db : Database) (plantId other : String) : Prop :=
  ∃ p ∈ db.plants, ∃ q ∈ db.plants, p.id = plantId ∧ q.id = other ∧ p.orgId ≠ q.orgId

/-- The order is attributed to a plant of another org. -/
def Foreign (db : Database) (plantId : String) (r : WorkOrderRow) : Prop :=
  ∃ other, r.plantId = some other ∧ OtherOrg db plantId other

/-- No order to be kept changes, and no entry that is still waiting to be pushed
becomes a replay. -/
structure Isolated (keep : WorkOrderRow → Prop) (waiting : Set String) (db db' : Database) :
    Prop where
  orders : ∀ r ∈ db.workOrders, keep r → r ∈ db'.workOrders
  entries : ∀ id ∈ waiting, id ∉ db.appliedEntries → id ∉ db'.appliedEntries

/-- The order id an entry writes. -/
def target (c : Codec) (entry : SyncEntry) : Option String :=
  (entryOrder c entry).map WoPayload.id

/-- The entry uses none of the ids: neither one of an order to be kept, nor one
of a waiting entry. -/
def Spares (c : Codec) (keep : WorkOrderRow → Prop) (waiting : Set String) (db : Database)
    (entry : SyncEntry) : Prop :=
  entry.id ∉ waiting ∧ ∀ r ∈ db.workOrders, keep r → target c entry ≠ some r.id

/-- Each entry that the batch newly applies spares the ids, in the state it
finds. A claimed entry is skipped, and one that fails a check ends the batch. -/
def SparesBatch (c : Codec) (keep : WorkOrderRow → Prop) (waiting : Set String)
    (plantId : String) : (ℕ → Int) → Database → List SyncEntry → Prop
  | _, _, [] => True
  | now, db, e :: rest =>
      if e.id ∈ db.appliedEntries then
        SparesBatch c keep waiting plantId (now ∘ Nat.succ) db rest
      else if accepts c db e then
        Spares c keep waiting db e ∧ SparesBatch c keep waiting plantId (now ∘ Nat.succ)
          (afterApply c db (now 0) e (some plantId)) rest
      else True

section Entry

variable {c : Codec} {plantId : String} {keep : WorkOrderRow → Prop} {waiting : Set String}
  {db db' : Database} {now : Int} {e : SyncEntry}

theorem Foreign.ne {r : WorkOrderRow} (h : Foreign db plantId r) : r.plantId ≠ some plantId := by
  obtain ⟨other, hother, p, hp, q, hq, hpid, hqid, hne⟩ := h
  intro heq
  rw [hother, Option.some.injEq] at heq
  exact hne (congrArg PlantRow.orgId (Table.eq_of_key_eq hp hq (by simp [hpid, hqid, heq])))

/-- The row an entry writes is the one it targets, and becomes the pusher's. -/
theorem entryWrite_target {r : WorkOrderRow}
    (h : entryWrite c db now e (some plantId) = .ok (some r)) :
    target c e = some r.id ∧ r.plantId = some plantId := by
  obtain ⟨wo, hwo, hup⟩ := entryWrite_ok_some h
  have hrow := upsertRow_ok hup
  refine ⟨?_, ?_⟩
  · rw [target, hwo, Option.map_some, hrow.id]
  · rcases hrow.kept with ⟨old, -, -, -, -, -, hplant⟩ | ⟨-, -, -, -, hplant⟩
    · rw [hplant]
      rfl
    · exact hplant

theorem entryWrite_target_none (h : entryWrite c db now e (some plantId) = .ok none) :
    target c e = none := by
  unfold entryWrite at h
  split at h
  · split at h
    · cases h
    · split at h <;> cases h
  · rename_i hagg
    rw [target, entryOrder, if_neg hagg, Option.map_none]

/-- A row present after an entry was there before, or is the pusher's. -/
theorem mem_of_applyEntry {b : Bool} (h : applyEntry c db now e (some plantId) = .ok (db', b))
    {r : WorkOrderRow} (hr : r ∈ db'.workOrders) :
    r ∈ db.workOrders ∨ r.plantId = some plantId := by
  cases b with
  | false =>
      rw [applyEntry_false h] at hr
      exact Or.inl hr
  | true =>
      obtain ⟨-, row, hw, rfl⟩ := applyEntry_true h
      cases row with
      | none => exact Or.inl hr
      | some w =>
          rcases Table.mem_put.mp hr with rfl | ⟨hr, -⟩
          · exact Or.inr (entryWrite_target hw).2
          · exact Or.inl hr

theorem applied_of_applyEntry {b : Bool}
    (h : applyEntry c db now e (some plantId) = .ok (db', b)) :
    db.appliedEntries ⊆ db'.appliedEntries := by
  cases b with
  | false => rw [applyEntry_false h]
  | true =>
      obtain ⟨-, row, -, rfl⟩ := applyEntry_true h
      exact Finset.subset_insert _ _

/-- One newly applied entry isolates exactly when it spares the ids. -/
theorem isolated_entry_iff (hkeep : ∀ r, keep r → r.plantId ≠ some plantId)
    (h : applyEntry c db now e (some plantId) = .ok (db', true)) :
    Isolated keep waiting db db' ↔ Spares c keep waiting db e := by
  obtain ⟨hnot, row, hw, rfl⟩ := applyEntry_true h
  constructor
  · intro hiso
    refine ⟨?_, ?_⟩
    · intro hwait
      exact hiso.entries e.id hwait hnot (Finset.mem_insert_self _ _)
    · intro r hr hk htarget
      cases row with
      | none =>
          rw [entryWrite_target_none hw] at htarget
          cases htarget
      | some w =>
          obtain ⟨hid, hplant⟩ := entryWrite_target hw
          rw [hid, Option.some.injEq] at htarget
          rcases Table.mem_put.mp (hiso.orders r hr hk) with rfl | ⟨-, hne⟩
          · exact hkeep _ hk hplant
          · exact hne htarget.symm
  · rintro ⟨hwait, hown⟩
    constructor
    · intro r hr hk
      cases row with
      | none => exact hr
      | some w =>
          refine Table.mem_put.mpr (Or.inr ⟨hr, ?_⟩)
          intro hkey
          apply hown r hr hk
          rw [(entryWrite_target hw).1]
          exact congrArg some hkey.symm
    · intro id hid hnotApplied hmem
      rcases Finset.mem_insert.mp hmem with rfl | hmem
      · exact hwait hid
      · exact hnotApplied hmem

end Entry

section Batch

variable {c : Codec} {plantId : String} {keep : WorkOrderRow → Prop} {waiting : Set String}
  {db db' db'' : Database} {now : ℕ → Int} {entries : List SyncEntry} {applied skipped : ℕ}

theorem Isolated.trans (h : Isolated keep waiting db db') (h' : Isolated keep waiting db' db'') :
    Isolated keep waiting db db'' := by
  constructor
  · intro r hr hk
    exact h'.orders r (h.orders r hr hk) hk
  · intro id hid hnot
    exact h'.entries id hid (h.entries id hid hnot)

theorem mem_of_applyBatchLoop {r : WorkOrderRow}
    (hr : r ∈ (applyBatchLoop c (some plantId) now db entries applied skipped).1.workOrders) :
    r ∈ db.workOrders ∨ r.plantId = some plantId := by
  have hall : ∀ r ∈ (applyBatchLoop c (some plantId) now db entries applied skipped).1.workOrders,
      r ∈ db.workOrders ∨ r.plantId = some plantId := by
    apply applyBatchLoop_induction
      (P := fun d => ∀ r ∈ d.workOrders, r ∈ db.workOrders ∨ r.plantId = some plantId)
    · intro d d' i e b _ hd happ r hr
      exact (mem_of_applyEntry happ hr).elim (hd r) Or.inr
    · intro r hr
      exact Or.inl hr
  exact hall r hr

theorem applied_of_applyBatchLoop :
    db.appliedEntries ⊆
      (applyBatchLoop c (some plantId) now db entries applied skipped).1.appliedEntries := by
  apply applyBatchLoop_induction (P := fun d => db.appliedEntries ⊆ d.appliedEntries)
  · intro d d' i e b _ hd happ
    exact hd.trans (applied_of_applyEntry happ)
  · exact Finset.Subset.refl _

/-- Isolation up to the end of a batch splits at its first entry: rows of other
plants never come back once they are lost, and claims are never given back. -/
theorem isolated_cons_iff (hkeep : ∀ r, keep r → r.plantId ≠ some plantId) {b : Bool}
    {e : SyncEntry} {t : Int} (h : applyEntry c db t e (some plantId) = .ok (db', b)) :
    Isolated keep waiting db
        (applyBatchLoop c (some plantId) now db' entries applied skipped).1 ↔
      Isolated keep waiting db db' ∧ Isolated keep waiting db'
        (applyBatchLoop c (some plantId) now db' entries applied skipped).1 := by
  constructor
  · intro hiso
    refine ⟨⟨?_, ?_⟩, ⟨?_, ?_⟩⟩
    · intro r hr hk
      exact (mem_of_applyBatchLoop (hiso.orders r hr hk)).resolve_right (hkeep r hk)
    · intro id hid hnot hmem
      exact hiso.entries id hid hnot (applied_of_applyBatchLoop hmem)
    · intro r hr hk
      exact hiso.orders r ((mem_of_applyEntry h hr).resolve_right (hkeep r hk)) hk
    · intro id hid hnot
      exact hiso.entries id hid fun hmem => hnot (applied_of_applyEntry h hmem)
  · rintro ⟨hfirst, hrest⟩
    exact hfirst.trans hrest

theorem isolated_batch_iff (hkeep : ∀ r, keep r → r.plantId ≠ some plantId) :
    Isolated keep waiting db
        (applyBatchLoop c (some plantId) now db entries applied skipped).1 ↔
      SparesBatch c keep waiting plantId now db entries := by
  induction entries generalizing db now applied skipped with
  | nil => exact ⟨fun _ => trivial, fun _ => ⟨fun r hr _ => hr, fun id _ h => h⟩⟩
  | cons e rest ih =>
      unfold applyBatchLoop SparesBatch
      by_cases hmem : e.id ∈ db.appliedEntries
      · rw [applyEntry_of_mem hmem, if_pos hmem]
        exact ih
      · have hchecks := entryWrite_isOk c db (now 0) e (some plantId)
        rw [if_neg hmem, ← hchecks]
        cases hw : entryWrite c db (now 0) e (some plantId) with
        | error err =>
            rw [applyEntry_of_notMem hmem, hw]
            exact ⟨fun _ => trivial, fun _ => ⟨fun r hr _ => hr, fun id _ h => h⟩⟩
        | ok row =>
            have happ : applyEntry c db (now 0) e (some plantId) =
                .ok (commitEntry db e.id row, true) := by
              rw [applyEntry_of_notMem hmem, hw]
            have hafter : afterApply c db (now 0) e (some plantId) = commitEntry db e.id row := by
              rw [afterApply, happ]
            have hok : (Except.ok row : Except RepoError _).isOk = true := rfl
            rw [happ, hafter, if_pos hok]
            dsimp only
            rw [isolated_cons_iff hkeep happ, isolated_entry_iff hkeep happ, ih]

end Batch

/-- An accepted push isolates exactly when it is refused for its size or each
entry that it newly applies spares the ids. -/
theorem push_spares_iff {hashToken : String → String} {c : Codec} {db : Database}
    {now : ℕ → Int} {authorization : Option String} {req : PushRequest}
    {keep : WorkOrderRow → Prop} {waiting : Set String}
    (hkeep : ∀ r, keep r → r.plantId ≠ some req.plantId)
    (hauth : requirePlant hashToken db authorization req.plantId = .ok ()) :
    Isolated keep waiting db (push hashToken c db now authorization req).1 ↔
      maxBatch < req.entries.length ∨
        SparesBatch c keep waiting req.plantId now db req.entries := by
  rcases lt_or_ge maxBatch req.entries.length with hlarge | hlen
  · rw [push_too_large hauth hlarge]
    exact ⟨fun _ => Or.inl hlarge, fun _ => ⟨fun r hr _ => hr, fun id _ h => h⟩⟩
  · obtain ⟨horders, happlied, -⟩ := push_accepted c now hauth hlen
    rw [or_iff_right (not_lt.mpr hlen), ← isolated_batch_iff hkeep]
    constructor
    · intro h
      exact ⟨horders ▸ h.orders, happlied ▸ h.entries⟩
    · intro h
      refine ⟨?_, ?_⟩
      · rw [horders]
        exact h.orders
      · rw [happlied]
        exact h.entries

/-- An accepted push leaves the orders of other orgs' plants as they are, and the
entries those have still to push unclaimed, exactly when it is refused for its
size or no entry that it newly applies uses an id of theirs. -/
theorem push_isolated_iff (hashToken : String → String) (c : Codec) (db : Database)
    (now : ℕ → Int) (authorization : Option String) (req : PushRequest) (waiting : Set String)
    (hauth : requirePlant hashToken db authorization req.plantId = .ok ()) :
    Isolated (Foreign db req.plantId) waiting db
        (push hashToken c db now authorization req).1 ↔
      maxBatch < req.entries.length ∨
        SparesBatch c (Foreign db req.plantId) waiting req.plantId now db req.entries :=
  push_spares_iff (fun _ h => h.ne) hauth

section Sample

/-- An order of plant `b`. -/
def sampleRow : WorkOrderRow :=
  ⟨"wo_b", "WO-B", "part", none, ⟨10, 0⟩, 100, "released", none, none, some "b", 0, 0⟩

def sampleCloudWithOrder : Database :=
  { sampleCloud with workOrders := ⟨[sampleRow], by decide⟩ }

/-- Plant `a` pushes an entry for the order of plant `b`, which becomes a draft
of plant `a`. -/
theorem push_steals_order :
    ¬ ∀ (db : Database) (now : ℕ → Int) (authorization : Option String) (req : PushRequest)
        (waiting : Set String),
        requirePlant sampleHash db authorization req.plantId = .ok () →
        Isolated (Foreign db req.plantId) waiting db
          (push sampleHash Codec.sample db now authorization req).1 := by
  intro hall
  have hiso := hall sampleCloudWithOrder (fun _ => 1) (some "Bearer plant_a")
    ⟨"a", [sampleEntry "entry" "wo_b" "WO-A"]⟩ ∅ (by decide +kernel)
  have hforeign : Foreign sampleCloudWithOrder "a" sampleRow :=
    ⟨"b", rfl, _, List.mem_cons_self, _, List.mem_cons_of_mem _ List.mem_cons_self, rfl, rfl,
      by decide⟩
  have hlost : sampleRow ∉ (push sampleHash Codec.sample sampleCloudWithOrder (fun _ => 1)
      (some "Bearer plant_a") ⟨"a", [sampleEntry "entry" "wo_b" "WO-A"]⟩).1.workOrders := by
    decide +kernel
  exact hlost (hiso.orders sampleRow List.mem_cons_self hforeign)

/-- A push of an order of its own leaves the other plant's alone. -/
theorem push_own_order_isolated :
    Isolated (Foreign sampleCloudWithOrder "a") {"waiting"} sampleCloudWithOrder
        (push sampleHash Codec.sample sampleCloudWithOrder (fun _ => 1) (some "Bearer plant_a")
          ⟨"a", [sampleEntry "entry" "wo_a" "WO-A"]⟩).1 := by
  refine (push_isolated_iff sampleHash Codec.sample sampleCloudWithOrder (fun _ => 1)
    (some "Bearer plant_a") ⟨"a", [sampleEntry "entry" "wo_a" "WO-A"]⟩ {"waiting"}
    (by decide +kernel)).mpr (Or.inr ?_)
  have hnew : (sampleEntry "entry" "wo_a" "WO-A").id ∉ sampleCloudWithOrder.appliedEntries := by
    decide
  have hchecks : accepts Codec.sample sampleCloudWithOrder
      (sampleEntry "entry" "wo_a" "WO-A") = true := by decide +kernel
  unfold SparesBatch
  rw [if_neg hnew, if_pos hchecks]
  refine ⟨⟨by decide, ?_⟩, trivial⟩
  intro r hr _
  obtain rfl := List.mem_singleton.mp hr
  decide +kernel

end Sample

end ElectronixMes.Sync
