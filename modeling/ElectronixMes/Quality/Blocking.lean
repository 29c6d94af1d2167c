import ElectronixMes.Edge.Quality

/-!
# Blocking nonconforming material

Runs of the quality and material requests. A failed inspection blocks its lot and its
serial through the holds of its nonconformance, which have a status of their own. Each
request keeps the two in step: while a nonconformance is open, or its material is to be
scrapped or returned, each of its holds is active or was released by a request for that
hold.
-/

namespace ElectronixMes.Quality

open Db ElectronixMes.Core Relational Serde

/-- The requests that write results, nonconformances, holds and issues. Whatever else the
edge does leaves the first three alone. -/
inductive Request where
  | recordResult (now : Int) (ids : ℕ → String) (auth : AuthUser) (input : ResultInput)
  | dispositionNcr (now : Int) (auth : AuthUser) (id disposition : String)
      (reason : Option String)
  | placeHold (now : Int) (id : String) (auth : AuthUser) (input : Edge.HoldInput)
  | releaseHold (now : Int) (auth : AuthUser) (id : String)
  | issueMaterial (now : Int) (id : String) (auth : AuthUser) (input : Edge.IssueMaterialInput)
  | other (change : Database → Database)
      (frame : ∀ db, (change db).inspectionResults = db.inspectionResults ∧
        (change db).ncrs = db.ncrs ∧ (change db).holds = db.holds)

def step (db : Database) : Request → Database
  | .recordResult now ids auth input => (Edge.recordResult db now ids auth input).1
  | .dispositionNcr now auth id disposition reason =>
      (Edge.dispositionNcr db now auth id disposition reason).1
  | .placeHold now id auth input => (Edge.placeHold db now id auth input).1
  | .releaseHold now auth id => (Edge.releaseHold db now auth id).1
  | .issueMaterial now id auth input => (Edge.issueMaterial db now id auth input).1
  | .other change _ => change db

/-- Nothing has been inspected or held yet. -/
structure Unused (db : Database) : Prop where
  inspectionResults : db.inspectionResults = ∅
  ncrs : db.ncrs = ∅
  holds : db.holds = ∅

/-- The nonconformance is open, or its material is to be scrapped or returned. -/
def Blocks (n : NcrRow) : Prop :=
  n.status = "open" ∨ n.disposition = some "scrap" ∨ n.disposition = some "return"

instance (n : NcrRow) : Decidable (Blocks n) :=
  inferInstanceAs (Decidable (_ ∨ _ ∨ _))

/-- The nonconformance of a failed inspection of the material, which still blocks it. -/
def Nonconforming (db : Database) (n : NcrRow) (m : Material) : Prop :=
  n ∈ db.ncrs ∧ Blocks n ∧
    ∃ r ∈ db.inspectionResults, r.result = "fail" ∧ n.inspectionResultId = some r.id ∧
      m ∈ Material.named r.lotId r.serialId

/-- No request issues the material, whoever sends it and whatever else it names. -/
def Rejected (db : Database) (m : Material) : Prop :=
  ∀ (now : Int) (id : String) (auth : AuthUser) (input : Edge.IssueMaterialInput),
    m ∈ Material.named input.lotId input.serialId →
      ∃ message, Edge.issueMaterial db now id auth input =
        (db, .error ⟨409, "conflict", message⟩)

/-- The hold was released by a request of the run for it, from a quality role. -/
def ReleasedIn (run : List Request) (h : HoldRow) : Prop :=
  h.status = "released" ∧ ∃ now auth, .releaseHold now auth h.id ∈ run ∧
    canManageQuality auth.role = true ∧ h.releasedBy = some auth.userId ∧ h.releasedAt = some now

/-- A hold of the nonconformance on the material, which is active or was `released`. -/
def Stands (released : HoldRow → Prop) (db : Database) (ncrId : String) (m : Material) : Prop :=
  ∃ h ∈ db.holds, h.ncrId = some ncrId ∧ h.IsOn m ∧ (h.status = "active" ∨ released h)

/-- Nonconformances name the material of their results, and have their holds on it while
they block it. -/
structure Kept (released : HoldRow → Prop) (db : Database) : Prop where
  origin : ∀ n ∈ db.ncrs, ∀ k, n.inspectionResultId = some k →
    ∃ r ∈ db.inspectionResults, r.id = k ∧ r.lotId = n.lotId ∧ r.serialId = n.serialId
  held : ∀ n ∈ db.ncrs, Blocks n → ∀ m ∈ Material.named n.lotId n.serialId,
    Stands released db n.id m

section Steps

variable {released : HoldRow → Prop} {db db' : Database}

theorem Unused.kept (h : Unused db) : Kept released db where
  origin := by
    rw [h.ncrs]
    exact fun n hn => absurd hn (Table.notMem_empty n)
  held := by
    rw [h.ncrs]
    exact fun n hn => absurd hn (Table.notMem_empty n)

theorem Stands.mono {released' : HoldRow → Prop} {ncrId : String} {m : Material}
    (hmono : ∀ h, released h → released' h) (h : Stands released db ncrId m) :
    Stands released' db ncrId m := by
  obtain ⟨k, hk, hlink, hon, hstatus⟩ := h
  exact ⟨k, hk, hlink, hon, hstatus.imp_right (hmono k)⟩

theorem Stands.of_subset {ncrId : String} {m : Material} (hsub : ∀ k ∈ db.holds, k ∈ db'.holds)
    (h : Stands released db ncrId m) : Stands released db' ncrId m := by
  obtain ⟨k, hk, hrest⟩ := h
  exact ⟨k, hsub k hk, hrest⟩

theorem Kept.mono {released' : HoldRow → Prop} (hmono : ∀ h, released h → released' h)
    (hkept : Kept released db) : Kept released' db where
  origin := hkept.origin
  held := fun n hn hblocks m hm => (hkept.held n hn hblocks m hm).mono hmono

/-- More holds, and no other change to what the invariant reads. -/
theorem Kept.of_holds (hkept : Kept released db)
    (hresults : db'.inspectionResults = db.inspectionResults) (hncrs : db'.ncrs = db.ncrs)
    (hholds : ∀ k ∈ db.holds, k ∈ db'.holds) : Kept released db' where
  origin := by
    rw [hncrs, hresults]
    exact hkept.origin
  held := by
    rw [hncrs]
    exact fun n hn hblocks m hm => (hkept.held n hn hblocks m hm).of_subset hholds

theorem Kept.recordResult (hkept : Kept released db) (now : Int) (ids : ℕ → String)
    (auth : AuthUser) (input : ResultInput) :
    Kept released (Edge.recordResult db now ids auth input).1 := by
  unfold Edge.recordResult
  split
  · exact hkept
  · rename_i hok
    obtain ⟨results, hins, hpass | ⟨n, ncrs, hinsNcr, hlink, hlot, hserial, hframe, hsub, hnew⟩⟩ :=
      recordResult_ok hok
    all_goals dsimp only at *
    · subst hpass
      exact
        { origin := by
            intro n hn k hk
            obtain ⟨r, hr, hrest⟩ := hkept.origin n hn k hk
            exact ⟨r, (Table.mem_insert? hins).mpr (Or.inl hr), hrest⟩
          held := hkept.held }
    · rw [hframe]
      constructor
      · intro o ho k hk
        rcases (Table.mem_insert? hinsNcr).mp ho with ho | rfl
        · obtain ⟨r, hr, hrest⟩ := hkept.origin o ho k hk
          exact ⟨r, (Table.mem_insert? hins).mpr (Or.inl hr), hrest⟩
        · rw [hlink, Option.some.injEq] at hk
          exact ⟨_, (Table.mem_insert? hins).mpr (Or.inr rfl), hk, hlot.symm, hserial.symm⟩
      · intro o ho hblocks m hm
        rcases (Table.mem_insert? hinsNcr).mp ho with ho | rfl
        · exact (hkept.held o ho hblocks m hm).of_subset hsub
        · obtain ⟨k, hk, hncr, hon, hactive⟩ := hnew m hm
          exact ⟨k, hk, hncr, hon, Or.inl hactive⟩

/-- A disposition that releases the holds ends the blocking; the holds of the other
nonconformances stay as they are. -/
theorem Kept.dispositionNcr (hkept : Kept released db) (now : Int) (auth : AuthUser)
    (id disposition : String) (reason : Option String) :
    Kept released (Edge.dispositionNcr db now auth id disposition reason).1 := by
  unfold Edge.dispositionNcr
  split
  · exact hkept
  · split
    · exact hkept
    · rename_i d _
      split
      · exact hkept
      · rename_i hok
        obtain ⟨n, hn, hopen, hresults, hncrs, hholds⟩ := dispositionNcr_ok hok
        dsimp only at hresults hncrs hholds
        obtain ⟨hmem, hid⟩ := Table.lookup_eq_some.mp hn
        constructor
        · rw [hncrs, hresults]
          intro o ho k hk
          rcases Table.mem_put.mp ho with rfl | ⟨ho, -⟩
          · exact hkept.origin n hmem k hk
          · exact hkept.origin o ho k hk
        · rw [hncrs]
          intro o ho hblocks m hm
          rcases Table.mem_put.mp ho with rfl | ⟨ho, hne⟩
          · -- a releasing disposition is neither scrap nor return
            have hkeeps : d.releasesHold = false := by
              cases d <;> simp_all [Blocks, NcrRow.dispositioned, Disposition.asStr,
                Disposition.releasesHold]
            rw [hkeeps] at hholds
            exact (hkept.held n hmem (Or.inl hopen) m hm).of_subset (fun k hk => hholds ▸ hk)
          · obtain ⟨k, hk, hlink, hrest⟩ := hkept.held o ho hblocks m hm
            refine ⟨k, ?_, hlink, hrest⟩
            rw [hholds]
            split
            · apply mem_releaseNcrHolds_of_ne hk
              intro hsame
              rw [hlink, Option.some.injEq] at hsame
              exact hne (hsame.trans hid.symm)
            · exact hk

theorem Kept.placeHold (hkept : Kept released db) (now : Int) (id : String) (auth : AuthUser)
    (input : Edge.HoldInput) : Kept released (Edge.placeHold db now id auth input).1 := by
  unfold Edge.placeHold
  split
  · split
    · exact hkept
    · rename_i hok
      obtain ⟨holds, hins, hdb⟩ := placeHold_ok hok
      dsimp only at hdb
      subst hdb
      exact hkept.of_holds rfl rfl fun k hk => (Table.mem_insert? hins).mpr (Or.inl hk)
  · exact hkept

/-- A released hold is one more that was released. -/
theorem Kept.releaseHold (hkept : Kept released db) {now : Int} {auth : AuthUser} {id : String}
    (hreleased : canManageQuality auth.role = true →
      ∀ h : HoldRow, h.id = id → released (h.released now auth.userId)) :
    Kept released (Edge.releaseHold db now auth id).1 := by
  unfold Edge.releaseHold
  split
  · rename_i hrole
    split
    · exact hkept
    · rename_i hok
      obtain ⟨h, hh, -, rfl⟩ := releaseHold_ok hok
      obtain ⟨hmem, hid⟩ := Table.lookup_eq_some.mp hh
      refine { origin := hkept.origin, held := ?_ }
      intro n hn hblocks m hm
      obtain ⟨k, hk, hlink, hon, hstatus⟩ := hkept.held n hn hblocks m hm
      by_cases hsame : k.id = h.id
      · obtain rfl := Table.eq_of_key_eq hk hmem hsame
        exact ⟨_, Table.mem_put_self _ _, hlink, hon, Or.inr (hreleased hrole k hid)⟩
      · exact ⟨k, Table.mem_put.mpr (Or.inr ⟨hk, hsame⟩), hlink, hon, hstatus⟩
  · exact hkept

theorem Kept.issueMaterial (hkept : Kept released db) (now : Int) (id : String)
    (auth : AuthUser) (input : Edge.IssueMaterialInput) :
    Kept released (Edge.issueMaterial db now id auth input).1 := by
  unfold Edge.issueMaterial
  split
  · exact hkept
  · rename_i hok
    have hframe := issueMaterial_ok hok
    dsimp only at hframe
    rw [hframe]
    exact hkept.of_holds rfl rfl fun k hk => hk

/-- Every request keeps the holds of the blocking nonconformances in place. -/
theorem Kept.step (hkept : Kept released db) (q : Request)
    (hreleased : ∀ now auth id, q = .releaseHold now auth id →
      canManageQuality auth.role = true →
        ∀ h : HoldRow, h.id = id → released (h.released now auth.userId)) :
    Kept released (step db q) := by
  cases q with
  | recordResult now ids auth input => exact hkept.recordResult now ids auth input
  | dispositionNcr now auth id disposition reason =>
      exact hkept.dispositionNcr now auth id disposition reason
  | placeHold now id auth input => exact hkept.placeHold now id auth input
  | releaseHold now auth id => exact hkept.releaseHold (hreleased now auth id rfl)
  | issueMaterial now id auth input => exact hkept.issueMaterial now id auth input
  | other change frame =>
      obtain ⟨hresults, hncrs, hholds⟩ := frame db
      exact hkept.of_holds hresults hncrs fun k hk => hholds ▸ hk

/-- Material that a nonconformance blocks is not issued while the hold of that
nonconformance on it is active. -/
theorem Kept.rejected_or_released (hkept : Kept released db) {n : NcrRow} {m : Material}
    (h : Nonconforming db n m) :
    Rejected db m ∨ ∃ k ∈ db.holds, k.ncrId = some n.id ∧ k.IsOn m ∧ released k := by
  obtain ⟨hn, hblocks, r, hr, -, hlink, hm⟩ := h
  obtain ⟨r', hr', hid, hlot, hserial⟩ := hkept.origin n hn r.id hlink
  obtain rfl := Table.eq_of_key_eq hr' hr hid
  rw [hlot, hserial] at hm
  obtain ⟨k, hk, hncr, hon, hactive | hreleased⟩ := hkept.held n hn hblocks m hm
  · left
    intro now id auth input hnamed
    obtain ⟨message, hrefused⟩ := issueMaterial_of_held hnamed (isHeld_of_active hk hon hactive)
      now id input.qty input.woOperationId auth.userId
    refine ⟨message, ?_⟩
    unfold Edge.issueMaterial
    rw [hrefused]
    rfl
  · exact Or.inr ⟨k, hk, hncr, hon, hreleased⟩

end Steps

section Runs

variable {db : Database}

theorem kept_run (hstart : Unused db) (run : List Request) :
    Kept (ReleasedIn run) (run.foldl step db) := by
  induction run using List.reverseRecOn with
  | nil => exact hstart.kept
  | append_singleton run q ih =>
      rw [List.foldl_append, List.foldl_cons, List.foldl_nil]
      apply Kept.step
      · apply ih.mono
        rintro h ⟨hstatus, now, auth, hmem, hrest⟩
        exact ⟨hstatus, now, auth, List.mem_append_left _ hmem, hrest⟩
      · rintro now auth id rfl hrole h rfl
        exact ⟨rfl, now, auth, List.mem_append_right _ (List.mem_singleton_self _), hrole, rfl, rfl⟩

/-- After every run, material of a failed inspection whose nonconformance is open, or was
dispositioned scrap or return, is not issued, unless the hold of that nonconformance on it
was released by a request for that hold from a quality role. -/
theorem rejected_unless_released (hstart : Unused db) (run : List Request) {n : NcrRow}
    {m : Material} (h : Nonconforming (run.foldl step db) n m) :
    Rejected (run.foldl step db) m ∨
      ∃ k ∈ (run.foldl step db).holds, k.ncrId = some n.id ∧ k.IsOn m ∧ ReleasedIn run k :=
  (kept_run hstart run).rejected_or_released h

end Runs

section Example

/-- One lot, and a characteristic that is to be at most ten. -/
def gauge : Database where
  users := {"op", "insp"}
  parts := {"shaft"}
  lots := ⟨[⟨"lot", "L-1", "shaft"⟩], by decide⟩
  characteristics := ⟨[⟨"diameter", none, some ⟨10, 0⟩⟩], by decide⟩

def resultId : String := "01J8ZQ3V5K0000000000000001"
def ncrId : String := "01J8ZQ3V5K0000000000000002"
def holdId : String := "01J8ZQ3V5K0000000000000003"

/-- An operator measures twelve, which raises a nonconformance. -/
def failedInspection : List Request :=
  [.recordResult 1 (fun k => [resultId, ncrId, holdId].getD k "") ⟨"op", Roles.operator⟩
    ⟨"diameter", some "lot", none, none, ⟨12, 0⟩⟩]

/-- The nonconformance is open and its hold is released. -/
def releasedHold : List Request :=
  failedInspection ++ [.releaseHold 2 ⟨"insp", Roles.quality⟩ holdId]

def openNcr : NcrRow where
  id := ncrId
  ncrNo := ncrNo ncrId
  inspectionResultId := some resultId
  lotId := some "lot"
  serialId := none
  partId := some "shaft"
  status := "open"
  disposition := none
  reason := some "inspection failure"
  dispositionedBy := none
  dispositionedAt := none
  createdAt := 1
  updatedAt := 1

def failedResult : InspectionResultRow where
  id := resultId
  characteristicId := "diameter"
  lotId := some "lot"
  serialId := none
  woOperationId := none
  measuredValue := ⟨12, 0⟩
  result := "fail"
  inspectedBy := some "op"
  createdAt := 1

theorem unused_gauge : Unused gauge := ⟨rfl, rfl, rfl⟩

theorem nonconforming_failedInspection :
    Nonconforming (failedInspection.foldl step gauge) openNcr (.lot "lot") :=
  ⟨by decide +kernel, by decide, failedResult, by decide +kernel, rfl, rfl, by decide⟩

theorem nonconforming_releasedHold :
    Nonconforming (releasedHold.foldl step gauge) openNcr (.lot "lot") :=
  ⟨by decide +kernel, by decide, failedResult, by decide +kernel, rfl, rfl, by decide⟩

/-- The material of an open nonconformance is issued once its hold is released. -/
theorem open_ncr_issued_after_releaseHold :
    ¬ ∀ db, Unused db → ∀ (run : List Request) n m, Nonconforming (run.foldl step db) n m →
      Rejected (run.foldl step db) m := by
  intro h
  obtain ⟨message, hrefused⟩ := h gauge unused_gauge releasedHold openNcr (.lot "lot")
    nonconforming_releasedHold 3 "txn" ⟨"op", Roles.operator⟩ ⟨some "lot", none, ⟨1, 0⟩, none⟩
    (by decide)
  have hissued : (Edge.issueMaterial (releasedHold.foldl step gauge) 3 "txn"
      ⟨"op", Roles.operator⟩ ⟨some "lot", none, ⟨1, 0⟩, none⟩).2.toOption = some "txn" := by
    decide +kernel
  rw [hrefused] at hissued
  cases hissued

/-- Before that it is blocked. -/
theorem rejected_unless_released_failedInspection :
    Nonconforming (failedInspection.foldl step gauge) openNcr (.lot "lot") ∧
      (Rejected (failedInspection.foldl step gauge) (.lot "lot") ∨
        ∃ k ∈ (failedInspection.foldl step gauge).holds, k.ncrId = some ncrId ∧
          k.IsOn (.lot "lot") ∧ ReleasedIn failedInspection k) :=
  ⟨nonconforming_failedInspection,
    rejected_unless_released unused_gauge failedInspection nonconforming_failedInspection⟩

end Example

end ElectronixMes.Quality
