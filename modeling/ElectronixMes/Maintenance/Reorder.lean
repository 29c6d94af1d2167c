import ElectronixMes.Maintenance.Procurement
import Mathlib.Algebra.Order.BigOperators.Group.List
import Mathlib.Tactic.Linarith

/-!
# Reorder-point breaches under concurrent movements

A movement judges the breach by a sum that does not see the uncommitted movements of other
transactions. Two facts hold of every run: a spare has at most one open reorder request, and
a breach is not missed as long as each sum that finds none would find none either with the
issues that were let through before it and are not committed yet.
-/

namespace ElectronixMes.Maintenance.Procurement

open Db ElectronixMes.Core Edge Relational Serde Transition

section Unique

/-- The partial unique index: a spare has at most one open reorder request. -/
def OneOpenReorder (db : CmmsDatabase) : Prop :=
  ∀ r ∈ db.procurementRequests, ∀ r' ∈ db.procurementRequests,
    r.IsOpenReorder → r'.IsOpenReorder → r.sparePartId = r'.sparePartId → r = r'

instance (db : CmmsDatabase) : Decidable (OneOpenReorder db) :=
  inferInstanceAs (Decidable (∀ r ∈ db.procurementRequests.rows,
    ∀ r' ∈ db.procurementRequests.rows,
      r.IsOpenReorder → r'.IsOpenReorder → r.sparePartId = r'.sparePartId → r = r'))

variable {db db' : CmmsDatabase} {r : ProcurementRow} {requests : Table ProcurementRow}

theorem OneOpenReorder.insert (h : OneOpenReorder db)
    (hins : db.procurementRequests.insert? r = some requests)
    (hdb : db'.procurementRequests = requests)
    (hfree : r.IsOpenReorder → hasOpenReorder db r.sparePartId = false) : OneOpenReorder db' := by
  intro a ha b hb hopenA hopenB hspare
  rw [hdb, Table.mem_insert? hins] at ha hb
  rcases ha with ha | rfl <;> rcases hb with hb | rfl
  · exact h a ha b hb hopenA hopenB hspare
  · exact absurd hopenA (hasOpenReorder_eq_false.mp (hfree hopenB) a ha hspare)
  · exact absurd hopenB (hasOpenReorder_eq_false.mp (hfree hopenA) b hb hspare.symm)
  · rfl

/-- A request that is open after a mark was there before it. -/
theorem mem_of_markPosted {now : Int} {p : Post} {resp : Json}
    (h : r ∈ (markPosted db now p resp).procurementRequests) (hopen : r.IsOpenReorder) :
    r ∈ db.procurementRequests := by
  obtain ⟨s, hs, rfl⟩ := mem_markProcurementSent.mp h
  rcases s.sent_cases p.requests now (erpReference resp) with hsame | ⟨-, -, hsent⟩
  · rw [hsame]
    exact hs
  · exact absurd (hsent.symm.trans hopen.1) (by decide)

theorem OneOpenReorder.markPosted (h : OneOpenReorder db) (now : Int) (p : Post) (resp : Json) :
    OneOpenReorder (markPosted db now p resp) := by
  intro a ha b hb hopenA hopenB hspare
  exact h a (mem_of_markPosted ha hopenA) b (mem_of_markPosted hb hopenB) hopenA hopenB hspare

/-- A new request opens a reorder only for its own spare. -/
theorem hasOpenReorder_insert {spare : String}
    (h : hasOpenReorder db spare = false)
    (hins : db.procurementRequests.insert? r = some requests)
    (hdb : db'.procurementRequests = requests)
    (hr : r.sparePartId = spare → ¬ r.IsOpenReorder) : hasOpenReorder db' spare = false := by
  rw [hasOpenReorder_eq_false] at h ⊢
  intro a ha hspare
  rw [hdb, Table.mem_insert? hins] at ha
  rcases ha with ha | rfl
  · exact h a ha hspare
  · exact hr hspare

theorem hasOpenReorder_markPosted {spare : String} (h : hasOpenReorder db spare = false)
    (now : Int) (p : Post) (resp : Json) :
    hasOpenReorder (markPosted db now p resp) spare = false := by
  rw [hasOpenReorder_eq_false] at h ⊢
  intro a ha hspare hopen
  exact h a (mem_of_markPosted ha hopen) hspare hopen

end Unique

section Invariant

/-- The thresholds a movement works with are the stored ones, and a session with an
uncommitted reorder request is the only one for its spare. -/
def Assertion (parts : Table SparePartRow) (st : Store) (who : ℕ) : Phase → Prop
  | .insertTxn m part => parts.lookup m.sparePartId = some part
  | .sumStock row part => parts.lookup row.sparePartId = some part
  | .raiseRequest row part _ => parts.lookup row.sparePartId = some part
  | .commit row _ (some r) =>
      r.sparePartId = row.sparePartId ∧ r.IsOpenReorder ∧
        st.reorders r.sparePartId = some who ∧ hasOpenReorder st.db r.sparePartId = false
  | _ => True

/-- What holds of the committed tables. -/
structure Sound (parts : Table SparePartRow) (st : Store) : Prop where
  parts_eq : st.db.spareParts = parts
  oneOpen : OneOpenReorder st.db

variable {parts : Table SparePartRow} {st : Store} {who i : ℕ} {input : Input} {ph u : Phase}
  {res : Store × Phase}

theorem Ran.sound (h : Ran who input st ph res) (hsound : Sound parts st)
    (hown : Assertion parts st who ph) : Sound parts res.1 ∧ Assertion parts res.1 who res.2 := by
  obtain ⟨hparts, hopen⟩ := hsound
  cases h with
  | refused e cause =>
      have hdb : (st.release ph.raised?).db = st.db := by cases ph.raised? <;> rfl
      exact ⟨⟨hdb ▸ hparts, hdb ▸ hopen⟩, trivial⟩
  | looked stored => exact ⟨⟨hparts, hopen⟩, hparts ▸ stored⟩
  | inserted part spare =>
      refine ⟨⟨hparts, hopen⟩, ?_⟩
      rw [Assertion, spare]
      exact hown
  | breached => exact ⟨⟨hparts, hopen⟩, hown⟩
  | waited => exact ⟨⟨hparts, hopen⟩, hown⟩
  | passed | found | connected | listed | rejected | ended => exact ⟨⟨hparts, hopen⟩, trivial⟩
  | raised part stock grants noneOpen spare isOpen =>
      refine ⟨⟨hparts, hopen⟩, spare, isOpen, Locks.take_self _ _ _, ?_⟩
      rw [spare]
      exact noneOpen
  | moved | posted | logged | loggedFailure => exact ⟨⟨hparts, hopen⟩, trivial⟩
  | reordered stock insert insertRequest =>
      obtain ⟨-, -, -, hfree⟩ := hown
      exact ⟨⟨hparts, hopen.insert insertRequest rfl fun _ => hfree⟩, trivial⟩
  | byHand insertRequest status reason =>
      refine ⟨⟨hparts, hopen.insert insertRequest rfl fun h => ?_⟩, trivial⟩
      exact absurd (reason.symm.trans h.2) (by decide)
  | marked req p resp =>
      refine ⟨⟨?_, hopen.markPosted input.now p resp⟩, trivial⟩
      exact (markProcurementSent_spares _ _ _ _).1.trans hparts

/-- A statement leaves the reorder request of another session alone. -/
theorem Ran.reorder_of_held (h : Ran who input st ph res) (hown : Assertion parts st who ph)
    (hi : i ≠ who) {spare : String} (hheld : st.reorders spare = some i)
    (hfree : hasOpenReorder st.db spare = false) :
    res.1.reorders spare = some i ∧ hasOpenReorder res.1.db spare = false := by
  cases h with
  | refused e cause =>
      cases ph with
      | commit row stock raised =>
          cases raised with
          | none => exact ⟨hheld, hfree⟩
          | some r => exact ⟨Locks.release_of_held hown.2.2.1 hi hheld, hfree⟩
      | readThresholds | insertTxn | sumStock | raiseRequest | insertManual | readConnection
      | listRecords | post | mark | logSuccess | logFailure | ended => exact ⟨hheld, hfree⟩
  | looked | inserted | breached | passed | waited | found | connected | listed | rejected
  | ended => exact ⟨hheld, hfree⟩
  | moved | posted | logged | loggedFailure => exact ⟨hheld, hfree⟩
  | raised part stock grants noneOpen hspare isOpen =>
      exact ⟨Locks.take_of_held (hspare ▸ grants) hi hheld, hfree⟩
  | reordered stock insert insertRequest =>
      obtain ⟨-, -, hlock, -⟩ := hown
      refine ⟨Locks.release_of_held hlock hi hheld,
        hasOpenReorder_insert hfree insertRequest rfl fun hspare => ?_⟩
      rw [hspare, hheld, Option.some.injEq] at hlock
      exact absurd hlock hi
  | byHand insertRequest status reason =>
      refine ⟨hheld, hasOpenReorder_insert hfree insertRequest rfl fun _ h => ?_⟩
      exact absurd (reason.symm.trans h.2) (by decide)
  | marked req p resp => exact ⟨hheld, hasOpenReorder_markPosted hfree input.now p resp⟩

theorem Ran.assertion_of_ne (h : Ran who input st ph res) (hown : Assertion parts st who ph)
    (hi : i ≠ who) (hu : Assertion parts st i u) : Assertion parts res.1 i u := by
  cases u with
  | commit row stock raised =>
      cases raised with
      | none => trivial
      | some r =>
          obtain ⟨hspare, hopen, hheld, hfree⟩ := hu
          exact ⟨hspare, hopen, h.reorder_of_held hown hi hheld hfree⟩
  | insertTxn | sumStock | raiseRequest => exact hu
  | readThresholds | insertManual | readConnection | listRecords | post | mark | logSuccess
  | logFailure | ended => trivial

theorem assertion_phase (parts : Table SparePartRow) (st : Store) (who : ℕ) (req : Request) :
    Assertion parts st who req.phase := by
  cases req with
  | movement sparePartId maintenanceWoId txnType qty userId =>
      simp only [Request.phase]
      split <;> trivial
  | manual => trivial
  | push => trivial

variable {c : Codec} {stockToJson : ℚ → Json} {decrypt : String → Option String}

theorem inv_run {s : State} (h : Sessions.Inv (Sound parts) (Assertion parts) s)
    (moves : Schedule) :
    Sessions.Inv (Sound parts) (Assertion parts)
      (moves.foldl (step c stockToJson decrypt) s) := by
  refine h.run (fun st i req _ => assertion_phase parts st i req) ?_ ?_ moves
  · intro who input st ph hsound hown
    exact (ran_exec who input st ph).sound hsound hown
  · intro who input st ph i u hi _ hown hu
    exact (ran_exec who input st ph).assertion_of_ne hown hi hu

end Invariant

section Covered

/-- What a session that was let through without a breach still takes out of the stock. -/
def Phase.pending (spare : String) : Phase → ℚ
  | .commit row _ none =>
      if row.sparePartId = spare ∧ numeric row.qty < 0 then numeric row.qty else 0
  | _ => 0

/-- A reorder request was raised for the spare. -/
def HasReorder (db : CmmsDatabase) (spare : String) : Prop :=
  ∃ r ∈ db.procurementRequests, r.sparePartId = spare ∧ r.reason = "reorder_point"

instance (db : CmmsDatabase) (spare : String) : Decidable (HasReorder db spare) :=
  inferInstanceAs (Decidable
    (∃ r ∈ db.procurementRequests.rows, r.sparePartId = spare ∧ r.reason = "reorder_point"))

/-- A sum of the ledger of a spare without a reorder request, if it finds no breach, would
find none either with the issues that were let through before it and are not committed yet. -/
def Phase.SumCovers (spare : String) (s : State) : Phase → Prop
  | .sumStock row part =>
      row.sparePartId = spare → ¬ HasReorder s.store.db spare →
        spareStock s.store.db spare + numeric row.qty ≤ numeric part.reorderPoint ∨
          numeric part.reorderPoint <
            spareStock s.store.db spare + numeric row.qty + s.total (Phase.pending spare)
  | _ => True

instance decidableSumCovers (spare : String) (s : State) :
    (ph : Phase) → Decidable (ph.SumCovers spare s)
  | .sumStock row part => inferInstanceAs (Decidable (row.sparePartId = spare →
      ¬ HasReorder s.store.db spare →
        spareStock s.store.db spare + numeric row.qty ≤ numeric part.reorderPoint ∨
          numeric part.reorderPoint <
            spareStock s.store.db spare + numeric row.qty + s.total (Phase.pending spare)))
  | .readThresholds .. | .insertTxn .. | .raiseRequest .. | .commit .. | .insertManual ..
  | .readConnection .. | .listRecords .. | .post .. | .mark .. | .logSuccess .. | .logFailure ..
  | .ended .. => inferInstanceAs (Decidable True)

/-- The statement a move runs, if it is a sum, covers what is pending. -/
def SumCovers (spare : String) (s : State) : Move Request Input → Prop
  | .call _ => True
  | .advance who _ => ∀ ph ∈ s.threads[who]?, ph.SumCovers spare s

instance (spare : String) (s : State) : (m : Move Request Input) → Decidable (SumCovers spare s m)
  | .call _ => inferInstanceAs (Decidable True)
  | .advance who _ =>
      inferInstanceAs (Decidable (∀ ph ∈ s.threads[who]?, ph.SumCovers spare s))

/-- A movement that is to be summed takes from the stock of the spare. -/
def Phase.Lowers (spare : String) : Phase → Prop
  | .sumStock row _ => row.sparePartId = spare ∧ numeric row.qty < 0
  | _ => False

/-- While a movement that takes from the spare is summed, no other one that does is between its
sum and its commit. -/
def LowersAlone (spare : String) (s : State) : Move Request Input → Prop
  | .call _ => True
  | .advance who _ => ∀ ph ∈ s.threads[who]?, ph.Lowers spare →
      ∀ u ∈ s.threads, u.pending spare = 0

/-- The spare has a reorder request, or stays above its reorder point whatever commits of
what was let through. -/
def Covered (spare : String) (point : ℚ) (s : State) : Prop :=
  HasReorder s.store.db spare ∨
    point < spareStock s.store.db spare + s.total (Phase.pending spare)

variable {spare : String} {point : ℚ} {db db' : CmmsDatabase}

theorem pending_nonpos (spare : String) (ph : Phase) : ph.pending spare ≤ 0 := by
  unfold Phase.pending
  split
  · split
    · rename_i h
      exact le_of_lt h.2
    · exact le_refl 0
  · exact le_refl 0

theorem total_nonpos (spare : String) (s : State) : s.total (Phase.pending spare) ≤ 0 := by
  have hle : ∀ x ∈ s.threads.map (Phase.pending spare), x ≤ 0 := by
    intro x hx
    obtain ⟨ph, -, rfl⟩ := List.mem_map.mp hx
    exact pending_nonpos spare ph
  calc s.total (Phase.pending spare) ≤ (s.threads.map (Phase.pending spare)).length • 0 :=
        List.sum_le_card_nsmul _ 0 hle
    _ = 0 := nsmul_zero _

/-- Covered, the stock is at or below the reorder point only with a request. -/
theorem Covered.hasReorder {s : State} (h : Covered spare point s)
    (hstock : spareStock s.store.db spare ≤ point) : HasReorder s.store.db spare := by
  rcases h with h | h
  · exact h
  · have hpending := total_nonpos spare s
    linarith

theorem HasReorder.insert {r : ProcurementRow} {requests : Table ProcurementRow}
    (h : HasReorder db spare) (hins : db.procurementRequests.insert? r = some requests)
    (hdb : db'.procurementRequests = requests) : HasReorder db' spare := by
  obtain ⟨a, ha, hspare⟩ := h
  refine ⟨a, ?_, hspare⟩
  rw [hdb, Table.mem_insert? hins]
  exact Or.inl ha

theorem HasReorder.markPosted (h : HasReorder db spare) (now : Int) (p : Post) (resp : Json) :
    HasReorder (markPosted db now p resp) spare := by
  obtain ⟨a, ha, hspare, hreason⟩ := h
  refine ⟨_, mem_markProcurementSent.mpr ⟨a, ha, rfl⟩, ?_, ?_⟩
  · rw [ProcurementRow.sent_sparePartId]
    exact hspare
  · rw [ProcurementRow.sent_reason]
    exact hreason

variable {st st' : Store} {threads : List Phase} {who : ℕ} {input : Input} {ph u : Phase}
  {parts : Table SparePartRow} {part : SparePartRow} {res : Store × Phase}

/-- A statement that keeps the requests and takes nothing out of what is left of the stock. -/
theorem Covered.of_le (h : Covered spare point ⟨st, threads⟩) (hph : threads[who]? = some ph)
    (hreorder : HasReorder st.db spare → HasReorder st'.db spare)
    (hle : spareStock st.db spare + ph.pending spare ≤ spareStock st'.db spare + u.pending spare) :
    Covered spare point ⟨st', threads.set who u⟩ := by
  refine h.imp hreorder fun h => ?_
  dsimp only at h ⊢
  rw [Sessions.total_set (s := ⟨st, threads⟩) _ hph]
  linarith

/-- The movement of a session that was let through takes out what was pending. -/
theorem stock_pending_le (spare : String) {row : SpareTxnRow} {txns : Table SpareTxnRow}
    (hins : db.spareTxns.insert? row = some txns) (hdb : db'.spareTxns = txns) (stock : ℚ) :
    spareStock db spare + (Phase.commit row stock none).pending spare ≤ spareStock db' spare := by
  rw [spareStock_insert hins hdb, Phase.pending]
  by_cases hspare : row.sparePartId = spare
  · simp only [hspare, true_and, if_true]
    split
    · exact le_refl _
    · rename_i hqty
      linarith
  · simp [hspare]

/-- A statement leaves the spare covered, if its sum covers what is pending. -/
theorem Ran.covered (h : Ran who input st ph res) (hparts : parts.lookup spare = some part)
    (hqty : 0 < numeric part.reorderQty) (hown : Assertion parts st who ph)
    (hph : threads[who]? = some ph)
    (hsum : ph.SumCovers spare ⟨st, threads⟩)
    (hcov : Covered spare (numeric part.reorderPoint) ⟨st, threads⟩) :
    Covered spare (numeric part.reorderPoint) ⟨res.1, threads.set who res.2⟩ := by
  cases h with
  | refused e cause =>
      have hdb : (st.release ph.raised?).db = st.db := by cases ph.raised? <;> rfl
      refine hcov.of_le hph (fun h => hdb ▸ h) ?_
      rw [hdb]
      exact add_le_add (le_refl _) (pending_nonpos spare ph)
  | looked | inserted | breached | waited | connected | listed | rejected | ended
  | raised => exact hcov.of_le hph id (le_refl _)
  | posted | logged | loggedFailure => exact hcov.of_le hph id (le_refl _)
  | passed sum above =>
      rename_i row part' stock
      by_cases hspare : row.sparePartId = spare
      · obtain rfl : part' = part := by
          rw [Assertion, hspare, hparts, Option.some.injEq] at hown
          exact hown.symm
        have habove : numeric part'.reorderPoint < stock := by
          simp only [breaches, decide_eq_false_iff_not, not_and_or, not_le] at above
          exact above.resolve_right (not_not.mpr hqty)
        rw [hspare] at sum
        by_cases hreorder : HasReorder st.db spare
        · exact Or.inl hreorder
        rcases hsum hspare hreorder with hle | hlt
        · exact absurd (sum ▸ hle) (not_le.mpr habove)
        · refine hcov.imp id fun hcov => ?_
          dsimp only at hcov ⊢
          rw [Sessions.total_set (s := ⟨st, threads⟩) _ hph]
          simp only [Phase.pending, hspare, true_and]
          split <;> linarith
      · refine hcov.of_le hph id ?_
        simp [Phase.pending, hspare]
  | found part' stock isOpen =>
      rename_i row
      obtain ⟨r, hr, hspare', -, hreason⟩ := hasOpenReorder_iff.mp isOpen
      by_cases hspare : row.sparePartId = spare
      · exact Or.inl ⟨r, hr, hspare'.trans hspare, hreason⟩
      · refine hcov.of_le hph id ?_
        simp [Phase.pending, hspare]
  | moved stock insert =>
      refine hcov.of_le hph id ?_
      simpa [Phase.pending] using stock_pending_le spare insert rfl stock
  | reordered stock insert insertRequest =>
      rename_i row r txns requests
      obtain ⟨hspare', hopen, -, -⟩ := hown
      by_cases hspare : row.sparePartId = spare
      · refine Or.inl ⟨r, ?_, hspare'.trans hspare, hopen.2⟩
        exact (Table.mem_insert? insertRequest).mpr (Or.inr rfl)
      · refine hcov.of_le hph (fun h => h.insert insertRequest rfl) ?_
        have hstock : spareStock
            { st.db with spareTxns := txns, procurementRequests := requests } spare
              = spareStock st.db spare := by
          rw [spareStock_insert insert rfl, if_neg hspare, add_zero]
        simp [Phase.pending, hstock]
  | byHand insertRequest status reason =>
      exact hcov.of_le hph (fun h => h.insert insertRequest rfl) (le_refl _)
  | marked req p resp =>
      refine hcov.of_le hph (fun h => h.markPosted input.now p resp) ?_
      have htxns := (markProcurementSent_spares st.db input.now p.requests
        (erpReference resp)).2
      simp [Phase.pending, spareStock, markPosted, htxns]

variable {c : Codec} {stockToJson : ℚ → Json} {decrypt : String → Option String}

/-- A call lets nothing through. -/
theorem pending_phase (spare : String) (req : Request) : req.phase.pending spare = 0 := by
  cases req with
  | movement sparePartId maintenanceWoId txnType qty userId =>
      simp only [Request.phase]
      split <;> rfl
  | manual => rfl
  | push => rfl

theorem Covered.step {s : State} (hcov : Covered spare (numeric part.reorderPoint) s)
    (hinv : Sessions.Inv (Sound parts) (Assertion parts) s)
    (hparts : parts.lookup spare = some part) (hqty : 0 < numeric part.reorderQty)
    {m : Move Request Input} (hm : SumCovers spare s m) :
    Covered spare (numeric part.reorderPoint) (step c stockToJson decrypt s m) := by
  unfold Procurement.step
  rcases Sessions.step_cases Request.phase (exec c stockToJson decrypt) s m with
    ⟨req, -, heq⟩ | heq | ⟨who, input, ph, rfl, hph, heq⟩
  · rw [heq, Covered, Sessions.total_call, pending_phase, add_zero]
    exact hcov
  · rw [heq]
    exact hcov
  · rw [heq]
    exact (ran_exec who input s.store ph).covered hparts hqty (hinv.2 who ph hph) hph
      (hm ph hph) hcov

/-- A sum covers what is pending if nothing is, or if its movement adds to the stock. -/
theorem Covered.sumCovers {s : State} (hcov : Covered spare (numeric part.reorderPoint) s)
    (hinv : Sessions.Inv (Sound parts) (Assertion parts) s)
    (hparts : parts.lookup spare = some part) {m : Move Request Input}
    (hm : LowersAlone spare s m) : SumCovers spare s m := by
  cases m with
  | call req => trivial
  | advance who input =>
      intro ph hph
      have hown := hinv.2 who ph hph
      have halone := hm ph hph
      cases ph with
      | sumStock row part' =>
          intro hspare hno
          obtain rfl : part' = part := by
            rw [Assertion, hspare, hparts, Option.some.injEq] at hown
            exact hown.symm
          have habove := hcov.resolve_left hno
          by_cases hqty : numeric row.qty < 0
          · have htotal : s.total (Phase.pending spare) = 0 := by
              refine List.sum_eq_zero fun x hx => ?_
              obtain ⟨u, hu, rfl⟩ := List.mem_map.mp hx
              exact halone ⟨hspare, hqty⟩ u hu
            rw [htotal, add_zero]
            exact le_or_gt _ _
          · right
            linarith
      | readThresholds | insertTxn | raiseRequest | commit | insertManual | readConnection
      | listRecords | post | mark | logSuccess | logFailure | ended => trivial

/-- Movements that take from a spare one after the other are covered by their sums. -/
theorem sumCovers_of_lowersAlone {db : CmmsDatabase} (hunique : OneOpenReorder db)
    (hparts : db.spareParts.lookup spare = some part) (hqty : 0 < numeric part.reorderQty)
    (habove : numeric part.reorderPoint < spareStock db spare) {moves : Schedule}
    (halone : Along (step c stockToJson decrypt) (LowersAlone spare) (opened db) moves) :
    Along (step c stockToJson decrypt) (SumCovers spare) (opened db) moves := by
  refine halone.of_invariant
    (I := fun s => Sessions.Inv (Sound db.spareParts) (Assertion db.spareParts) s ∧
      Covered spare (numeric part.reorderPoint) s)
    (fun s m h hm => h.2.sumCovers h.1 hparts hm)
    (fun s m h hm => ⟨inv_run h.1 [m], h.2.step h.1 hparts hqty (h.2.sumCovers h.1 hparts hm)⟩) ?_
  exact ⟨Sessions.inv_nil ⟨rfl, hunique⟩, Or.inr (by simpa [opened, Sessions.total] using habove)⟩

/-- Of every run: a spare never has two open reorder requests, and where each sum covers what
is pending, a spare that started above its reorder point is at or below it only with a reorder
request. -/
theorem breach_raises_request (c : Codec) (stockToJson : ℚ → Json)
    (decrypt : String → Option String) (db : CmmsDatabase) (hunique : OneOpenReorder db)
    (spare : String) (part : SparePartRow) (hpart : db.spareParts.lookup spare = some part)
    (hqty : 0 < numeric part.reorderQty)
    (habove : numeric part.reorderPoint < spareStock db spare) (moves : Schedule) :
    (∀ k, OneOpenReorder (stateAt c stockToJson decrypt db moves k).store.db) ∧
      (Along (step c stockToJson decrypt) (SumCovers spare) (opened db) moves →
        ∀ k, spareStock (stateAt c stockToJson decrypt db moves k).store.db spare
            ≤ numeric part.reorderPoint →
          HasReorder (stateAt c stockToJson decrypt db moves k).store.db spare) := by
  have hinit : Sessions.Inv (Sound db.spareParts) (Assertion db.spareParts) (opened db) :=
    Sessions.inv_nil ⟨rfl, hunique⟩
  refine ⟨fun k => (inv_run hinit (moves.take k)).1.oneOpen, ?_⟩
  intro halong k hstock
  -- both invariants together are what one move keeps
  have hfinal := (halong.take k).invariant
    (I := fun s => Sessions.Inv (Sound db.spareParts) (Assertion db.spareParts) s ∧
      Covered spare (numeric part.reorderPoint) s)
    (fun s m h hm => ⟨inv_run h.1 [m], h.2.step h.1 hpart hqty hm⟩)
    ⟨hinit, Or.inr (by simpa [opened, Sessions.total] using habove)⟩
  exact hfinal.2.hasReorder hstock

/-- Ten bearings, to be reordered at five. -/
def bearings : CmmsDatabase where
  users := {"tina"}
  spareParts := ⟨[⟨"bearing", "B-1", "Bearing", ⟨5, 0⟩, ⟨20, 0⟩⟩], List.nodup_singleton _⟩
  spareTxns := ⟨[⟨"t0", "bearing", none, "receive", ⟨10, 0⟩, 0, none⟩], List.nodup_singleton _⟩

def bearingIssue (qty : Int) : Request := .movement "bearing" none "issue" ⟨qty, 0⟩ "tina"

/-- An issue of six and one of two overlap: the first breaches and raises the request. -/
def overlappingIssues : Schedule :=
  [.call (bearingIssue 6), .call (bearingIssue 2),
    .advance 0 ⟨1, "", .ok .null, false⟩, .advance 1 ⟨1, "", .ok .null, false⟩,
    .advance 0 ⟨1, "t1", .ok .null, false⟩, .advance 1 ⟨1, "t2", .ok .null, false⟩,
    .advance 0 ⟨1, "", .ok .null, false⟩, .advance 1 ⟨1, "", .ok .null, false⟩,
    .advance 0 ⟨1, "r1", .ok .null, false⟩, .advance 0 ⟨1, "", .ok .null, false⟩,
    .advance 1 ⟨1, "", .ok .null, false⟩]

theorem overlappingIssues_raise :
    let s := stateAt Codec.sample (fun _ => .null) some bearings overlappingIssues 11
    spareStock s.store.db "bearing" = 2 ∧ HasReorder s.store.db "bearing" := by
  have hstock : spareStock (stateAt Codec.sample (fun _ => .null) some bearings
      overlappingIssues 11).store.db "bearing" = 2 := by decide +kernel
  refine ⟨hstock, ?_⟩
  refine (breach_raises_request Codec.sample (fun _ => .null) some bearings (by decide) "bearing"
    _ rfl (by decide +kernel) (by decide +kernel) overlappingIssues).2 (by decide +kernel) 11 ?_
  rw [hstock]
  decide +kernel

/-- Two issues of three at once: each sums seven and finds no breach, and both commit. -/
def jointIssues : Schedule :=
  [.call (bearingIssue 3), .call (bearingIssue 3),
    .advance 0 ⟨1, "", .ok .null, false⟩, .advance 1 ⟨1, "", .ok .null, false⟩,
    .advance 0 ⟨1, "t1", .ok .null, false⟩, .advance 1 ⟨1, "t2", .ok .null, false⟩,
    .advance 0 ⟨1, "", .ok .null, false⟩, .advance 1 ⟨1, "", .ok .null, false⟩,
    .advance 0 ⟨1, "", .ok .null, false⟩, .advance 1 ⟨1, "", .ok .null, false⟩]

def Phase.succeeded : Phase → Bool
  | .ended (.ok _) => true
  | _ => false

theorem jointIssues_miss :
    ∃ part, bearings.spareParts.lookup "bearing" = some part ∧ 0 < numeric part.reorderQty ∧
      numeric part.reorderPoint < spareStock bearings "bearing" ∧ OneOpenReorder bearings ∧
      let s := stateAt Codec.sample (fun _ => .null) some bearings jointIssues 10
      s.threads.map Phase.succeeded = [true, true] ∧
        spareStock s.store.db "bearing" ≤ numeric part.reorderPoint ∧
        ¬ HasReorder s.store.db "bearing" := by
  refine ⟨_, rfl, ?_⟩
  decide +kernel

end Covered

end ElectronixMes.Maintenance.Procurement
