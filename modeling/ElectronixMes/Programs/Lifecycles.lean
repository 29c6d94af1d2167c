import ElectronixMes.Programs.Interleaving

/-!
# Transfer and revision lifecycles under concurrent requests

Two events for one reference, or two reviews of one revision, may both read before
either writes, and the writes have no condition. The lifecycles hold in every schedule
in which each write still finds the status that its session read.
-/

namespace ElectronixMes.Programs

open Db ElectronixMes.Core Edge DncBridge Relational Transition

/-- A write finds the row, if it is still there, in the status its session read. -/
def FreshWrite (st : Station) (th : Thread) : Prop :=
  match th.phase with
  | .setTransfer found _ => ∀ s ∈ transferStatus st.db found.id, s = found.status
  | .writeRevision _ id _ current =>
      ∀ s ∈ revisionStatus st.db id, RevisionStatus.parse s = some current
  | _ => True

instance (st : Station) : (th : Thread) → Decidable (FreshWrite st th)
  | ⟨_, .setTransfer found _⟩ =>
      inferInstanceAs (Decidable (∀ s ∈ transferStatus st.db found.id, s = found.status))
  | ⟨_, .writeRevision _ id _ current⟩ => inferInstanceAs
      (Decidable (∀ s ∈ revisionStatus st.db id, RevisionStatus.parse s = some current))
  | ⟨_, .send _⟩ => inferInstanceAs (Decidable True)
  | ⟨_, .recordTransfer _ _⟩ => inferInstanceAs (Decidable True)
  | ⟨_, .findTransfer _ _⟩ => inferInstanceAs (Decidable True)
  | ⟨_, .findProgram _ _⟩ => inferInstanceAs (Decidable True)
  | ⟨_, .numberRevision _ _⟩ => inferInstanceAs (Decidable True)
  | ⟨_, .insertRevision _ _ _⟩ => inferInstanceAs (Decidable True)
  | ⟨_, .readRevision _ _ _⟩ => inferInstanceAs (Decidable True)
  | ⟨_, .other _⟩ => inferInstanceAs (Decidable True)
  | ⟨_, .ended _⟩ => inferInstanceAs (Decidable True)

/-- Every transfer and every revision keeps its status, moves along its lifecycle, or
has just been created. -/
structure LifecycleStep (db db' : Database) : Prop where
  transfers : ∀ id, Moves TransferStatus.parse TransferStatus.asStr TransferStatus.canTransition
      (transferStatus db id) (transferStatus db' id) ∨
    transferStatus db id = none ∧ transferStatus db' id = some "scheduled"
  revisions : ∀ id, Moves RevisionStatus.parse RevisionStatus.asStr RevisionStatus.canTransition
      (revisionStatus db id) (revisionStatus db' id) ∨
    revisionStatus db id = none ∧ revisionStatus db' id = some "draft"

theorem LifecycleStep.of_tables {db db' : Database}
    (htransfers : db'.dncTransferEvents = db.dncTransferEvents)
    (hrevisions : db'.programRevisions = db.programRevisions) : LifecycleStep db db' := by
  refine ⟨fun id => Or.inl (Or.inl ?_), fun id => Or.inl (Or.inl ?_)⟩
  · rw [transferStatus, transferStatus, htransfers]
  · rw [revisionStatus, revisionStatus, hrevisions]

/-- A reviewed revision stays as it is. -/
theorem LifecycleStep.reviewed {db db' : Database} (h : LifecycleStep db db') {id : String}
    {s : RevisionStatus} (hs : s ≠ .draft) (hid : revisionStatus db id = some s.asStr) :
    revisionStatus db' id = some s.asStr := by
  rcases h.revisions id with hmoves | ⟨hnone, -⟩
  · rw [hmoves.final (s := s) (by rw [hid]; exact RevisionStatus.parse_asStr s)
      (RevisionStatus.canTransition_of_ne_draft hs), hid]
  · rw [hid] at hnone
    cases hnone

/-- The stored statuses of transfers are known ones. -/
def Recognised (st : Station) : Prop :=
  ∀ t ∈ st.db.dncTransferEvents, ∃ s, TransferStatus.parse t.status = some s

/-- What a session has checked, and that its answer is what is stored. -/
def Assertion (st : Station) (_ : ℕ) (th : Thread) : Prop :=
  match th.phase with
  | .findTransfer _ status => status.isTerminal = true
  | .setTransfer found status => status.isTerminal = true ∧
      ∃ s, TransferStatus.parse found.status = some s ∧ s.isTerminal = false
  | .writeRevision _ _ target current => current.canTransition target = true
  | .ended (.ok (.revision r)) =>
      ∃ s : RevisionStatus, s ≠ .draft ∧ r.status = s.asStr ∧
        revisionStatus st.db r.id = some s.asStr
  | _ => True

section Step

variable {input : Input} {st : Station} {ph : Phase} {res : Station × Phase} {who : ℕ}
  {request : Request}

theorem isTerminal_of_isOpen {t : TransferRow} {s : TransferStatus} (hopen : t.IsOpen)
    (hs : TransferStatus.parse t.status = some s) : s.isTerminal = false := by
  have hstatus := TransferStatus.eq_asStr_of_parse hs
  obtain ⟨hcompleted, hfailed⟩ := hopen
  cases s with
  | completed => exact absurd hstatus hcompleted
  | failed => exact absurd hstatus hfailed
  | scheduled | notified | fetched => rfl

theorem recognised_ran (hran : Ran input st ph res) (h : Recognised st) : Recognised res.1 := by
  cases hran with
  | recorded r insert reference scheduled =>
      intro t ht
      rcases (Table.mem_insert? insert).mp ht with ht | rfl
      · exact h t ht
      · exact ⟨.scheduled, by rw [scheduled]; rfl⟩
  | closed status stored =>
      intro t ht
      rcases Table.mem_put.mp ht with rfl | ⟨ht, -⟩
      · exact ⟨status, TransferStatus.parse_asStr status⟩
      · exact h t ht
  | refused | sent | missed | found | unknownProgram | foundProgram | numbered | drafted
  | checked | reviewed | other | ended => exact h

/-- A statement whose write is fresh is a step of the lifecycles. -/
theorem lifecycleStep_ran (hran : Ran input st ph res)
    (hknown : Assertion st who ⟨request, ph⟩) (hfresh : FreshWrite st ⟨request, ph⟩) :
    LifecycleStep st.db res.1.db := by
  cases hran with
  | recorded r insert reference scheduled =>
      refine ⟨?_, fun id => Or.inl (Or.inl rfl)⟩
      intro id
      rw [transferStatus_insert insert]
      split
      · rename_i hid
        rw [hid, scheduled]
        exact Or.inr ⟨transferStatus_of_insert insert, rfl⟩
      · exact Or.inl (Or.inl rfl)
  | @closed found t status stored =>
      obtain ⟨hterminal, s, hs, hopen⟩ := hknown
      have hread : t.status = found.status := hfresh _ (by rw [transferStatus, stored]; rfl)
      have hkey : t.id = found.id := (Table.lookup_eq_some.mp stored).2
      refine ⟨?_, fun id => Or.inl (Or.inl rfl)⟩
      intro id
      rw [transferStatus_put]
      split
      · rename_i hid
        refine Or.inl (Or.inr ⟨s, status, ?_, ?_, rfl⟩)
        · rw [hid, TransferRow.withStatus_id, hkey, transferStatus, stored, Option.map_some,
            hread]
          exact hs
        · exact TransferStatus.canTransition_terminal hopen hterminal
      · exact Or.inl (Or.inl rfl)
  | drafted contentRef insert program number draft free =>
      refine ⟨fun id => Or.inl (Or.inl rfl), ?_⟩
      intro id
      rw [revisionStatus_insert insert]
      split
      · rename_i hid
        rw [hid, draft]
        exact Or.inr ⟨revisionStatus_of_insert insert, rfl⟩
      · exact Or.inl (Or.inl rfl)
  | @reviewed id r auth target current stored =>
      have hkey : r.id = id := (Table.lookup_eq_some.mp stored).2
      refine ⟨fun id => Or.inl (Or.inl rfl), ?_⟩
      intro k
      rw [revisionStatus_put]
      split
      · rename_i hid
        refine Or.inl (Or.inr ⟨current, target, ?_, hknown, rfl⟩)
        rw [hid, RevisionRow.withStatus_id, hkey, revisionStatus, stored, Option.map_some]
        exact hfresh _ (by rw [revisionStatus, stored]; rfl)
      · exact Or.inl (Or.inl rfl)
  | refused | sent | missed | found | unknownProgram | foundProgram | numbered | checked
  | other | ended => exact .of_tables rfl rfl

/-- A statement establishes what its own session knows next. -/
theorem assertion_ran (hran : Ran input st ph res) (h : Recognised st)
    (hknown : Assertion st who ⟨request, ph⟩) : Assertion res.1 who ⟨request, res.2⟩ := by
  cases hran with
  | found status find =>
      obtain ⟨hmem, -, hopen, -⟩ := findOpenTransferByRef_some find
      obtain ⟨s, hs⟩ := h _ hmem
      exact ⟨hknown, s, hs, isTerminal_of_isOpen hopen hs⟩
  | checked auth stored parsed can => exact can
  | reviewed auth target current stored =>
      refine ⟨target, RevisionStatus.canTransition_ne_draft hknown, rfl, ?_⟩
      rw [revisionStatus_put, if_pos rfl]
      rfl
  | ended reply => exact hknown
  | refused | sent | recorded | missed | closed | unknownProgram | foundProgram | numbered
  | drafted | other => trivial

theorem assertion_started (h : Started request ph) : Assertion st who ⟨request, ph⟩ := by
  cases h with
  | outcome e ref terminal => exact terminal
  | schedule | received | review | forbidden | other => trivial

/-- What a session knows survives a step of the lifecycles by another. -/
theorem Assertion.stable {st' : Station} {th : Thread} (h : Assertion st who th)
    (hstep : LifecycleStep st.db st'.db) : Assertion st' who th := by
  obtain ⟨request, ph⟩ := th
  cases ph with
  | ended reply =>
      cases reply with
      | error e => trivial
      | ok reply =>
          cases reply with
          | revision r =>
              obtain ⟨s, hs, hstatus, hstored⟩ := h
              exact ⟨s, hs, hstatus, hstep.reviewed hs hstored⟩
          | transfer r => trivial
          | done => trivial
  | send | recordTransfer | findTransfer | setTransfer | findProgram | numberRevision
  | insertRevision | readRevision | writeRevision | other => exact h

end Step

/-- Known statuses, and what every open session knows. -/
def Consistent : State → Prop := Sessions.Inv Recognised Assertion

theorem consistent_step {s : State} (h : Consistent s) {m : Move Request Input}
    (hm : Sessions.Guarded FreshWrite s m) : Consistent (step s m) := by
  refine Sessions.Inv.step (P := FreshWrite) ?_ ?_ ?_ h hm
  · intro st i r _
    exact assertion_started (started r)
  · intro who input st th hst hth _
    have hran := ran_run input st th.phase
    exact ⟨recognised_ran hran hst, assertion_ran hran hst hth⟩
  · intro who input st th i other _ hst hth hfresh hother
    exact hother.stable (lifecycleStep_ran (ran_run input st th.phase) hth hfresh)

theorem consistent_opened (db : Database) : Consistent (opened db) :=
  Sessions.inv_nil fun _ ht => absurd ht (Table.notMem_empty _)

theorem lifecycleStep_step {s : State} (h : Consistent s) {m : Move Request Input}
    (hm : Sessions.Guarded FreshWrite s m) : LifecycleStep s.store.db (step s m).store.db := by
  rcases Sessions.step_cases Request.thread exec s m with
    ⟨r, -, heq⟩ | heq | ⟨who, input, th, rfl, hth, heq⟩
  · rw [step, heq]
    exact .of_tables rfl rfl
  · rw [step, heq]
    exact .of_tables rfl rfl
  · rw [step, heq]
    exact lifecycleStep_ran (ran_run input s.store th.phase) (h.2 who th hth) (hm.of_thread hth)

/-- The revision that a finished review has answered with. -/
def Thread.answer (th : Thread) : Option RevisionRow :=
  match th.phase with
  | .ended (.ok (.revision r)) => some r
  | _ => none

theorem assertion_answer {st : Station} {who : ℕ} {th : Thread} {r : RevisionRow}
    (h : Assertion st who th) (hr : th.answer = some r) :
    ∃ s : RevisionStatus, s ≠ .draft ∧ r.status = s.asStr ∧
      revisionStatus st.db r.id = some s.asStr := by
  obtain ⟨request, ph⟩ := th
  unfold Thread.answer at hr
  split at hr
  · rename_i heq
    obtain rfl : ph = _ := heq
    cases hr
    exact h
  · cases hr

section Runs

variable {db : Database} {moves : Schedule}
  (hfresh : Along step (Sessions.Guarded FreshWrite) (opened db) moves)

include hfresh

theorem lifecycleStep_stateAt (k : ℕ) :
    LifecycleStep (stateAt db moves k).store.db (stateAt db moves (k + 1)).store.db := by
  refine hfresh.each_step (I := Consistent)
    (R := fun s s' => LifecycleStep s.store.db s'.store.db) ?_ ?_ (consistent_opened db) k
  · intro s
    exact .of_tables rfl rfl
  · intro s m hs hm
    exact ⟨consistent_step hs hm, lifecycleStep_step hs hm⟩

theorem reviewed_stateAt {k l : ℕ} (hkl : k ≤ l) {id : String} {s : RevisionStatus}
    (hs : s ≠ .draft) (hk : revisionStatus (stateAt db moves k).store.db id = some s.asStr) :
    revisionStatus (stateAt db moves l).store.db id = some s.asStr := by
  induction l, hkl using Nat.le_induction with
  | base => exact hk
  | succ l _ ih => exact (lifecycleStep_stateAt hfresh l).reviewed hs ih

end Runs

/-- In every schedule whose writes find the status that was read, each transfer and
each revision only moves along its lifecycle, and what a reviewer was answered stays
stored. -/
theorem reviews_and_closings_final (db : Database) (moves : Schedule)
    (hfresh : Along step (Sessions.Guarded FreshWrite) (opened db) moves) :
    (∀ k, LifecycleStep (stateAt db moves k).store.db (stateAt db moves (k + 1)).store.db) ∧
    ∀ (k l who : ℕ) r, k ≤ l → (stateAt db moves k).threads[who]?.bind Thread.answer = some r →
      revisionStatus (stateAt db moves l).store.db r.id = some r.status := by
  refine ⟨lifecycleStep_stateAt hfresh, ?_⟩
  intro k l who r hkl hanswer
  obtain ⟨th, hth, hr⟩ := Option.bind_eq_some_iff.mp hanswer
  have hconsistent : Consistent (stateAt db moves k) :=
    (hfresh.take k).invariant (fun _ _ hs hm => consistent_step hs hm) (consistent_opened db)
  obtain ⟨s, hs, hstatus, hstored⟩ := assertion_answer (hconsistent.2 who th hth) hr
  rw [hstatus]
  exact reviewed_stateAt hfresh hkl hs hstored

/-- A program and two reviewers. -/
def reviewFloor : Database := { programFloor with users := {"ann", "bob"} }

def ann : AuthUser := ⟨"ann", Roles.supervisor⟩
def bob : AuthUser := ⟨"bob", Roles.planner⟩

/-- A transfer is scheduled and a draft received. -/
def scheduledAndDrafted : Schedule :=
  [.call (.schedule sendProgram), .advance 0 ⟨1, "", none⟩, .advance 0 ⟨2, "t", none⟩,
    .call (.event (.programReceived "O1000" none)), .advance 1 ⟨3, "", none⟩,
    .advance 1 ⟨3, "", none⟩, .advance 1 ⟨4, "rev", none⟩]

/-- Both events and both reviews read before either of them writes. -/
def crossedWrites : Schedule :=
  scheduledAndDrafted ++
    [.call (.event (.transferCompleted "tcp-0")), .call (.event (.transferFailed "tcp-0" "")),
      .advance 2 ⟨5, "", none⟩, .advance 3 ⟨5, "", none⟩, .advance 2 ⟨6, "", none⟩,
      .advance 3 ⟨7, "", none⟩, .call (.promote ann "rev"), .call (.reject bob "rev"),
      .advance 4 ⟨8, "", none⟩, .advance 5 ⟨8, "", none⟩, .advance 4 ⟨9, "", none⟩,
      .advance 5 ⟨10, "", none⟩]

/-- The completed transfer fails, and the revision that one reviewer was told is
promoted is stored as rejected. -/
theorem crossedWrites_leave_lifecycle :
    ¬ (∀ k, LifecycleStep (stateAt reviewFloor crossedWrites k).store.db
      (stateAt reviewFloor crossedWrites (k + 1)).store.db) ∧
    transferStatus (stateAt reviewFloor crossedWrites 12).store.db "t" = some "completed" ∧
    transferStatus (stateAt reviewFloor crossedWrites 13).store.db "t" = some "failed" ∧
    ((stateAt reviewFloor crossedWrites 19).threads[4]?.bind Thread.answer).map
      RevisionRow.status = some "promoted" ∧
    revisionStatus (stateAt reviewFloor crossedWrites 19).store.db "rev" = some "rejected" := by
  have hcompleted : transferStatus (stateAt reviewFloor crossedWrites 12).store.db "t" =
      some "completed" := by decide +kernel
  have hfailed : transferStatus (stateAt reviewFloor crossedWrites 13).store.db "t" =
      some "failed" := by decide +kernel
  refine ⟨?_, hcompleted, hfailed, by decide +kernel, by decide +kernel⟩
  intro hsteps
  rcases (hsteps 12).transfers "t" with hmoves | ⟨hnone, -⟩
  · have hsame := hmoves.final (s := .completed) (by rw [hcompleted]; rfl)
      (TransferStatus.canTransition_of_isTerminal rfl)
    rw [hcompleted, hfailed] at hsame
    exact absurd hsame (by decide)
  · rw [hcompleted] at hnone
    cases hnone

/-- The second event and the second review read after the first has written. -/
def orderedWrites : Schedule :=
  scheduledAndDrafted ++
    [.call (.event (.transferCompleted "tcp-0")), .call (.event (.transferFailed "tcp-0" "")),
      .advance 2 ⟨5, "", none⟩, .advance 2 ⟨6, "", none⟩, .advance 3 ⟨7, "", none⟩,
      .call (.promote ann "rev"), .call (.reject bob "rev"), .advance 4 ⟨8, "", none⟩,
      .advance 4 ⟨9, "", none⟩, .advance 5 ⟨10, "", none⟩]

theorem reviews_and_closings_final_orderedWrites :
    (∀ k, LifecycleStep (stateAt reviewFloor orderedWrites k).store.db
      (stateAt reviewFloor orderedWrites (k + 1)).store.db) ∧
    revisionStatus (stateAt reviewFloor orderedWrites 17).store.db "rev" = some "promoted" :=
  ⟨(reviews_and_closings_final reviewFloor orderedWrites (by decide +kernel)).1,
    by decide +kernel⟩

end ElectronixMes.Programs
