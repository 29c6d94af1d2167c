import ElectronixMes.Programs.Lifecycles

/-!
# The store of revisions

Over every schedule: the revisions of a program are numbered from one without gaps,
each enters as a draft, and only a promotion by a role that may review makes one
promoted. The number of a draft is computed before it is inserted; meanwhile others may
be inserted, and then the unique index refuses it.
-/

namespace ElectronixMes.Programs

open Db ElectronixMes.Core Edge DncBridge Relational Transition

/-- The numbers of a program's revisions, in the order of their insertion. -/
def revisionNumbers (db : Database) (programId : String) : List Int :=
  (db.programRevisions.rows.filter fun r => r.programId = programId).map fun r =>
    r.revisionNo.toInt

/-- The numbers from one to `n`. -/
def firstNumbers (n : ℕ) : List Int := (List.range n).map fun i : ℕ => (i : Int) + 1

/-- The revisions of every program are numbered from one on. -/
def Sequenced (st : Station) : Prop :=
  ∀ programId, revisionNumbers st.db programId =
    firstNumbers (revisionNumbers st.db programId).length

section Numbers

theorem length_firstNumbers (n : ℕ) : (firstNumbers n).length = n := by
  simp [firstNumbers]

theorem mem_firstNumbers {n : ℕ} {i : Int} : i ∈ firstNumbers n ↔ 1 ≤ i ∧ i ≤ n := by
  simp only [firstNumbers, List.mem_map, List.mem_range]
  constructor
  · rintro ⟨k, hk, rfl⟩
    omega
  · rintro ⟨hlo, hhi⟩
    exact ⟨(i - 1).toNat, by omega, by omega⟩

theorem firstNumbers_succ (n : ℕ) : firstNumbers (n + 1) = firstNumbers n ++ [(n : Int) + 1] := by
  simp [firstNumbers, List.range_succ]

theorem max?_firstNumbers (n : ℕ) : (firstNumbers n).max?.getD 0 = n := by
  cases n with
  | zero => rfl
  | succ n =>
      have hmax : (firstNumbers (n + 1)).max? = some ((n : Int) + 1) := by
        rw [List.max?_eq_some_iff]
        refine ⟨mem_firstNumbers.mpr ⟨by omega, by omega⟩, ?_⟩
        intro i hi
        have := (mem_firstNumbers.mp hi).2
        omega
      rw [hmax, Option.getD_some]
      push_cast
      rfl

variable {db : Database} {r : RevisionRow} {revisions : Table RevisionRow}

theorem revisionNumbers_insert (h : db.programRevisions.insert? r = some revisions)
    (programId : String) :
    revisionNumbers { db with programRevisions := revisions } programId =
      revisionNumbers db programId ++
        if r.programId = programId then [r.revisionNo.toInt] else [] := by
  simp only [revisionNumbers, Table.rows_insert? h, List.filter_append, List.map_append]
  congr 1
  by_cases hp : r.programId = programId <;> simp [hp]

/-- Setting a status keeps every number. -/
theorem revisionNumbers_withStatus {id : String} (hr : db.programRevisions.lookup id = some r)
    (status actor : String) (now : Int) (programId : String) :
    revisionNumbers { db with
        programRevisions := db.programRevisions.put (r.withStatus status actor now) } programId =
      revisionNumbers db programId := by
  have hcolumns : (db.programRevisions.put (r.withStatus status actor now)).rows.map
      (fun r => (r.programId, r.revisionNo)) =
        db.programRevisions.rows.map fun r => (r.programId, r.revisionNo) := by
    apply Table.map_rows_put (Table.lookup_eq_some.mp hr).1
    · rfl
    · rfl
  have hnumbers (rows : List RevisionRow) :
      (rows.filter fun r => r.programId = programId).map (fun r => r.revisionNo.toInt) =
        ((rows.map fun r => (r.programId, r.revisionNo)).filter fun c => c.1 = programId).map
          fun c => c.2.toInt := by
    rw [List.filter_map, List.map_map]
    rfl
  simp only [revisionNumbers]
  rw [hnumbers, hnumbers, hcolumns]

end Numbers

/-- What a session knows: a review is served for a role that may review, with the target
of its request, and the number of a draft is at most the next one. -/
def Entitled (st : Station) (_ : ℕ) (th : Thread) : Prop :=
  match th.phase with
  | .readRevision auth id target =>
      canPromoteRevision auth.role = true ∧ th.request.Reviews auth id target
  | .writeRevision auth id target _ =>
      canPromoteRevision auth.role = true ∧ th.request.Reviews auth id target
  | .insertRevision programId _ no =>
      1 ≤ no.toInt ∧ no.toInt ≤ (revisionNumbers st.db programId).length + 1
  | _ => True

section Step

variable {input : Input} {st : Station} {ph : Phase} {res : Station × Phase} {who : ℕ}
  {request : Request}

theorem entitled_started (h : Started request ph) : Entitled st who ⟨request, ph⟩ := by
  cases h with
  | review reviews may => exact ⟨may, reviews⟩
  | schedule | outcome | received | forbidden | other => trivial

/-- The computed number is the one after the last. -/
theorem nextRevisionNo_toInt {programId : String} {no : Int32} (h : Sequenced st)
    (hno : nextRevisionNo st.db programId = .ok no) :
    no.toInt = (revisionNumbers st.db programId).length + 1 := by
  have hmax : (revisionNumbers st.db programId).max?.getD 0 =
      (revisionNumbers st.db programId).length := by
    rw [h programId, max?_firstNumbers, length_firstNumbers]
  have hrange : (Int32.ofInt (revisionNumbers st.db programId).length).toInt =
      (revisionNumbers st.db programId).length := by
    rcases Nat.eq_zero_or_pos (revisionNumbers st.db programId).length with hzero | hpos
    · rw [hzero]
      rfl
    · -- the largest number is one that is stored
      have hmem : ((revisionNumbers st.db programId).length : Int) ∈
          firstNumbers (revisionNumbers st.db programId).length :=
        mem_firstNumbers.mpr ⟨by omega, by omega⟩
      rw [← h programId] at hmem
      obtain ⟨r, -, hr⟩ := List.mem_map.mp hmem
      rw [← hr, Int32.ofInt_toInt]
  have hroll := rollUp_ok hno
  rw [← hrange, ← hmax]
  exact hroll

/-- A draft that is inserted has the number after the last one. -/
theorem sequenced_insert {programId : String} {no : Int32} {row : RevisionRow}
    {revisions : Table RevisionRow} (h : Sequenced st)
    (hins : st.db.programRevisions.insert? row = some revisions)
    (hprogram : row.programId = programId) (hno : row.revisionNo = no)
    (hfree : ∀ r ∈ st.db.programRevisions, r.programId = programId → r.revisionNo ≠ no)
    (hbound : 1 ≤ no.toInt ∧ no.toInt ≤ (revisionNumbers st.db programId).length + 1) :
    Sequenced { st with db := { st.db with programRevisions := revisions } } := by
  have hlast : no.toInt = (revisionNumbers st.db programId).length + 1 := by
    by_contra hne
    have hmem : no.toInt ∈ revisionNumbers st.db programId := by
      rw [h programId]
      exact mem_firstNumbers.mpr ⟨hbound.1, by omega⟩
    obtain ⟨r, hr, hsame⟩ := List.mem_map.mp hmem
    obtain ⟨hmem, hp⟩ := List.mem_filter.mp hr
    exact hfree r hmem (of_decide_eq_true hp) (Int32.toInt_inj.mp hsame)
  intro p
  rw [revisionNumbers_insert hins]
  by_cases hp : row.programId = p
  · obtain rfl : programId = p := hprogram.symm.trans hp
    rw [if_pos hp, List.length_append, List.length_singleton, firstNumbers_succ, ← h programId,
      hno, hlast]
  · rw [if_neg hp, List.append_nil]
    exact h p

theorem sequenced_ran (hran : Ran input st ph res) (h : Sequenced st)
    (hknown : Entitled st who ⟨request, ph⟩) : Sequenced res.1 := by
  cases hran with
  | drafted contentRef insert program number draft free =>
      exact sequenced_insert h insert program number free hknown
  | reviewed auth target current stored =>
      intro p
      rw [revisionNumbers_withStatus stored]
      exact h p
  | refused | sent | recorded | missed | found | closed | unknownProgram | foundProgram
  | numbered | checked | other | ended => exact h

/-- No statement takes a number away. -/
theorem length_revisionNumbers_ran (hran : Ran input st ph res) (programId : String) :
    (revisionNumbers st.db programId).length ≤ (revisionNumbers res.1.db programId).length := by
  cases hran with
  | drafted contentRef insert program number draft free =>
      rw [revisionNumbers_insert insert, List.length_append]
      omega
  | reviewed auth target current stored =>
      rw [revisionNumbers_withStatus stored]
  | refused | sent | recorded | missed | found | closed | unknownProgram | foundProgram
  | numbered | checked | other | ended => exact le_refl _

theorem entitled_ran (hran : Ran input st ph res) (h : Sequenced st)
    (hknown : Entitled st who ⟨request, ph⟩) : Entitled res.1 who ⟨request, res.2⟩ := by
  cases hran with
  | numbered contentRef next =>
      have hno := nextRevisionNo_toInt h next
      refine ⟨by omega, ?_⟩
      dsimp only
      omega
  | checked auth stored parsed can => exact hknown
  | refused | sent | recorded | missed | found | closed | unknownProgram | foundProgram
  | drafted | reviewed | other | ended => trivial

theorem Entitled.stable {st' : Station} {th : Thread} (h : Entitled st who th)
    (hlength : ∀ programId, (revisionNumbers st.db programId).length ≤
      (revisionNumbers st'.db programId).length) : Entitled st' who th := by
  obtain ⟨request, ph⟩ := th
  cases ph with
  | insertRevision programId contentRef no =>
      obtain ⟨hlo, hhi⟩ := h
      have := hlength programId
      exact ⟨hlo, by omega⟩
  | send | recordTransfer | findTransfer | setTransfer | findProgram | numberRevision
  | readRevision | writeRevision | other | ended => exact h

/-- What a statement does to the status of a revision: nothing, the insert of a draft, or
the target of the review that the session serves. -/
theorem revisionStatus_ran (hran : Ran input st ph res) (hknown : Entitled st who ⟨request, ph⟩)
    (id : String) :
    revisionStatus res.1.db id = revisionStatus st.db id ∨
    revisionStatus st.db id = none ∧ revisionStatus res.1.db id = some "draft" ∨
    ∃ auth, revisionStatus st.db id ≠ none ∧ canPromoteRevision auth.role = true ∧
      (request = .promote auth id ∧ revisionStatus res.1.db id = some "promoted" ∨
        request = .reject auth id ∧ revisionStatus res.1.db id = some "rejected") := by
  cases hran with
  | drafted contentRef insert program number draft free =>
      rw [revisionStatus_insert insert]
      split
      · rename_i hid
        rw [hid, draft]
        exact Or.inr (Or.inl ⟨revisionStatus_of_insert insert, rfl⟩)
      · exact Or.inl rfl
  | @reviewed k r auth target current stored =>
      have hkey : r.id = k := (Table.lookup_eq_some.mp stored).2
      obtain ⟨hrole, hserves⟩ := hknown
      rw [revisionStatus_put]
      split
      · rename_i hid
        obtain rfl : id = k := hid.trans hkey
        refine Or.inr (Or.inr ⟨auth, by simp [revisionStatus, stored], hrole, ?_⟩)
        rcases hserves with ⟨hrequest, rfl⟩ | ⟨hrequest, rfl⟩
        · exact Or.inl ⟨hrequest, rfl⟩
        · exact Or.inr ⟨hrequest, rfl⟩
      · exact Or.inl rfl
  | refused | sent | recorded | missed | found | closed | unknownProgram | foundProgram
  | numbered | checked | other | ended => exact Or.inl rfl

end Step

section Runs

variable (db : Database) (moves : Schedule)

theorem ordered_stateAt (k : ℕ) : Sessions.Inv Sequenced Entitled (stateAt db moves k) := by
  apply Sessions.Inv.run
  · intro st i r _
    exact entitled_started (started r)
  · intro who input st th hst hth
    have hran := ran_run input st th.phase
    exact ⟨sequenced_ran hran hst hth, entitled_ran hran hst hth⟩
  · intro who input st th i other _ _ _ hother
    exact hother.stable (length_revisionNumbers_ran (ran_run input st th.phase))
  · exact Sessions.inv_nil fun _ => rfl

/-- How the status of a revision changes at one move of a run. -/
theorem revisionStatus_stateAt (k : ℕ) (id : String) :
    revisionStatus (stateAt db moves (k + 1)).store.db id =
      revisionStatus (stateAt db moves k).store.db id ∨
    revisionStatus (stateAt db moves k).store.db id = none ∧
      revisionStatus (stateAt db moves (k + 1)).store.db id = some "draft" ∨
    ∃ who input th auth, moves[k]? = some (.advance who input) ∧
      (stateAt db moves k).threads[who]? = some th ∧
      revisionStatus (stateAt db moves k).store.db id ≠ none ∧
      canPromoteRevision auth.role = true ∧
      (th.request = .promote auth id ∧
          revisionStatus (stateAt db moves (k + 1)).store.db id = some "promoted" ∨
        th.request = .reject auth id ∧
          revisionStatus (stateAt db moves (k + 1)).store.db id = some "rejected") := by
  rcases stateAt_succ db moves k with hsame | ⟨m, hm, heq⟩
  · rw [hsame]
    exact Or.inl rfl
  · rw [heq, step]
    rcases Sessions.step_cases Request.thread exec (stateAt db moves k) m with
      ⟨r, -, hstep⟩ | hstep | ⟨who, input, th, rfl, hth, hstep⟩
    · rw [hstep]
      exact Or.inl rfl
    · rw [hstep]
      exact Or.inl rfl
    · rw [hstep]
      rcases revisionStatus_ran (ran_run input (stateAt db moves k).store th.phase)
        ((ordered_stateAt db moves k).2 who th hth) id with hsame | hdraft | ⟨auth, hreview⟩
      · exact Or.inl hsame
      · exact Or.inr (Or.inl hdraft)
      · exact Or.inr (Or.inr ⟨who, input, th, auth, hm, hth, hreview⟩)

/-- A promoted revision was promoted by a request of a role that may review. -/
theorem promoted_by_request (k : ℕ) (id : String)
    (h : revisionStatus (stateAt db moves k).store.db id = some "promoted") :
    ∃ j who input th auth, j < k ∧ moves[j]? = some (.advance who input) ∧
      (stateAt db moves j).threads[who]? = some th ∧ th.request = .promote auth id ∧
      canPromoteRevision auth.role = true ∧
      revisionStatus (stateAt db moves (j + 1)).store.db id = some "promoted" := by
  induction k with
  | zero => cases h
  | succ k ih =>
      rcases revisionStatus_stateAt db moves k id with
        hsame | ⟨-, hdraft⟩ | ⟨who, input, th, auth, hm, hth, -, hrole, hreview⟩
      · obtain ⟨j, who, input, th, auth, hj, hrest⟩ := ih (hsame ▸ h)
        exact ⟨j, who, input, th, auth, by omega, hrest⟩
      · rw [hdraft] at h
        exact absurd h (by decide)
      · rcases hreview with ⟨hrequest, hpromoted⟩ | ⟨-, hrejected⟩
        · exact ⟨k, who, input, th, auth, by omega, hm, hth, hrequest, hrole, hpromoted⟩
        · rw [hrejected] at h
          exact absurd h (by decide)

/-- A statement of an event leaves the status of every stored revision alone. -/
theorem revisionStatus_of_event {k who : ℕ} {input : Input} {th : Thread} {e : DncEvent}
    (hm : moves[k]? = some (.advance who input))
    (hth : (stateAt db moves k).threads[who]? = some th) (hrequest : th.request = .event e)
    (id : String) (hstored : revisionStatus (stateAt db moves k).store.db id ≠ none) :
    revisionStatus (stateAt db moves (k + 1)).store.db id =
      revisionStatus (stateAt db moves k).store.db id := by
  rcases revisionStatus_stateAt db moves k id with
    hsame | ⟨hnone, -⟩ | ⟨who', input', th', auth, hm', hth', -, -, hreview⟩
  · exact hsame
  · exact absurd hnone hstored
  · rw [hm, Option.some.injEq] at hm'
    cases hm'
    rw [hth, Option.some.injEq] at hth'
    subst hth'
    rw [hrequest] at hreview
    rcases hreview with ⟨h, -⟩ | ⟨h, -⟩ <;> cases h

/-- After every schedule the revisions of each program are numbered from one without
gaps; each enters as a draft; a promoted one was promoted by a request of a role that
may review; and no event changes the status of a stored one. -/
theorem revisions_drafted_then_reviewed :
    (∀ k programId, ∃ n, revisionNumbers (stateAt db moves k).store.db programId =
      firstNumbers n) ∧
    (∀ k id, revisionStatus (stateAt db moves k).store.db id = none →
      revisionStatus (stateAt db moves (k + 1)).store.db id = none ∨
        revisionStatus (stateAt db moves (k + 1)).store.db id = some "draft") ∧
    (∀ k id, revisionStatus (stateAt db moves k).store.db id = some "promoted" →
      ∃ j who input th auth, j < k ∧ moves[j]? = some (.advance who input) ∧
        (stateAt db moves j).threads[who]? = some th ∧ th.request = .promote auth id ∧
        canPromoteRevision auth.role = true ∧
        revisionStatus (stateAt db moves (j + 1)).store.db id = some "promoted") ∧
    ∀ k who input th e, moves[k]? = some (.advance who input) →
      (stateAt db moves k).threads[who]? = some th → th.request = .event e →
      ∀ id, revisionStatus (stateAt db moves k).store.db id ≠ none →
        revisionStatus (stateAt db moves (k + 1)).store.db id =
          revisionStatus (stateAt db moves k).store.db id := by
  refine ⟨?_, ?_, promoted_by_request db moves, ?_⟩
  · intro k programId
    exact ⟨_, (ordered_stateAt db moves k).1 programId⟩
  · intro k id hnone
    rcases revisionStatus_stateAt db moves k id with
      hsame | ⟨-, hdraft⟩ | ⟨-, -, -, -, -, -, hstored, -⟩
    · exact Or.inl (hsame.trans hnone)
    · exact Or.inr hdraft
    · exact absurd hnone hstored
  · intro k who input th e hm hth hrequest
    exact revisionStatus_of_event db moves hm hth hrequest

end Runs

/-- The draft of the example run was promoted by its reviewer. -/
theorem revisions_drafted_then_reviewed_orderedWrites :
    revisionNumbers (stateAt reviewFloor orderedWrites 17).store.db "prog" = [1] ∧
      ∃ j who input th auth, j < 17 ∧ orderedWrites[j]? = some (.advance who input) ∧
        (stateAt reviewFloor orderedWrites j).threads[who]? = some th ∧
        th.request = .promote auth "rev" ∧ canPromoteRevision auth.role = true ∧
        revisionStatus (stateAt reviewFloor orderedWrites (j + 1)).store.db "rev" =
          some "promoted" :=
  ⟨by decide +kernel, (revisions_drafted_then_reviewed reviewFloor orderedWrites).2.2.1 17 "rev"
    (by decide +kernel)⟩

end ElectronixMes.Programs
