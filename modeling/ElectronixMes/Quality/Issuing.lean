import ElectronixMes.Quality.Interleaving
import ElectronixMes.Transition.Run

/-!
# Issues under concurrent holds

An issue checks the holds on its lot and on its serial, each in a statement of its own, and
inserts its movement in a third. The checks still stand at the insert as long as no hold on
the material commits in between.
-/

namespace ElectronixMes.Quality.Interleaving

open Db ElectronixMes.Core Relational Serde Transition

section Checked

/-- The material that a call has found free of holds and not issued yet. -/
def Phase.checked : Phase → List Material
  | .checkSerial i => Material.named i.lotId none
  | .insertIssue i => Material.named i.lotId i.serialId
  | _ => []

/-- The statement commits a hold on the material. -/
def Phase.Blocks : Phase → Material → Prop
  | .placeHold entityType entityId _ _, m => entityType = m.entityType ∧ entityId = m.entityId
  | .commitResult w, m => ∃ h ∈ w.holds, h.IsOn m
  | _, _ => False

instance decidableBlocks : (ph : Phase) → (m : Material) → Decidable (ph.Blocks m)
  | .placeHold entityType entityId _ _, m =>
      inferInstanceAs (Decidable (entityType = m.entityType ∧ entityId = m.entityId))
  | .commitResult w, m => inferInstanceAs (Decidable (∃ h ∈ w.holds, h.IsOn m))
  | .readLimits .., _ | .insertResult .., _ | .insertNcr .., _ | .insertHold .., _
  | .beginDisposition .., _ | .updateNcr .., _ | .updateHolds .., _ | .commitDisposition .., _
  | .releaseHold .., _ | .checkLot .., _ | .checkSerial .., _ | .insertIssue .., _
  | .ended .., _ => inferInstanceAs (Decidable False)

/-- The statement a move runs commits no hold on material that an issue stands between its
check and its insert of. -/
def Clear (s : State) : Move Request Input → Prop
  | .call _ => True
  | .advance who _ =>
      ∀ c ∈ s.threads[who]?, ∀ u ∈ s.threads, ∀ m ∈ u.phase.checked, ¬ c.phase.Blocks m

instance (s : State) : (m : Move Request Input) → Decidable (Clear s m)
  | .call _ => inferInstanceAs (Decidable True)
  | .advance who _ => inferInstanceAs (Decidable
      (∀ c ∈ s.threads[who]?, ∀ u ∈ s.threads, ∀ m ∈ u.phase.checked, ¬ c.phase.Blocks m))

/-- What a call has checked is not held. -/
def Unheld (db : Database) (ph : Phase) : Prop := ∀ m ∈ ph.checked, isHeld db m = false

variable {db db' : Database} {st : Store} {who : ℕ} {ph : Phase} {res : Store × Phase}
  {m : Material}

theorem isHeld_iff : isHeld db m = true ↔ ∃ h ∈ db.holds, h.IsOn m ∧ h.status = "active" := by
  simp [isHeld]

/-- Material stays free under holds that are old, released, or on something else. -/
theorem isHeld_eq_false_of (h : isHeld db m = false)
    (hholds : ∀ k ∈ db'.holds, k ∈ db.holds ∨ k.status ≠ "active" ∨ ¬ k.IsOn m) :
    isHeld db' m = false := by
  rw [Bool.eq_false_iff, ne_eq, isHeld_iff] at h ⊢
  rintro ⟨k, hk, hon, hactive⟩
  rcases hholds k hk with hold | hreleased | hother
  · exact h ⟨k, hold, hon, hactive⟩
  · exact hreleased hactive
  · exact hother hon

/-- Only a statement that commits a hold on the material makes it held. -/
theorem Ran.isHeld_eq_false (h : Ran who st ph res) (hfree : isHeld st.db m = false)
    (hclear : ¬ ph.Blocks m) : isHeld res.1.db m = false := by
  cases h with
  | refused e runs =>
      have hdb : (st.unlock ph).db = st.db := by cases ph <;> rfl
      dsimp only
      rw [hdb]
      exact hfree
  | evaluated | passed | failed | raised | blocked | began | waited | tookNcr | tookHolds
  | checkedLot | checkedSerial => exact hfree
  | issued insert lot serial => exact isHeld_eq_false_of hfree fun k hk => Or.inl hk
  | recorded written =>
      obtain ⟨results, ncrs, holds, -, -, hholds, rfl⟩ := Recording.onto_eq_some.mp written
      refine isHeld_eq_false_of hfree fun k hk => ?_
      have hk' := hk
      rw [← Table.mem_rows, Table.rows_insertAll? hholds] at hk'
      rcases List.mem_append.mp hk' with hold | hnew
      · exact Or.inl hold
      · exact Or.inr (Or.inr fun hon => hclear ⟨k, hnew, hon⟩)
  | disposed d now row released =>
      refine isHeld_eq_false_of hfree fun k hk => ?_
      obtain ⟨k₀, hk₀, rfl⟩ := mem_commitDisposition.mp hk
      split
      · exact Or.inr (Or.inl (by decide : "released" ≠ "active"))
      · exact Or.inl hk₀
  | placed insert new =>
      obtain ⟨now, id, rfl⟩ := new
      refine isHeld_eq_false_of hfree fun k hk => ?_
      rcases (Table.mem_insert? insert).mp hk with hold | rfl
      · exact Or.inl hold
      · exact Or.inr (Or.inr hclear)
  | released now grants stored active =>
      refine isHeld_eq_false_of hfree fun k hk => ?_
      rcases Table.mem_put.mp hk with rfl | ⟨hold, -⟩
      · exact Or.inr (Or.inl (by decide : "released" ≠ "active"))
      · exact Or.inl hold

theorem mem_named {lotId serialId : Option String} :
    m ∈ Material.named lotId serialId ↔
      (∃ l ∈ lotId, m = .lot l) ∨ ∃ s ∈ serialId, m = .serial s := by
  simp [Material.named, eq_comm]

/-- A call goes on from a check only with material that is free. -/
theorem Ran.unheld (h : Ran who st ph res) (hown : Unheld st.db ph) : Unheld res.1.db res.2 := by
  cases h with
  | waited => exact hown
  | checkedLot free =>
      rename_i i
      have hlot : Unheld st.db (.checkSerial i) := by
        intro m hm
        obtain ⟨l, hl, rfl⟩ | ⟨s, hs, -⟩ := mem_named.mp hm
        · exact free l hl
        · cases hs
      unfold Issue.afterLot
      split
      · rename_i hnone
        intro m hm
        rw [Phase.checked, hnone] at hm
        exact hlot m hm
      · exact hlot
  | checkedSerial free =>
      rename_i i
      intro m hm
      obtain hlot | ⟨s, hs, rfl⟩ := mem_named.mp hm
      · exact hown m (mem_named.mpr (Or.inl hlot))
      · exact free s hs
  | raised w isOpen =>
      intro m hm
      unfold Recording.next at hm
      split at hm <;> exact absurd hm List.not_mem_nil
  | blocked rest linked =>
      intro m hm
      unfold Recording.next at hm
      split at hm <;> exact absurd hm List.not_mem_nil
  | tookNcr now grants stored isOpen =>
      intro m hm
      dsimp only at hm
      split at hm <;> exact absurd hm List.not_mem_nil
  | refused | evaluated | passed | failed | recorded | began | tookHolds | disposed | placed
  | released | issued => exact fun m hm => absurd hm List.not_mem_nil

/-- A call starts with nothing checked. -/
theorem checked_phase (r : Request) : r.phase.checked = [] := by
  cases r with
  | issueMaterial i =>
      simp only [Request.phase, Issue.phase, Issue.afterLot]
      split
      · rename_i hlot
        split
        · rename_i hserial
          rw [Phase.checked, hlot, hserial]
          rfl
        · rw [Phase.checked, hlot]
          rfl
      · rfl
  | recordResult | dispositionNcr | placeHold | releaseHold => rfl

end Checked

section Runs

/-- What the calls have checked is not held. -/
def AllUnheld (s : State) : Prop :=
  ∀ (i : ℕ) (c : Session), s.threads[i]? = some c → Unheld s.store.db c.phase

theorem AllUnheld.step {s : State} (h : AllUnheld s) {m : Move Request Input} (hm : Clear s m) :
    AllUnheld (step s m) := by
  unfold Interleaving.step
  rcases Sessions.step_cases (fun r : Request => (⟨r, r.phase⟩ : Session)) exec s m with
    ⟨r, rfl, heq⟩ | heq | ⟨who, input, c, rfl, hc, heq⟩
  · intro i u hu
    have hu' := hu
    rcases Sessions.thread_cases _ _ s _ hu' with hold | ⟨r', -, rfl⟩ | ⟨_, _, hmove, -⟩
    · rw [heq]
      exact h i u hold
    · intro m hm
      rw [checked_phase] at hm
      exact absurd hm List.not_mem_nil
    · cases hmove
  · rw [heq]
    exact h
  · rw [heq]
    have hran := ran_exec who input s.store c
    intro i u hu
    rcases Sessions.set_cases hu with ⟨-, rfl⟩ | ⟨-, hold⟩
    · exact hran.unheld (h who c hc)
    · intro m hmem
      exact hran.isHeld_eq_false (h i u hold m hmem)
        (hm c hc u (List.mem_of_getElem? hold) m hmem)

/-- The movements a statement adds are those of an issue that has checked its material. -/
theorem Ran.issue_of_new {who : ℕ} {st : Store} {ph : Phase} {res : Store × Phase}
    (h : Ran who st ph res) {row : MaterialTxnRow} (hnew : row ∈ res.1.db.materialTxns)
    (hold : row ∉ st.db.materialTxns) : ph.checked = Material.named row.lotId row.serialId := by
  cases h with
  | refused e runs =>
      have hdb : (st.unlock ph).db = st.db := by cases ph <;> rfl
      dsimp only at hnew
      rw [hdb] at hnew
      exact absurd hnew hold
  | recorded written =>
      obtain ⟨results, ncrs, holds, -, -, -, rfl⟩ := Recording.onto_eq_some.mp written
      exact absurd hnew hold
  | issued insert lot serial =>
      rcases (Table.mem_insert? insert).mp hnew with hmem | rfl
      · exact absurd hmem hold
      · rw [Phase.checked, lot, serial]
  | evaluated | passed | failed | raised | blocked | began | waited | tookNcr | tookHolds
  | disposed | placed | released | checkedLot | checkedSerial => exact absurd hnew hold

/-- In every run in which no hold commits on material that an issue stands between its check
and its insert of, no movement is inserted while an active hold on its material is committed. -/
theorem no_issue_on_hold (db : Database) (moves : Schedule)
    (hclear : Along step Clear (opened db) moves) :
    ∀ k, ∀ row ∈ (stateAt db moves (k + 1)).store.db.materialTxns,
      row ∉ (stateAt db moves k).store.db.materialTxns →
      ∀ m ∈ Material.named row.lotId row.serialId,
        isHeld (stateAt db moves k).store.db m = false := by
  intro k row hnew hold m hm
  have hinit : AllUnheld (opened db) := by
    intro i c hc
    cases hc
  have hinv : AllUnheld (stateAt db moves k) :=
    (hclear.take k).invariant (fun s m h hm => h.step hm) hinit
  rcases foldl_take_succ step (opened db) moves k with hsame | ⟨move, -, hstep⟩
  · rw [stateAt, hsame] at hnew
    exact absurd hnew hold
  · rw [stateAt, hstep] at hnew
    revert hnew
    refine Sessions.store_step (R := fun st st' => row ∈ st'.db.materialTxns →
      isHeld (stateAt db moves k).store.db m = false) _ _ (stateAt db moves k) move ?_ ?_
    · exact fun hmem => absurd hmem hold
    · intro who input c hc hnew
      refine hinv who c hc m ?_
      rw [(ran_exec who input _ c).issue_of_new hnew hold]
      exact hm

/-- A lot and an operator. -/
def bars : Database where
  users := {"op", "insp"}
  parts := {"bar"}
  lots := ⟨[⟨"melt", "L-1", "bar"⟩], List.nodup_singleton _⟩

def issueMelt : Request := .issueMaterial ⟨some "melt", none, ⟨1, 0⟩, none, "op"⟩

def holdMelt : Request := .placeHold "lot" "melt" none "insp"

/-- The hold is placed after the issue. -/
def issueThenHold : Schedule :=
  [.call issueMelt, .call holdMelt, .advance 0 ⟨1, "", false⟩, .advance 0 ⟨2, "m1", false⟩,
    .advance 1 ⟨3, "h1", false⟩]

theorem issueThenHold_free :
    (stateAt bars issueThenHold 4).store.db.materialTxns.rows.length = 1 ∧
      isHeld (stateAt bars issueThenHold 3).store.db (.lot "melt") = false := by
  refine ⟨by decide +kernel, ?_⟩
  exact no_issue_on_hold bars issueThenHold (by decide +kernel) 3
    ⟨"m1", some "melt", none, "issue", ⟨1, 0⟩, none, 2, some "op"⟩ (by decide +kernel)
    (by decide +kernel) (.lot "melt") (by decide)

/-- The hold is placed between the check and the insert. -/
def holdInBetween : Schedule :=
  [.call issueMelt, .call holdMelt, .advance 0 ⟨1, "", false⟩, .advance 1 ⟨2, "h1", false⟩,
    .advance 0 ⟨3, "m1", false⟩]

theorem holdInBetween_issues :
    ∃ row ∈ (stateAt bars holdInBetween 5).store.db.materialTxns,
      row ∉ (stateAt bars holdInBetween 4).store.db.materialTxns ∧ row.txnType = "issue" ∧
        ∃ m ∈ Material.named row.lotId row.serialId,
          isHeld (stateAt bars holdInBetween 4).store.db m = true := by
  refine ⟨⟨"m1", some "melt", none, "issue", ⟨1, 0⟩, none, 3, some "op"⟩, ?_⟩
  refine ⟨by decide +kernel, by decide +kernel, rfl, .lot "melt", by decide, by decide +kernel⟩

end Runs

end ElectronixMes.Quality.Interleaving
