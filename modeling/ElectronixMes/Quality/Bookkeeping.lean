import ElectronixMes.Quality.Interleaving
import Mathlib.Data.List.Forall2

/-!
# Nonconformances and holds under concurrent calls

Whatever the interleaving, a call writes the quality tables in one step, with which it
succeeds, and its effect there is exact: a failed inspection adds one open nonconformance and
a hold on each material it names, and a disposition releases the active holds of its
nonconformance and no others. A nonconformance is dispositioned at most once.
-/

namespace ElectronixMes.Quality.Interleaving

open Db ElectronixMes.Core Relational Serde Transition

section Assertions

/-- What the stored limits make of a measurement. -/
def Outcome (limits : Table CharacteristicRow) (r : ResultInput) (outcome : InspectionOutcome) :
    Prop :=
  ∃ c, limits.lookup r.characteristicId = some c ∧
    outcome = evaluate r.measuredValue c.lowerLimit c.upperLimit

/-- A failed recording with its nonconformance and its holds, but for those on `rest`. -/
structure Failing (limits : Table CharacteristicRow) (w : Recording) (n : NcrRow)
    (rest : List Material) : Prop where
  outcome : Outcome limits w.input .fail
  ncr : w.ncr = some n
  isOpen : n.status = "open"
  holds : ∃ done, done ++ rest = Material.named w.input.lotId w.input.serialId ∧
    List.Forall₂ (LinkedHold (some n.id)) w.holds done

/-- A recording that is ready to commit. -/
def Complete (limits : Table CharacteristicRow) (w : Recording) : Prop :=
  Outcome limits w.input .pass ∧ w.ncr = none ∧ w.holds = [] ∨ ∃ n, Failing limits w n []

/-- The nonconformance of a disposition is open, and its row is held. -/
structure Locked (st : Store) (who : ℕ) (d : Ruling) (now : Int) (row : NcrRow) : Prop where
  lock : st.ncrs d.id = some who
  stored : ∃ n, st.db.ncrs.lookup d.id = some n ∧ n.status = "open" ∧
    row = n.dispositioned now d.disposition d.reason d.actor

/-- The holds a disposition is to release are the active ones of its nonconformance, and their
rows are held. -/
structure Releases (st : Store) (who : ℕ) (d : Ruling) (released : List String) : Prop where
  exact : ∀ h ∈ st.db.holds, h.id ∈ released ↔
    d.disposition.releasesHold = true ∧ h.ncrId = some d.id ∧ h.status = "active"
  locks : ∀ id ∈ released, st.holds id = some who
  stored : ∀ id ∈ released, ∃ h ∈ st.db.holds, h.id = id

/-- What a call knows at each of its statements. -/
def Assertion (limits : Table CharacteristicRow) (st : Store) (who : ℕ) (c : Session) : Prop :=
  match c.phase with
  | .readLimits r inspectedBy => c.request = .recordResult r inspectedBy
  | .insertResult r inspectedBy outcome =>
      c.request = .recordResult r inspectedBy ∧ Outcome limits r outcome
  | .insertNcr w =>
      c.request = .recordResult w.input w.inspectedBy ∧ Outcome limits w.input .fail ∧
        w.holds = []
  | .insertHold w m rest =>
      c.request = .recordResult w.input w.inspectedBy ∧ ∃ n, Failing limits w n (m :: rest)
  | .commitResult w => c.request = .recordResult w.input w.inspectedBy ∧ Complete limits w
  | .beginDisposition d => c.request = .dispositionNcr d
  | .updateNcr d _ => c.request = .dispositionNcr d
  | .updateHolds d now row =>
      c.request = .dispositionNcr d ∧ Locked st who d now row ∧
        d.disposition.releasesHold = true
  | .commitDisposition d now row released =>
      c.request = .dispositionNcr d ∧ Locked st who d now row ∧ Releases st who d released
  | .placeHold entityType entityId reason createdBy =>
      c.request = .placeHold entityType entityId reason createdBy
  | .releaseHold holdId releasedBy => c.request = .releaseHold holdId releasedBy
  | .checkLot i => c.request = .issueMaterial i
  | .checkSerial i => c.request = .issueMaterial i
  | .insertIssue i => c.request = .issueMaterial i
  | .ended (.ok (.dispositioned row)) =>
      ∃ n, st.db.ncrs.lookup row.id = some n ∧ n.status ≠ "open"
  | .ended _ => True

variable {limits : Table CharacteristicRow} {st st' : Store} {who i : ℕ} {request : Request}
  {ph : Phase} {res : Store × Phase} {c : Session}

theorem assertion_next {w : Recording} {n : NcrRow} {rest : List Material}
    (hrequest : request = .recordResult w.input w.inspectedBy) (h : Failing limits w n rest) :
    Assertion limits st who ⟨request, w.next rest⟩ := by
  cases rest with
  | nil => exact ⟨hrequest, Or.inr ⟨n, h⟩⟩
  | cons m rest => exact ⟨hrequest, n, h⟩

theorem assertion_afterLot {i : Issue} (hrequest : request = .issueMaterial i) :
    Assertion limits st who ⟨request, i.afterLot⟩ := by
  unfold Issue.afterLot
  split <;> exact hrequest

theorem assertion_phase (limits : Table CharacteristicRow) (st : Store) (who : ℕ)
    (request : Request) : Assertion limits st who ⟨request, request.phase⟩ := by
  cases request with
  | issueMaterial i =>
      simp only [Request.phase, Issue.phase]
      split
      · exact assertion_afterLot rfl
      · rfl
  | recordResult | dispositionNcr | placeHold | releaseHold => rfl

/-- A statement leaves its call where it knows what the next one needs. -/
theorem Ran.assertion (h : Ran who st ph res) (hlimits : st.db.characteristics = limits)
    (hown : Assertion limits st who ⟨request, ph⟩) :
    Assertion limits res.1 who ⟨request, res.2⟩ := by
  cases h with
  | refused e runs => trivial
  | evaluated inspectedBy stored => exact ⟨hown, _, hlimits ▸ stored, rfl⟩
  | passed r inspectedBy now result => exact ⟨hown.1, Or.inl ⟨hown.2, rfl, rfl⟩⟩
  | failed r inspectedBy now result => exact ⟨hown.1, hown.2, rfl⟩
  | raised w isOpen =>
      obtain ⟨hrequest, hfail, hholds⟩ := hown
      refine assertion_next hrequest ⟨hfail, rfl, isOpen, [], rfl, ?_⟩
      dsimp only
      rw [hholds]
      exact .nil
  | blocked rest linked =>
      rename_i w m h
      obtain ⟨hrequest, n, hfail, hncr, hopen, done, hdone, hholds⟩ := hown
      refine assertion_next (n := n) hrequest ⟨hfail, hncr, hopen, done ++ [m], ?_, ?_⟩
      · rw [List.append_assoc]
        exact hdone
      · rw [hncr] at linked
        exact List.rel_append hholds (.cons linked .nil)
  | recorded written => trivial
  | began d now => exact hown
  | waited => exact hown
  | tookNcr now grants stored isOpen =>
      rename_i d n
      have hlocked : Locked { st with ncrs := st.ncrs.take who d.id } who d now
          (n.dispositioned now d.disposition d.reason d.actor) :=
        ⟨Locks.take_self _ _ _, n, stored, isOpen, rfl⟩
      cases hreleases : d.disposition.releasesHold with
      | true => exact ⟨hown, hlocked, hreleases⟩
      | false =>
          refine ⟨hown, hlocked, ?_, ?_, ?_⟩
          · intro h hh
            simp [hreleases]
          · exact fun id hid => absurd hid List.not_mem_nil
          · exact fun id hid => absurd hid List.not_mem_nil
  | tookHolds now row grants =>
      rename_i d
      obtain ⟨hrequest, ⟨hlock, hstored⟩, hreleases⟩ := hown
      refine ⟨hrequest, ⟨hlock, hstored⟩, ?_, ?_, ?_⟩
      · intro h hh
        rw [mem_linkedHolds hh, hreleases]
        exact (and_iff_right rfl).symm
      · intro id hid
        exact if_pos hid
      · intro id hid
        obtain ⟨h, hh, rfl⟩ := List.mem_map.mp hid
        exact ⟨h, (List.mem_filter.mp hh).1, rfl⟩
  | disposed d now row released =>
      obtain ⟨-, ⟨-, n, hn, -, rfl⟩, -⟩ := hown
      exact ⟨_, Table.lookup_put_self _ _, (by decide : "dispositioned" ≠ "open")⟩
  | placed insert new => trivial
  | released now grants stored active => trivial
  | checkedLot free => exact assertion_afterLot hown
  | checkedSerial free => exact hown
  | issued insert lot serial => trivial

end Assertions

section Leaves

/-- What a step leaves alone of what another call relies on. A hold it writes is not the other
call's: it is released, or new and of no nonconformance that was there. -/
structure Leaves (st st' : Store) (i : ℕ) : Prop where
  ncrLock : ∀ k, st.ncrs k = some i → st'.ncrs k = some i
  ncr : ∀ k n, st.ncrs k = some i → st.db.ncrs.lookup k = some n →
    st'.db.ncrs.lookup k = some n
  closed : ∀ k n, st.db.ncrs.lookup k = some n → n.status ≠ "open" →
    ∃ n', st'.db.ncrs.lookup k = some n' ∧ n'.status ≠ "open"
  holdLock : ∀ k, st.holds k = some i → st'.holds k = some i
  hold : ∀ h ∈ st'.db.holds, h ∈ st.db.holds ∨
    (h.status ≠ "active" ∧ st.holds h.id ≠ some i) ∨
    ((∀ k ∈ st.db.holds, k.id ≠ h.id) ∧ ∀ k, h.ncrId = some k → st.db.ncrs.lookup k = none)
  stored : ∀ h ∈ st.db.holds, ∃ h' ∈ st'.db.holds, h'.id = h.id

variable {limits : Table CharacteristicRow} {st st' : Store} {who i : ℕ} {request : Request}
  {ph : Phase} {res : Store × Phase} {c : Session} {d : Ruling} {now : Int} {row : NcrRow}
  {released : List String}

theorem Locked.of_leaves (h : Locked st i d now row) (hleaves : Leaves st st' i) :
    Locked st' i d now row := by
  obtain ⟨hlock, n, hn, hrest⟩ := h
  exact ⟨hleaves.ncrLock _ hlock, n, hleaves.ncr _ n hlock hn, hrest⟩

theorem Releases.of_leaves (h : Releases st i d released) (hlocked : Locked st i d now row)
    (hleaves : Leaves st st' i) : Releases st' i d released := by
  refine ⟨?_, fun id hid => hleaves.holdLock id (h.locks id hid), ?_⟩
  · intro k hk
    rcases hleaves.hold k hk with hold | ⟨hstatus, hlock⟩ | ⟨hnew, hlink⟩
    · exact h.exact k hold
    · exact iff_of_false (fun hid => hlock (h.locks _ hid)) fun hlinked => hstatus hlinked.2.2
    · refine iff_of_false ?_ ?_
      · intro hid
        obtain ⟨k', hk', heq⟩ := h.stored _ hid
        exact hnew k' hk' heq
      · intro hlinked
        obtain ⟨-, n, hn, -⟩ := hlocked
        rw [hlink _ hlinked.2.1] at hn
        cases hn
  · intro id hid
    obtain ⟨k, hk, rfl⟩ := h.stored id hid
    exact hleaves.stored k hk

theorem Assertion.of_leaves (h : Assertion limits st i c) (hleaves : Leaves st st' i) :
    Assertion limits st' i c := by
  obtain ⟨request, ph⟩ := c
  cases ph with
  | updateHolds d now row =>
      obtain ⟨hrequest, hlocked, hreleases⟩ := h
      exact ⟨hrequest, hlocked.of_leaves hleaves, hreleases⟩
  | commitDisposition d now row released =>
      obtain ⟨hrequest, hlocked, hreleases⟩ := h
      exact ⟨hrequest, hlocked.of_leaves hleaves, hreleases.of_leaves hlocked hleaves⟩
  | ended reply =>
      cases reply with
      | error e => trivial
      | ok reply =>
          cases reply with
          | dispositioned row =>
              obtain ⟨n, hn, hstatus⟩ := h
              exact hleaves.closed _ n hn hstatus
          | recorded | placed | released | issued => trivial
  | readLimits | insertResult | insertNcr | insertHold | commitResult | beginDisposition
  | updateNcr | placeHold | releaseHold | checkLot | checkSerial | insertIssue => exact h

/-- A step that writes neither table and gives up only rows of its own. -/
theorem Leaves.of_locks (hncrs : st'.db.ncrs = st.db.ncrs) (hholds : st'.db.holds = st.db.holds)
    (hncrLock : ∀ k, st.ncrs k = some i → st'.ncrs k = some i)
    (hholdLock : ∀ k, st.holds k = some i → st'.holds k = some i) : Leaves st st' i where
  ncrLock := hncrLock
  ncr k n _ hn := by
    rw [hncrs]
    exact hn
  closed k n hn hstatus := by
    rw [hncrs]
    exact ⟨n, hn, hstatus⟩
  holdLock := hholdLock
  hold h hh := by
    rw [hholds] at hh
    exact Or.inl hh
  stored h hh := by
    rw [hholds]
    exact ⟨h, hh, rfl⟩

/-- A step that only writes holds. -/
theorem Leaves.of_holds (hncrs : st'.db.ncrs = st.db.ncrs) (hncrLock : st'.ncrs = st.ncrs)
    (hholdLock : st'.holds = st.holds)
    (hhold : ∀ h ∈ st'.db.holds, h ∈ st.db.holds ∨
      (h.status ≠ "active" ∧ st.holds h.id ≠ some i) ∨
      ((∀ k ∈ st.db.holds, k.id ≠ h.id) ∧ ∀ k, h.ncrId = some k → st.db.ncrs.lookup k = none))
    (hstored : ∀ h ∈ st.db.holds, ∃ h' ∈ st'.db.holds, h'.id = h.id) : Leaves st st' i where
  ncrLock k hk := by
    rw [hncrLock]
    exact hk
  ncr k n _ hn := by
    rw [hncrs]
    exact hn
  closed k n hn hstatus := by
    rw [hncrs]
    exact ⟨n, hn, hstatus⟩
  holdLock k hk := by
    rw [hholdLock]
    exact hk
  hold := hhold
  stored := hstored

theorem ncrId_of_linked {ncrId : Option String} {holds : List HoldRow}
    {materials : List Material} (h : List.Forall₂ (LinkedHold ncrId) holds materials) :
    ∀ k ∈ holds, k.ncrId = ncrId := by
  induction h with
  | nil => exact fun k hk => absurd hk List.not_mem_nil
  | cons hlinked _ ih =>
      intro k hk
      rcases List.mem_cons.mp hk with rfl | hk
      · exact hlinked.linked
      · exact ih k hk

/-- A commit adds a nonconformance that was not there, and its holds. -/
theorem Leaves.recorded {w : Recording} {db : Database} (hcomplete : Complete limits w)
    (hwritten : w.onto st.db = some db) (i : ℕ) : Leaves st { st with db } i := by
  obtain ⟨results, ncrs, holds, -, hncrs, hholds, rfl⟩ := Recording.onto_eq_some.mp hwritten
  have hlookup (k : String) (n : NcrRow) (hn : st.db.ncrs.lookup k = some n) :
      ncrs.lookup k = some n := by
    rcases Recording.ncrsOnto_cases hncrs with ⟨-, rfl⟩ | ⟨new, -, hins⟩
    · exact hn
    · rw [Table.lookup_insert? hins, if_neg]
      · exact hn
      · rintro rfl
        rw [Table.lookup_of_insert? hins] at hn
        cases hn
  have hrows := Table.rows_insertAll? hholds
  refine ⟨fun _ => id, fun k n _ => hlookup k n, ?_, fun _ => id, ?_, ?_⟩
  · intro k n hn hstatus
    exact ⟨n, hlookup k n hn, hstatus⟩
  · intro h hh
    have hh' : h ∈ st.db.holds.rows ++ w.holds := hrows ▸ hh
    rcases List.mem_append.mp hh' with hold | hnew
    · exact Or.inl hold
    · refine Or.inr (Or.inr ⟨Table.key_ne_of_insertAll? hholds h hnew, ?_⟩)
      intro k hk
      rcases hcomplete with ⟨-, -, hnil⟩ | ⟨n, -, hncr, -, done, -, hlinked⟩
      · rw [hnil] at hnew
        exact absurd hnew List.not_mem_nil
      · rw [ncrId_of_linked hlinked h hnew, Option.some.injEq] at hk
        subst hk
        rcases Recording.ncrsOnto_cases hncrs with ⟨hnone, -⟩ | ⟨new, hsome, hins⟩
        · rw [hnone] at hncr
          cases hncr
        · rw [hsome, Option.some.injEq] at hncr
          subst hncr
          exact Table.lookup_of_insert? hins
  · intro h hh
    refine ⟨h, ?_, rfl⟩
    rw [← Table.mem_rows, hrows]
    exact List.mem_append_left _ hh

/-- A disposition writes the rows it holds. -/
theorem Leaves.disposed (hlocked : Locked st who d now row) (hreleases : Releases st who d released)
    (hi : i ≠ who) : Leaves st (commitDisposition st d now row released) i := by
  obtain ⟨hlock, n, hn, hopen, rfl⟩ := hlocked
  have hid : n.id = d.id := (Table.lookup_eq_some.mp hn).2
  have hother (k : String) (hk : k ≠ d.id) (o : NcrRow) (ho : st.db.ncrs.lookup k = some o) :
      (commitDisposition st d now (n.dispositioned now d.disposition d.reason d.actor)
        released).db.ncrs.lookup k = some o := by
    refine (Table.lookup_put_of_ne ?_).trans ho
    rw [← hid] at hk
    exact hk
  refine ⟨?_, ?_, ?_, ?_, ?_, ?_⟩
  · exact fun k hk => Locks.release_of_held hlock hi hk
  · intro k o hk ho
    refine hother k ?_ o ho
    rintro rfl
    rw [hlock, Option.some.injEq] at hk
    exact hi hk.symm
  · intro k o ho hstatus
    by_cases hk : k = d.id
    · subst hk
      refine ⟨n.dispositioned now d.disposition d.reason d.actor, ?_,
        (by decide : "dispositioned" ≠ "open")⟩
      rw [← hid]
      exact Table.lookup_put_self _ _
    · exact ⟨o, hother k hk o ho, hstatus⟩
  · exact fun k hk => Locks.releaseAll_of_held hreleases.locks hi hk
  · intro h hh
    obtain ⟨k, hk, rfl⟩ := mem_commitDisposition.mp hh
    by_cases hin : k.id ∈ released
    · rw [if_pos hin]
      refine Or.inr (Or.inl ⟨(by decide : "released" ≠ "active"), ?_⟩)
      intro hheld
      rw [HoldRow.released, hreleases.locks _ hin, Option.some.injEq] at hheld
      exact hi hheld.symm
    · rw [if_neg hin]
      exact Or.inl hk
  · intro h hh
    refine ⟨_, mem_commitDisposition.mpr ⟨h, hh, rfl⟩, ?_⟩
    split <;> rfl

/-- Every statement leaves alone what the other calls rely on. -/
theorem Ran.leaves (h : Ran who st ph res) (hown : Assertion limits st who ⟨request, ph⟩)
    (hi : i ≠ who) : Leaves st res.1 i := by
  have hsame : Leaves st st i := .of_locks rfl rfl (fun _ => id) (fun _ => id)
  cases h with
  | refused e runs =>
      cases ph with
      | updateHolds d now row =>
          obtain ⟨-, ⟨hlock, -⟩, -⟩ := hown
          exact .of_locks rfl rfl (fun k hk => Locks.release_of_held hlock hi hk) (fun _ => id)
      | commitDisposition d now row released =>
          obtain ⟨-, ⟨hlock, -⟩, hreleases⟩ := hown
          exact .of_locks rfl rfl (fun k hk => Locks.release_of_held hlock hi hk)
            (fun k hk => Locks.releaseAll_of_held hreleases.locks hi hk)
      | readLimits | insertResult | insertNcr | insertHold | commitResult | beginDisposition
      | updateNcr | placeHold | releaseHold | checkLot | checkSerial | insertIssue | ended =>
          exact hsame
  | evaluated | passed | failed | raised | blocked | began | waited | checkedLot
  | checkedSerial => exact hsame
  | recorded written => exact .recorded hown.2 written i
  | tookNcr now grants stored isOpen =>
      exact .of_locks rfl rfl (fun k hk => Locks.take_of_held grants hi hk) (fun _ => id)
  | tookHolds now row grants =>
      exact .of_locks rfl rfl (fun _ => id) (fun k hk => Locks.takeAll_of_held grants hi hk)
  | disposed d now row released => exact .disposed hown.2.1 hown.2.2 hi
  | placed insert new =>
      obtain ⟨now, id, rfl⟩ := new
      refine .of_holds rfl rfl rfl ?_ ?_
      · intro h hh
        rcases (Table.mem_insert? insert).mp hh with hold | rfl
        · exact Or.inl hold
        · refine Or.inr (Or.inr ⟨Table.key_ne_of_insert? insert, ?_⟩)
          intro k hk
          cases hk
      · intro h hh
        exact ⟨h, (Table.mem_insert? insert).mpr (Or.inl hh), rfl⟩
  | released now grants stored active =>
      rename_i holdId releasedBy h
      obtain ⟨hmem, hid⟩ := Table.lookup_eq_some.mp stored
      refine .of_holds rfl rfl rfl ?_ ?_
      · intro k hk
        rcases Table.mem_put.mp hk with rfl | ⟨hold, -⟩
        · refine Or.inr (Or.inl ⟨(by decide : "released" ≠ "active"), ?_⟩)
          rw [← hid] at grants
          exact Locks.ne_of_waits grants hi
        · exact Or.inl hold
      · intro k hk
        by_cases hkey : k.id = h.id
        · exact ⟨_, Table.mem_put_self _ _, hkey.symm⟩
        · exact ⟨k, Table.mem_put.mpr (Or.inr ⟨hk, hkey⟩), rfl⟩
  | issued insert lot serial => exact .of_locks rfl rfl (fun _ => id) (fun _ => id)

end Leaves

section Effect

/-- The quality tables are the same. -/
structure Same (db db' : Database) : Prop where
  inspectionResults : db'.inspectionResults = db.inspectionResults
  ncrs : db'.ncrs = db.ncrs
  holds : db'.holds = db.holds

/-- What a successful recording adds: its result; and for a failing value one open
nonconformance, with one active hold on each material that was named. -/
structure Recorded (r : ResultInput) (db db' : Database) (result : InspectionResultRow)
    (ncr : Option NcrRow) : Prop where
  result : db'.inspectionResults.rows = db.inspectionResults.rows ++ [result]
  outcome : Outcome db.characteristics r .pass ∧ ncr = none ∧ db'.ncrs = db.ncrs ∧
      db'.holds = db.holds ∨
    Outcome db.characteristics r .fail ∧ ∃ n holds, ncr = some n ∧ n.status = "open" ∧
      db'.ncrs.rows = db.ncrs.rows ++ [n] ∧ db'.holds.rows = db.holds.rows ++ holds ∧
      List.Forall₂ (LinkedHold (some n.id)) holds (Material.named r.lotId r.serialId)

/-- What a successful disposition changes: its nonconformance, which was open; and if it lets
the material move, the active holds of that nonconformance. -/
structure Dispositioned (d : Ruling) (db db' : Database) (row : NcrRow) : Prop where
  inspectionResults : db'.inspectionResults = db.inspectionResults
  written : ∃ n now, db.ncrs.lookup d.id = some n ∧ n.status = "open" ∧
    row = n.dispositioned now d.disposition d.reason d.actor ∧ db'.ncrs = db.ncrs.put row ∧
    db'.holds.rows = db.holds.rows.map fun h =>
      if d.disposition.releasesHold = true ∧ h.ncrId = some d.id ∧ h.status = "active" then
        h.released now d.actor
      else h

/-- What a call has done when it succeeds. -/
def Done (db db' : Database) : Request → Reply → Prop
  | .recordResult r _, .recorded result ncr => Recorded r db db' result ncr
  | .dispositionNcr d, .dispositioned row => Dispositioned d db db' row
  | .placeHold entityType entityId reason createdBy, .placed id =>
      db'.inspectionResults = db.inspectionResults ∧ db'.ncrs = db.ncrs ∧
        ∃ now, db'.holds.rows = db.holds.rows ++
          [newHold now id entityType entityId reason createdBy none]
  | .releaseHold holdId releasedBy, .released =>
      db'.inspectionResults = db.inspectionResults ∧ db'.ncrs = db.ncrs ∧
        ∃ h now, db.holds.lookup holdId = some h ∧ h.status = "active" ∧
          db'.holds = db.holds.put (h.released now releasedBy)
  | .issueMaterial _, .issued _ => Same db db'
  | _, _ => False

variable {limits : Table CharacteristicRow} {st : Store} {who : ℕ} {request : Request}
  {ph : Phase} {res : Store × Phase}

theorem recorded_of_onto {w : Recording} {db : Database} (hlimits : st.db.characteristics = limits)
    (hcomplete : Complete limits w) (hwritten : w.onto st.db = some db) :
    Recorded w.input st.db db w.result w.ncr := by
  obtain ⟨results, ncrs, holds, hresults, hncrs, hholds, rfl⟩ :=
    Recording.onto_eq_some.mp hwritten
  have hrows := Table.rows_insertAll? hholds
  subst hlimits
  refine ⟨Table.rows_insert? hresults, ?_⟩
  rcases hcomplete with ⟨hpass, hnone, hnil⟩ | ⟨n, hfail, hsome, hopen, done, hdone, hlinked⟩
  · rcases Recording.ncrsOnto_cases hncrs with ⟨-, rfl⟩ | ⟨n, hsome, -⟩
    · refine Or.inl ⟨hpass, hnone, rfl, Table.ext ?_⟩
      rw [hnil, List.append_nil] at hrows
      exact hrows
    · rw [hnone] at hsome
      cases hsome
  · rcases Recording.ncrsOnto_cases hncrs with ⟨hnone, -⟩ | ⟨n', hsome', hins⟩
    · rw [hnone] at hsome
      cases hsome
    · rw [hsome, Option.some.injEq] at hsome'
      subst hsome'
      rw [List.append_nil] at hdone
      exact Or.inr ⟨hfail, n, w.holds, hsome, hopen, Table.rows_insert? hins, hrows,
        hdone ▸ hlinked⟩

theorem next_ne_ended (w : Recording) (rest : List Material) (reply : Except RepoError Reply) :
    w.next rest ≠ .ended reply := by
  cases rest with
  | nil => exact Phase.noConfusion
  | cons m rest => exact Phase.noConfusion

/-- A statement leaves the quality tables as they are, or its call succeeds with it. -/
theorem Ran.effect (h : Ran who st ph res) (hlimits : st.db.characteristics = limits)
    (hown : Assertion limits st who ⟨request, ph⟩) :
    Same st.db res.1.db ∧ (∀ reply, res.2 = .ended (.ok reply) → ph = .ended (.ok reply)) ∨
      ∃ reply, ph.isEnded = false ∧ res.2 = .ended (.ok reply) ∧
        Done st.db res.1.db request reply := by
  have hsame : Same st.db st.db := ⟨rfl, rfl, rfl⟩
  cases h with
  | refused e runs =>
      have hdb : (st.unlock ph).db = st.db := by cases ph <;> rfl
      refine Or.inl ⟨?_, ?_⟩
      · dsimp only
        rw [hdb]
        exact hsame
      · intro reply hreply
        cases hreply
  | evaluated | passed | failed | began | tookHolds | checkedSerial =>
      refine Or.inl ⟨hsame, ?_⟩
      intro reply hreply
      cases hreply
  | raised | blocked =>
      exact Or.inl ⟨hsame, fun reply hreply => absurd hreply (next_ne_ended _ _ _)⟩
  | tookNcr now grants stored isOpen =>
      refine Or.inl ⟨hsame, ?_⟩
      intro reply hreply
      dsimp only at hreply
      split at hreply <;> cases hreply
  | checkedLot free =>
      refine Or.inl ⟨hsame, ?_⟩
      intro reply hreply
      unfold Issue.afterLot at hreply
      dsimp only at hreply
      split at hreply <;> cases hreply
  | waited => exact Or.inl ⟨hsame, fun _ => id⟩
  | recorded written =>
      rename_i w db
      obtain ⟨hrequest, hcomplete⟩ := hown
      obtain rfl : request = _ := hrequest
      exact Or.inr ⟨_, rfl, rfl, recorded_of_onto hlimits hcomplete written⟩
  | disposed d now row released =>
      obtain ⟨hrequest, ⟨-, n, hn, hopen, rfl⟩, hreleases⟩ := hown
      obtain rfl : request = _ := hrequest
      exact Or.inr ⟨_, rfl, rfl, rfl, n, now, hn, hopen, rfl, rfl,
        rows_commitDisposition hreleases.exact now _⟩
  | placed insert new =>
      obtain ⟨now, id, rfl⟩ := new
      obtain rfl : request = _ := hown
      exact Or.inr ⟨_, rfl, rfl, rfl, rfl, now, Table.rows_insert? insert⟩
  | released now grants stored active =>
      obtain rfl : request = _ := hown
      exact Or.inr ⟨_, rfl, rfl, rfl, rfl, _, now, stored, active, rfl⟩
  | issued insert lot serial =>
      obtain rfl : request = _ := hown
      exact Or.inr ⟨_, rfl, rfl, rfl, rfl, rfl⟩

end Effect

section Runs

variable {limits : Table CharacteristicRow} {st : Store} {who : ℕ} {ph : Phase}
  {res : Store × Phase} {s : State}

theorem Ran.characteristics (h : Ran who st ph res) :
    res.1.db.characteristics = st.db.characteristics := by
  cases h with
  | refused e runs => cases ph <;> rfl
  | recorded written =>
      obtain ⟨results, ncrs, holds, -, -, -, rfl⟩ := Recording.onto_eq_some.mp written
      rfl
  | evaluated | passed | failed | raised | blocked | began | waited | tookNcr | tookHolds
  | disposed | placed | released | checkedLot | checkedSerial | issued => rfl

/-- The limits stay, and every call knows what it needs. -/
abbrev Known (limits : Table CharacteristicRow) : State → Prop :=
  Sessions.Inv (fun st => st.db.characteristics = limits) (Assertion limits)

theorem known_run (h : Known limits s) (moves : Schedule) :
    Known limits (moves.foldl step s) := by
  refine h.run (fun st i r _ => assertion_phase limits st i r) ?_ ?_ moves
  · intro who input st c hlimits hown
    have hran := ran_exec who input st c
    exact ⟨hran.characteristics.trans hlimits, hran.assertion hlimits hown⟩
  · intro who input st c i u hi _ hown hu
    exact hu.of_leaves ((ran_exec who input st c).leaves hown hi)

theorem known_opened (db : Database) : Known db.characteristics (opened db) :=
  Sessions.inv_nil rfl

/-- What one step of a call does. -/
theorem step_effect (h : Known limits s) {i : ℕ} {c : Session} (hc : s.threads[i]? = some c)
    (input : Input) :
    ∃ ph, (step s (.advance i input)).threads[i]? = some ⟨c.request, ph⟩ ∧
      (Same s.store.db (step s (.advance i input)).store.db ∧
          (∀ reply, ph = .ended (.ok reply) → c.phase = .ended (.ok reply)) ∨
        ∃ reply, c.phase.isEnded = false ∧ ph = .ended (.ok reply) ∧
          Done s.store.db (step s (.advance i input)).store.db c.request reply) := by
  have hstep : step s (.advance i input) = ⟨(exec i input s.store c).1,
      s.threads.set i (exec i input s.store c).2⟩ := by
    simp only [step, Sessions.step, hc]
  rw [hstep]
  refine ⟨(exec i input s.store c).2.phase, ?_, ?_⟩
  · exact List.getElem?_set_self (List.getElem?_eq_some_iff.mp hc).1
  · exact (ran_exec i input s.store c).effect h.1 (h.2 i c hc)

/-- No two calls have dispositioned the same nonconformance. -/
def DispositionedOnce (s : State) : Prop :=
  ∀ (i j : ℕ) (c c' : Session) (row row' : NcrRow),
    s.threads[i]? = some c → s.threads[j]? = some c' →
    c.phase = .ended (.ok (.dispositioned row)) → c'.phase = .ended (.ok (.dispositioned row')) →
    row.id = row'.id → i = j

/-- A call that dispositions a nonconformance finds it open, so no other has done so. -/
theorem DispositionedOnce.step (honce : DispositionedOnce s) (h : Known limits s)
    (m : Move Request Input) : DispositionedOnce (step s m) := by
  -- a session after the step that has succeeded did so before, or found its row open
  have hcases (i : ℕ) (c : Session) (row : NcrRow)
      (hc : (Interleaving.step s m).threads[i]? = some c)
      (hrow : c.phase = .ended (.ok (.dispositioned row))) :
      (∃ c₀, s.threads[i]? = some c₀ ∧ c₀.phase = .ended (.ok (.dispositioned row))) ∨
        (∃ input, m = .advance i input) ∧
          ∃ n, s.store.db.ncrs.lookup row.id = some n ∧ n.status = "open" := by
    rcases Sessions.thread_cases _ _ s m hc with hold | ⟨r, -, rfl⟩ | ⟨input, c₀, rfl, hc₀, -⟩
    · exact Or.inl ⟨c, hold, hrow⟩
    · cases r with
      | issueMaterial i =>
          simp only [Request.phase, Issue.phase, Issue.afterLot] at hrow
          repeat' split at hrow
          all_goals cases hrow
      | recordResult | dispositionNcr | placeHold | releaseHold => cases hrow
    · obtain ⟨ph, hph, heffect⟩ := step_effect h hc₀ input
      rw [hc, Option.some.injEq] at hph
      subst hph
      rcases heffect with ⟨-, hold⟩ | ⟨reply, -, hreply, hdone⟩
      · exact Or.inl ⟨c₀, hc₀, hold _ hrow⟩
      · obtain rfl : reply = .dispositioned row := by
          rw [hreply] at hrow
          cases hrow
          rfl
        refine Or.inr ⟨⟨input, rfl⟩, ?_⟩
        cases hrequest : c₀.request with
        | dispositionNcr d =>
            rw [hrequest] at hdone
            obtain ⟨-, n, now, hn, hopen, rfl, -⟩ := hdone
            have hid : n.id = d.id := (Table.lookup_eq_some.mp hn).2
            exact ⟨n, hid ▸ hn, hopen⟩
        | recordResult | placeHold | releaseHold | issueMaterial =>
            rw [hrequest] at hdone
            exact hdone.elim
  have hclosed (i : ℕ) (c : Session) (row : NcrRow) (hc : s.threads[i]? = some c)
      (hrow : c.phase = .ended (.ok (.dispositioned row))) :
      ∃ n, s.store.db.ncrs.lookup row.id = some n ∧ n.status ≠ "open" := by
    have hassertion := h.2 i c hc
    rw [Assertion, hrow] at hassertion
    exact hassertion
  intro i j c c' row row' hc hc' hrow hrow' hid
  rcases hcases i c row hc hrow with ⟨c₀, hc₀, hrow₀⟩ | ⟨⟨input, hm⟩, n, hn, hopen⟩ <;>
    rcases hcases j c' row' hc' hrow' with ⟨c₀', hc₀', hrow₀'⟩ | ⟨⟨input', hm'⟩, n', hn', hopen'⟩
  · exact honce i j c₀ c₀' row row' hc₀ hc₀' hrow₀ hrow₀' hid
  · obtain ⟨o, ho, hstatus⟩ := hclosed i c₀ row hc₀ hrow₀
    rw [hid, hn', Option.some.injEq] at ho
    exact absurd (ho ▸ hopen') hstatus
  · obtain ⟨o, ho, hstatus⟩ := hclosed j c₀' row' hc₀' hrow₀'
    rw [← hid, hn, Option.some.injEq] at ho
    exact absurd (ho ▸ hopen) hstatus
  · rw [hm] at hm'
    cases hm'
    rfl

theorem once_run (honce : DispositionedOnce s) (h : Known limits s) (moves : Schedule) :
    DispositionedOnce (moves.foldl step s) := by
  induction moves generalizing s with
  | nil => exact honce
  | cons m rest ih => exact ih (honce.step h m) (known_run h [m])

/-- A call that has returned stays as it is. -/
theorem ended_run {i : ℕ} {r : Request} {reply : Except RepoError Reply}
    (h : s.threads[i]? = some ⟨r, .ended reply⟩) (moves : Schedule) :
    (moves.foldl step s).threads[i]? = some ⟨r, .ended reply⟩ := by
  refine Sessions.thread_final _ _ (fun input st => ?_) h moves
  unfold exec
  split <;> rfl

theorem stateAt_succ {db : Database} {moves : Schedule} {k : ℕ} {m : Move Request Input}
    (h : moves[k]? = some m) : stateAt db moves (k + 1) = step (stateAt db moves k) m := by
  simp [stateAt, List.take_add_one, h]

/-- A disposition keeps the active holds that are not of its nonconformance. -/
theorem mem_of_done {db db' : Database} {d : Ruling} {reply : Reply}
    (h : Done db db' (.dispositionNcr d) reply) {k : HoldRow} (hk : k ∈ db.holds)
    (hlink : k.ncrId ≠ some d.id) : k ∈ db'.holds := by
  cases reply with
  | dispositioned row =>
      obtain ⟨-, n, now, -, -, -, -, hrows⟩ := h
      rw [← Table.mem_rows, hrows, List.mem_map]
      exact ⟨k, hk, if_neg fun hlinked => hlink hlinked.2.1⟩
  | recorded | placed | released | issued => exact h.elim

/-- Nonconformances and holds in every run. A step of a call leaves the quality tables as they
are, or the call succeeds with it and has done there exactly what it is for; so a call that
fails has changed nothing. No nonconformance is dispositioned twice, and a disposition keeps
every material held on which an active hold stands that is not of its nonconformance. -/
theorem quality_bookkeeping (db : Database) (moves : Schedule) :
    (∀ k i input c, moves[k]? = some (.advance i input) →
        (stateAt db moves k).threads[i]? = some c →
        ∃ ph, (stateAt db moves (k + 1)).threads[i]? = some ⟨c.request, ph⟩ ∧
          (Same (stateAt db moves k).store.db (stateAt db moves (k + 1)).store.db ∧
              (∀ reply, ph = .ended (.ok reply) → c.phase = .ended (.ok reply)) ∨
            ∃ reply, c.phase.isEnded = false ∧ ph = .ended (.ok reply) ∧
              Done (stateAt db moves k).store.db (stateAt db moves (k + 1)).store.db c.request
                reply)) ∧
      (∀ i r e, (moves.foldl step (opened db)).threads[i]? = some ⟨r, .ended (.error e)⟩ →
        ∀ k input, moves[k]? = some (.advance i input) →
          Same (stateAt db moves k).store.db (stateAt db moves (k + 1)).store.db) ∧
      (∀ k, DispositionedOnce (stateAt db moves k)) ∧
      ∀ k i input c d, moves[k]? = some (.advance i input) →
        (stateAt db moves k).threads[i]? = some c → c.request = .dispositionNcr d →
        ∀ h ∈ (stateAt db moves k).store.db.holds, ∀ m, h.IsOn m → h.status = "active" →
          h.ncrId ≠ some d.id → isHeld (stateAt db moves (k + 1)).store.db m = true := by
  have hknown (k : ℕ) : Known db.characteristics (stateAt db moves k) :=
    known_run (known_opened db) (moves.take k)
  have heffect (k i : ℕ) (input : Input) (c : Session)
      (hm : moves[k]? = some (.advance i input))
      (hc : (stateAt db moves k).threads[i]? = some c) := step_effect (hknown k) hc input
  refine ⟨?_, ?_, ?_, ?_⟩
  · intro k i input c hm hc
    rw [stateAt_succ hm]
    exact heffect k i input c hm hc
  · intro i r e hended k input hm
    rw [stateAt_succ hm]
    cases hc : (stateAt db moves k).threads[i]? with
    | none =>
        simp only [step, Sessions.step, hc]
        exact ⟨rfl, rfl, rfl⟩
    | some c =>
        obtain ⟨ph, hph, ⟨hsame, -⟩ | ⟨reply, -, rfl, -⟩⟩ := heffect k i input c hm hc
        · exact hsame
        · -- a call that has succeeded does not end with an error
          rw [← stateAt_succ hm] at hph
          have hfinal := ended_run hph (moves.drop (k + 1))
          rw [stateAt, ← List.foldl_append, List.take_append_drop, hended] at hfinal
          cases hfinal
  · intro k
    refine once_run ?_ (known_opened db) (moves.take k)
    intro i j c c' row row' hc
    cases hc
  · intro k i input c d hm hc hrequest h hh m hon hactive hlink
    rw [stateAt_succ hm]
    refine isHeld_of_active ?_ hon hactive
    obtain ⟨ph, -, ⟨hsame, -⟩ | ⟨reply, -, -, hdone⟩⟩ := heffect k i input c hm hc
    · rw [hsame.holds]
      exact hh
    · rw [hrequest] at hdone
      exact mem_of_done hdone hh hlink

/-- A bore that is to be at most ten, on one lot. -/
def bore : Database where
  users := {"insp"}
  parts := {"hub"}
  lots := ⟨[⟨"lot", "L-1", "hub"⟩], by decide⟩
  characteristics := ⟨[⟨"bore", none, some ⟨10, 0⟩⟩], by decide⟩

def firstNcr : String := "01J8ZQ3V5K0000000000000002"
def secondNcr : String := "01J8ZQ3V6K0000000000000002"

def boreFailure : Request := .recordResult ⟨"bore", some "lot", none, none, ⟨12, 0⟩⟩ "insp"

def boreRework : Ruling := ⟨firstNcr, .rework, none, "insp"⟩

/-- Two failures of the same lot are recorded at once; then two reviewers send the first
nonconformance to rework, and the second of them waits for the first. -/
def reworkRace : Schedule :=
  [.call boreFailure, .call boreFailure,
    .advance 0 ⟨1, "", false⟩, .advance 1 ⟨1, "", false⟩,
    .advance 0 ⟨1, "r1", false⟩, .advance 1 ⟨1, "r2", false⟩,
    .advance 0 ⟨1, firstNcr, false⟩, .advance 1 ⟨1, secondNcr, false⟩,
    .advance 0 ⟨1, "h1", false⟩, .advance 1 ⟨1, "h2", false⟩,
    .advance 0 ⟨1, "", false⟩, .advance 1 ⟨1, "", false⟩,
    .call (.dispositionNcr boreRework), .call (.dispositionNcr boreRework),
    .advance 2 ⟨2, "", false⟩, .advance 3 ⟨2, "", false⟩, .advance 2 ⟨3, "", false⟩,
    .advance 3 ⟨3, "", false⟩, .advance 2 ⟨4, "", false⟩, .advance 2 ⟨5, "", false⟩,
    .advance 3 ⟨6, "", false⟩]

theorem reworkRace_keeps_hold :
    (stateAt bore reworkRace 20).store.db.holds.rows.map HoldRow.status = ["released", "active"] ∧
      DispositionedOnce (stateAt bore reworkRace 21) ∧
      isHeld (stateAt bore reworkRace 20).store.db (.lot "lot") = true := by
  obtain ⟨-, -, honce, hheld⟩ := quality_bookkeeping bore reworkRace
  have hrequest : (stateAt bore reworkRace 19).threads[2]?.map Session.request
      = some (.dispositionNcr boreRework) := rfl
  obtain ⟨c, hc, hrequest⟩ := Option.map_eq_some_iff.mp hrequest
  refine ⟨by decide +kernel, honce 21, ?_⟩
  exact hheld 19 2 _ c boreRework rfl hc hrequest
    (newHold 1 "h2" "lot" "lot" (some "NCR auto-hold") "insp" (some secondNcr))
    (by decide +kernel) (.lot "lot") ⟨rfl, rfl⟩ rfl (by decide)

end Runs

end ElectronixMes.Quality.Interleaving
