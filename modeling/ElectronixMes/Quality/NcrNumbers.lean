import ElectronixMes.Db.RepoQms
import ElectronixMes.Core.Id

/-!
# Nonconformance numbers

A nonconformance is numbered by the first ten characters of its id, which are the millisecond
the id was drawn in, and numbers are unique. Of the failed measurements whose ids are drawn in
one millisecond, only the first is recorded.
-/

namespace ElectronixMes.Db

open Relational ElectronixMes.Core

/-- A call that records a measurement, with the ids it draws: of the result, of the
nonconformance and of the holds. -/
structure Inspection where
  now : Int
  ids : ℕ → Ulid
  input : ResultInput
  inspectedBy : String

namespace Inspection

def record (i : Inspection) (db : Database) :
    Except RepoError (Database × InspectionResultRow × Option NcrRow) :=
  recordResult db i.now (fun k => (i.ids k).toString) i.input i.inspectedBy

def drawn (i : Inspection) : List Ulid := (List.range 4).map i.ids

/-- The number of the nonconformance that a failed measurement raises. -/
def ncrNo (i : Inspection) : String := Db.ncrNo (i.ids 1).toString

/-- The characteristic exists, the measured value is out of its limits, and what the call
refers to exists. -/
structure Fails (i : Inspection) (db : Database) : Prop where
  outOfLimits : ∃ c, db.characteristics.lookup i.input.characteristicId = some c ∧
    evaluate i.input.measuredValue c.lowerLimit c.upperLimit = .fail
  lot : ∀ l ∈ i.input.lotId, (db.lots.lookup l).isSome
  serial : ∀ s ∈ i.input.serialId, (db.serials.lookup s).isSome
  operation : ∀ o ∈ i.input.woOperationId, (db.woOperations.lookup o).isSome
  user : i.inspectedBy ∈ db.users

end Inspection

/-- Each call in turn succeeds. -/
def allRecorded : Database → List Inspection → Bool
  | _, [] => true
  | db, i :: rest =>
      match i.record db with
      | .ok res => allRecorded res.1 rest
      | .error _ => false

/-- No result, nonconformance or hold has the id. -/
structure Undrawn (db : Database) (u : Ulid) : Prop where
  results : ∀ r ∈ db.inspectionResults, r.id ≠ u.toString
  ncrs : ∀ n ∈ db.ncrs, n.id ≠ u.toString
  holds : ∀ h ∈ db.holds, h.id ≠ u.toString

section Statements

variable {db : Database}

theorem insertResult_isOk (now : Int) {id inspectedBy : String} {input : ResultInput}
    (outcome : InspectionOutcome) (hid : ∀ r ∈ db.inspectionResults, r.id ≠ id)
    (hcharacteristic : (db.characteristics.lookup input.characteristicId).isSome)
    (hlot : ∀ l ∈ input.lotId, (db.lots.lookup l).isSome)
    (hserial : ∀ s ∈ input.serialId, (db.serials.lookup s).isSome)
    (hoperation : ∀ o ∈ input.woOperationId, (db.woOperations.lookup o).isSome)
    (huser : inspectedBy ∈ db.users) :
    ∃ res, insertResult db now id input outcome inspectedBy = .ok res ∧ res.2.id = id := by
  let row : InspectionResultRow :=
    ⟨id, input.characteristicId, input.lotId, input.serialId, input.woOperationId,
      input.measuredValue, outcome.asStr, some inspectedBy, now⟩
  obtain ⟨results, hins⟩ : ∃ results, db.inspectionResults.insert? row = some results :=
    Table.exists_insert? hid
  unfold insertResult
  dsimp only
  rw [hins]
  dsimp only
  rw [optionalRef_some hcharacteristic, optionalRef_isOk.mpr hlot, optionalRef_isOk.mpr hserial,
    optionalRef_isOk.mpr hoperation, optionalRef_some (decide_eq_true huser)]
  exact ⟨_, rfl, rfl⟩

/-- A nonconformance keeps its id and takes the number of it. -/
theorem insertNcr_id {now : Int} {id : String} {r : InspectionResultRow}
    {res : Database × NcrRow} (h : insertNcr db now id r = .ok res) :
    res.2.id = id ∧ res.2.ncrNo = ncrNo id := by
  unfold insertNcr at h
  dsimp only at h
  split at h
  · cases h
  · split at h
    · cases h
    · repeat replace h := of_check h
      cases h
      exact ⟨rfl, rfl⟩

/-- A nonconformance is inserted exactly when its number is free. -/
theorem insertNcr_isOk_iff (db : Database) (now : Int) {id : String} {r : InspectionResultRow}
    (hid : ∀ n ∈ db.ncrs, n.id ≠ id)
    (hresult : (db.inspectionResults.lookup r.id).isSome)
    (hlot : ∀ l ∈ r.lotId, (db.lots.lookup l).isSome)
    (hserial : ∀ s ∈ r.serialId, (db.serials.lookup s).isSome)
    (hparts : ∀ l ∈ db.lots, l.partId ∈ db.parts) :
    (∃ res, insertNcr db now id r = .ok res) ↔ ∀ n ∈ db.ncrs, n.ncrNo ≠ ncrNo id := by
  constructor
  · rintro ⟨res, h⟩ n hn heq
    have hfree := insertNcr_no h
    rw [(insertNcr_id h).2] at hfree
    exact hfree (List.any_eq_true.mpr ⟨n, hn, decide_eq_true heq⟩)
  · intro hfree
    let part := r.lotId.bind fun l => (db.lots.lookup l).map LotRow.partId
    let row : NcrRow :=
      ⟨id, ncrNo id, some r.id, r.lotId, r.serialId, part, "open", none,
        some "inspection failure", none, none, now, now⟩
    obtain ⟨ncrs, hins⟩ : ∃ ncrs, db.ncrs.insert? row = some ncrs := Table.exists_insert? hid
    have hany : ¬ (db.ncrs.rows.any fun n => n.ncrNo = ncrNo id) = true := by
      rw [List.any_eq_true]
      rintro ⟨n, hn, heq⟩
      exact hfree n hn (of_decide_eq_true heq)
    have hpart : ∀ p ∈ part, decide (p ∈ db.parts) = true := by
      intro p hp
      obtain ⟨l, -, hp⟩ := Option.bind_eq_some_iff.mp hp
      obtain ⟨lot, hlot, rfl⟩ := Option.map_eq_some_iff.mp hp
      exact decide_eq_true (hparts lot (Table.lookup_eq_some.mp hlot).1)
    unfold insertNcr
    dsimp only
    rw [hins]
    dsimp only
    rw [if_neg hany, optionalRef_some hresult, optionalRef_isOk.mpr hlot,
      optionalRef_isOk.mpr hserial, optionalRef_isOk.mpr hpart]
    exact ⟨_, rfl⟩

/-- Holds with new ids are placed on each material. -/
theorem autoHolds_isOk (db : Database) (now : Int) {createdBy ncrId : String}
    (huser : createdBy ∈ db.users) (hncr : (db.ncrs.lookup ncrId).isSome) (ids : ℕ → String)
    (materials : List Material)
    (hnew : ∀ k < materials.length, ∀ h ∈ db.holds, h.id ≠ ids k)
    (hinj : ∀ j < materials.length, ∀ k < materials.length, ids j = ids k → j = k) :
    ∃ db', autoHolds now createdBy ncrId ids db materials = .ok db' := by
  induction materials generalizing db ids with
  | nil => exact ⟨db, rfl⟩
  | cons m rest ih =>
      let hold := newHold now (ids 0) m.entityType m.entityId (some "NCR auto-hold") createdBy
        (some ncrId)
      obtain ⟨holds, hins⟩ : ∃ holds, db.holds.insert? hold = some holds :=
        Table.exists_insert? (hnew 0 (Nat.succ_pos _))
      have hplaced : insertHold db hold = .ok { db with holds } := by
        unfold insertHold
        rw [hins]
        dsimp only
        rw [show hold.createdBy = some createdBy from rfl, show hold.ncrId = some ncrId from rfl,
          optionalRef_some (decide_eq_true huser), optionalRef_some hncr]
        rfl
      rw [autoHolds, hplaced]
      refine ih { db with holds } huser hncr (ids ∘ Nat.succ) ?_ ?_
      · intro k hk h hh
        rcases (Table.mem_insert? hins).mp hh with hold | rfl
        · exact hnew (k + 1) (Nat.succ_lt_succ hk) h hold
        · intro heq
          cases hinj 0 (Nat.succ_pos _) (k + 1) (Nat.succ_lt_succ hk) heq
      · intro j hj k hk heq
        exact Nat.succ.inj (hinj (j + 1) (Nat.succ_lt_succ hj) (k + 1) (Nat.succ_lt_succ hk) heq)

theorem autoHolds_ids {createdBy ncrId : String} {ids : ℕ → String} {materials : List Material}
    {db' : Database} (h : autoHolds now createdBy ncrId ids db materials = .ok db') :
    ∀ k ∈ db'.holds, k ∈ db.holds ∨ ∃ j < materials.length, k.id = ids j := by
  induction materials generalizing db ids with
  | nil =>
      cases h
      exact fun k hk => Or.inl hk
  | cons m rest ih =>
      rw [autoHolds] at h
      obtain ⟨db₁, hins, h⟩ := bind_eq_ok.mp h
      obtain ⟨holds, hnew, rfl⟩ := insertHold_ok hins
      intro k hk
      rcases ih h k hk with hold | ⟨j, hj, heq⟩
      · rcases (Table.mem_insert? hnew).mp hold with hold | rfl
        · exact Or.inl hold
        · exact Or.inr ⟨0, Nat.succ_pos _, rfl⟩
      · exact Or.inr ⟨j + 1, Nat.succ_lt_succ hj, heq⟩

end Statements

section Calls

variable {db db' : Database} {i : Inspection}

theorem Inspection.mem_drawn {k : ℕ} (hk : k < 4) : i.ids k ∈ i.drawn :=
  List.mem_map_of_mem (List.mem_range.mpr hk)

/-- What a failed measurement that was recorded has added. -/
structure Inspection.Adds (i : Inspection) (db db' : Database) : Prop where
  frame : db' = { db with
    inspectionResults := db'.inspectionResults, ncrs := db'.ncrs, holds := db'.holds }
  results : ∀ r ∈ db'.inspectionResults,
    r ∈ db.inspectionResults ∨ r.id = (i.ids 0).toString
  ncr : ∃ n, n.id = (i.ids 1).toString ∧ n.ncrNo = i.ncrNo ∧
    ∀ m, m ∈ db'.ncrs ↔ m ∈ db.ncrs ∨ m = n
  holds : ∀ h ∈ db'.holds, h ∈ db.holds ∨ ∃ j < 2, h.id = (i.ids (j + 2)).toString

theorem length_named_le (lotId serialId : Option String) :
    (Material.named lotId serialId).length ≤ 2 := by
  cases lotId <;> cases serialId <;> simp [Material.named]

/-- The result of a failed measurement is inserted, and its nonconformance decides on the
call. -/
theorem record_eq (hfails : i.Fails db) (hnew : ∀ u ∈ i.drawn, Undrawn db u) :
    ∃ results result, db.inspectionResults.insert? result = some results ∧
      result.id = (i.ids 0).toString ∧ result.lotId = i.input.lotId ∧
      result.serialId = i.input.serialId ∧
      i.record db =
        match insertNcr { db with inspectionResults := results } i.now (i.ids 1).toString result
          with
        | .error e => .error (mapSqlx e)
        | .ok (db, ncr) =>
            match autoHolds i.now i.inspectedBy ncr.id (fun k => (i.ids (k + 2)).toString) db
                (Material.named i.input.lotId i.input.serialId) with
            | .error e => .error (mapSqlx e)
            | .ok db => .ok (db, result, some ncr) := by
  obtain ⟨c, hc, houtcome⟩ := hfails.outOfLimits
  obtain ⟨⟨db₁, result⟩, hresult, hid⟩ := insertResult_isOk i.now .fail
    (hnew _ (Inspection.mem_drawn (k := 0) (by decide))).results (by rw [hc]; rfl) hfails.lot
    hfails.serial hfails.operation hfails.user
  obtain ⟨results, hins, hdb, hlot, hserial⟩ := insertResult_ok hresult
  dsimp only at hins hdb hlot hserial hid
  subst hdb
  refine ⟨results, result, hins, hid, hlot, hserial, ?_⟩
  unfold Inspection.record recordResult
  rw [hc]
  dsimp only
  rw [houtcome, hresult]
  rfl

/-- A recorded failure has added its result, its nonconformance and its holds. -/
theorem adds_of_ok {res : Database × InspectionResultRow × Option NcrRow}
    (hfails : i.Fails db) (hnew : ∀ u ∈ i.drawn, Undrawn db u) (h : i.record db = .ok res) :
    i.Adds db res.1 := by
  obtain ⟨results, result, hins, hid, -, -, heq⟩ := record_eq hfails hnew
  rw [heq] at h
  split at h
  · cases h
  · rename_i hncr
    obtain ⟨hncrId, hncrNo⟩ := insertNcr_id hncr
    obtain ⟨ncrs, hinsNcr, hdb, -⟩ := insertNcr_ok hncr
    dsimp only at hncrId hncrNo hinsNcr hdb
    subst hdb
    split at h
    · cases h
    · rename_i hholds
      cases h
      obtain ⟨hframe, -, -⟩ := autoHolds_ok hholds
      refine ⟨hframe.trans ?_, ?_, ⟨_, hncrId, hncrNo, ?_⟩, ?_⟩
      · rw [hframe]
      · intro r hr
        rw [hframe] at hr
        rcases (Table.mem_insert? hins).mp hr with hold | rfl
        · exact Or.inl hold
        · exact Or.inr hid
      · intro m
        rw [hframe]
        exact Table.mem_insert? hinsNcr
      · intro k hk
        rcases autoHolds_ids hholds k hk with hold | ⟨j, hj, heq⟩
        · exact Or.inl hold
        · exact Or.inr ⟨j, hj.trans_le (length_named_le ..), heq⟩

/-- A failed measurement is recorded exactly when the number of its nonconformance is free. -/
theorem record_isOk_iff (hparts : ∀ l ∈ db.lots, l.partId ∈ db.parts) (hfails : i.Fails db)
    (hnew : ∀ u ∈ i.drawn, Undrawn db u) (hdistinct : i.drawn.Nodup) :
    (∃ res, i.record db = .ok res) ↔ ∀ n ∈ db.ncrs, n.ncrNo ≠ i.ncrNo := by
  obtain ⟨results, result, hins, hid, hlot, hserial, heq⟩ := record_eq hfails hnew
  have hrow : (results.lookup result.id).isSome :=
    Option.isSome_of_eq_some (Table.lookup_insert?_self hins)
  have hfree := insertNcr_isOk_iff { db with inspectionResults := results } i.now
    (hnew _ (Inspection.mem_drawn (k := 1) (by decide))).ncrs hrow (hlot ▸ hfails.lot)
    (hserial ▸ hfails.serial) hparts
  refine Iff.trans ?_ hfree
  rw [heq]
  constructor
  · rintro ⟨res, h⟩
    split at h
    · cases h
    · rename_i hok
      exact ⟨_, hok⟩
  · rintro ⟨⟨db₁, ncr⟩, hok⟩
    obtain ⟨ncrs, hinsNcr, hdb, -⟩ := insertNcr_ok hok
    dsimp only at hinsNcr hdb
    subst hdb
    have hncr : (ncrs.lookup ncr.id).isSome :=
      Option.isSome_of_eq_some (Table.lookup_insert?_self hinsNcr)
    have hlength := length_named_le i.input.lotId i.input.serialId
    have hshift {k : ℕ} (hk : k < (Material.named i.input.lotId i.input.serialId).length) :
        k + 2 < 4 := Nat.add_lt_add_right (hk.trans_le hlength) 2
    have hunused : ∀ k < (Material.named i.input.lotId i.input.serialId).length,
        ∀ h ∈ db.holds, h.id ≠ (i.ids (k + 2)).toString := fun k hk =>
      (hnew _ (Inspection.mem_drawn (hshift hk))).holds
    obtain ⟨db', hdb'⟩ := autoHolds_isOk { db with inspectionResults := results, ncrs } i.now
      hfails.user hncr (fun k => (i.ids (k + 2)).toString)
      (Material.named i.input.lotId i.input.serialId) hunused fun j hj k hk h =>
        Nat.add_right_cancel (List.inj_on_of_nodup_map hdistinct (List.mem_range.mpr (hshift hj))
          (List.mem_range.mpr (hshift hk)) (Ulid.toString_inj.mp h))
    rw [hok]
    dsimp only
    rw [hdb']
    exact ⟨_, rfl⟩

/-- The number is the millisecond. -/
theorem ncrNo_inj {u v : Ulid} :
    ncrNo u.toString = ncrNo v.toString ↔ u.timestampMs = v.timestampMs := by
  rw [ncrNo, ncrNo, Ulid.take_toString, Ulid.take_toString, ← Ulid.time_inj]
  constructor
  · intro h
    exact String.ofList_inj.mp (String.append_right_inj "NCR-" |>.mp h)
  · intro h
    rw [h]

end Calls

section Runs

variable {db db' : Database} {i c : Inspection}

theorem Inspection.Adds.fails (h : i.Adds db db') (hfails : c.Fails db) : c.Fails db' := by
  rw [h.frame]
  exact ⟨hfails.outOfLimits, hfails.lot, hfails.serial, hfails.operation, hfails.user⟩

theorem Inspection.Adds.undrawn (h : i.Adds db db') {u : Ulid} (hu : Undrawn db u)
    (hne : u ∉ i.drawn) : Undrawn db' u := by
  have hother {k : ℕ} (hk : k < 4) : (i.ids k).toString ≠ u.toString := fun heq =>
    hne (Ulid.toString_inj.mp heq ▸ i.mem_drawn hk)
  refine ⟨fun r hr => ?_, fun n hn => ?_, fun k hk => ?_⟩
  · rcases h.results r hr with hold | hid
    · exact hu.results r hold
    · rw [hid]
      exact hother (by decide)
  · obtain ⟨row, hid, -, hmem⟩ := h.ncr
    rcases (hmem n).mp hn with hold | rfl
    · exact hu.ncrs n hold
    · rw [hid]
      exact hother (by decide)
  · rcases h.holds k hk with hold | ⟨j, hj, hid⟩
    · exact hu.holds k hold
    · rw [hid]
      exact hother (Nat.add_lt_add_right hj 2)

/-- A number is free behind a recorded failure when it was free and is another one. -/
theorem Inspection.Adds.free_iff (h : i.Adds db db') (no : String) :
    (∀ n ∈ db'.ncrs, n.ncrNo ≠ no) ↔ i.ncrNo ≠ no ∧ ∀ n ∈ db.ncrs, n.ncrNo ≠ no := by
  obtain ⟨row, -, hno, hmem⟩ := h.ncr
  constructor
  · intro hfree
    exact ⟨hno ▸ hfree row ((hmem row).mpr (Or.inr rfl)),
      fun n hn => hfree n ((hmem n).mpr (Or.inl hn))⟩
  · rintro ⟨hne, hfree⟩ n hn
    rcases (hmem n).mp hn with hold | rfl
    · exact hfree n hold
    · exact hno ▸ hne

/-- Failed measurements are all recorded exactly when their numbers are free and pairwise
different. -/
theorem allRecorded_iff_numbers (calls : List Inspection)
    (hparts : ∀ l ∈ db.lots, l.partId ∈ db.parts) (hfails : ∀ i ∈ calls, i.Fails db)
    (hnew : ∀ i ∈ calls, ∀ u ∈ i.drawn, Undrawn db u)
    (hdistinct : (calls.flatMap Inspection.drawn).Nodup) :
    allRecorded db calls ↔
      (calls.map Inspection.ncrNo).Nodup ∧ ∀ i ∈ calls, ∀ n ∈ db.ncrs, n.ncrNo ≠ i.ncrNo := by
  induction calls generalizing db with
  | nil => simp [allRecorded]
  | cons i rest ih =>
      rw [List.flatMap_cons, List.nodup_append] at hdistinct
      obtain ⟨hown, hrest, hapart⟩ := hdistinct
      have hnewi := hnew i List.mem_cons_self
      have hfailsi := hfails i List.mem_cons_self
      have hok := record_isOk_iff hparts hfailsi hnewi hown
      rw [List.map_cons, List.nodup_cons, List.forall_mem_cons, ← hok, allRecorded]
      cases hrecord : i.record db with
      | error e => simp
      | ok res =>
          have hadds := adds_of_ok hfailsi hnewi hrecord
          have hparts' : ∀ l ∈ res.1.lots, l.partId ∈ res.1.parts := by
            rw [hadds.frame]
            exact hparts
          have hstep := ih hparts'
            (fun c hc => hadds.fails (hfails c (List.mem_cons_of_mem i hc)))
            (fun c hc u hu => hadds.undrawn (hnew c (List.mem_cons_of_mem i hc) u hu)
              fun hmem => hapart u hmem u (List.mem_flatMap.mpr ⟨c, hc, hu⟩) rfl)
            hrest
          dsimp only
          rw [hstep]
          constructor
          · rintro ⟨hnodup, hfree⟩
            refine ⟨⟨?_, hnodup⟩, ⟨res, rfl⟩, ?_⟩
            · intro hmem
              obtain ⟨c, hc, heq⟩ := List.mem_map.mp hmem
              exact ((hadds.free_iff _).mp (hfree c hc)).1 heq.symm
            · exact fun c hc => ((hadds.free_iff _).mp (hfree c hc)).2
          · rintro ⟨⟨hnotin, hnodup⟩, -, hfree⟩
            refine ⟨hnodup, fun c hc => (hadds.free_iff _).mpr ⟨?_, hfree c hc⟩⟩
            exact fun heq => hnotin (List.mem_map.mpr ⟨c, hc, heq.symm⟩)

/-- Failed measurements are all recorded exactly when the ids of their nonconformances are
drawn in different milliseconds, none of which numbers a stored nonconformance. -/
theorem failures_recorded_iff (db : Database) (calls : List Inspection)
    (hparts : ∀ l ∈ db.lots, l.partId ∈ db.parts) (hfails : ∀ i ∈ calls, i.Fails db)
    (hnew : ∀ i ∈ calls, ∀ u ∈ i.drawn, Undrawn db u)
    (hdistinct : (calls.flatMap Inspection.drawn).Nodup) :
    allRecorded db calls ↔
      (calls.map fun i => (i.ids 1).timestampMs).Nodup ∧
        ∀ i ∈ calls, ∀ n ∈ db.ncrs, n.ncrNo ≠ ncrNo (i.ids 1).toString := by
  rw [allRecorded_iff_numbers calls hparts hfails hnew hdistinct]
  have hsame : (calls.map Inspection.ncrNo).Nodup ↔
      (calls.map fun i => (i.ids 1).timestampMs).Nodup := by
    rw [List.Nodup, List.Nodup, List.pairwise_map, List.pairwise_map]
    simp only [Inspection.ncrNo, ne_eq, ncrNo_inj]
  rw [hsame]
  rfl

/-- A lot and its inspector. -/
def gauged : Database where
  users := {"insp"}
  parts := {"bar"}
  characteristics := ⟨[⟨"diameter", none, some ⟨10, 0⟩⟩], List.nodup_singleton _⟩
  lots := ⟨[⟨"melt", "L-3", "bar"⟩], List.nodup_singleton _⟩

/-- A measurement over the limit, with its ids drawn in one millisecond. -/
def overLimit (timestampMs : Fin (2 ^ 48)) (random : Fin (2 ^ 80)) : Inspection where
  now := 0
  ids k := ⟨timestampMs, random + Fin.ofNat _ k⟩
  input := ⟨"diameter", some "melt", none, none, ⟨12, 0⟩⟩
  inspectedBy := "insp"

theorem overLimit_fails (timestampMs : Fin (2 ^ 48)) (random : Fin (2 ^ 80)) :
    (overLimit timestampMs random).Fails gauged ∧
      ∀ u ∈ (overLimit timestampMs random).drawn, Undrawn gauged u := by
  refine ⟨⟨⟨_, rfl, (by decide : evaluate ⟨12, 0⟩ none (some ⟨10, 0⟩) = .fail)⟩, ?_, ?_, ?_,
    (by decide : "insp" ∈ gauged.users)⟩, fun u _ => ⟨?_, ?_, ?_⟩⟩
  · intro l hl
    obtain rfl := Option.some.inj hl
    rfl
  · exact fun s hs => absurd hs (Option.not_mem_none s)
  · exact fun o ho => absurd ho (Option.not_mem_none o)
  · exact fun r hr => absurd hr (Table.notMem_empty r)
  · exact fun n hn => absurd hn (Table.notMem_empty n)
  · exact fun h hh => absurd hh (Table.notMem_empty h)

/-- Failures in different milliseconds. -/
theorem failures_recorded_apart : allRecorded gauged [overLimit 1 0, overLimit 2 0] := by
  have hcalls : ∀ i ∈ [overLimit 1 0, overLimit 2 0],
      i.Fails gauged ∧ ∀ u ∈ i.drawn, Undrawn gauged u := by
    intro i hi
    rcases List.mem_pair.mp hi with rfl | rfl
    · exact overLimit_fails 1 0
    · exact overLimit_fails 2 0
  exact (failures_recorded_iff gauged _ (by decide +kernel) (fun i hi => (hcalls i hi).1)
    (fun i hi => (hcalls i hi).2) (by decide +kernel)).mpr ⟨by decide +kernel, by decide +kernel⟩

/-- Of two failures in one millisecond the second is refused, though all ids differ. -/
theorem failures_sameMillisecond :
    (∀ i ∈ [overLimit 1 0, overLimit 1 4],
      i.Fails gauged ∧ ∀ u ∈ i.drawn, Undrawn gauged u) ∧
      ([overLimit 1 0, overLimit 1 4].flatMap Inspection.drawn).Nodup ∧
        allRecorded gauged [overLimit 1 0, overLimit 1 4] = false := by
  refine ⟨fun i hi => ?_, by decide +kernel, by decide +kernel⟩
  rcases List.mem_pair.mp hi with rfl | rfl
  · exact overLimit_fails 1 0
  · exact overLimit_fails 1 4

end Runs

end ElectronixMes.Db
