import ElectronixMes.Db.Schema
import Mathlib.Data.Finset.Erase
import Mathlib.Data.Finset.Filter

/-!
# Deletes of master data

Deleting a work center, an area or a site. Areas, work centers, what is
recorded for a work center and its maintenance go with them; operations and
routing operations do not, nor do movements of spares and the maintenance orders of
other work centers, and what one of them names keeps the whole delete from happening.
-/

namespace ElectronixMes.Db

open Relational

/-- The refusal of a delete by a reference that does not cascade. -/
def stillReferenced (table constraint referencing : String) : RepoError :=
  .invalidReference ("update or delete on table \"" ++ table ++
    "\" violates foreign key constraint \"" ++ constraint ++ "\" on table \"" ++ referencing ++
    "\"")

/-- Schedules and orders go with their work center, but for a schedule that an order of another
work center names and for an order that a movement of spares names. -/
def MaintenanceRefs.refusal (refs : MaintenanceRefs) (gone : String → Bool) : Option RepoError :=
  if ∃ p ∈ refs.scheduled, gone p.1 = true ∧ gone p.2 = false then
    some (stillReferenced "pm_schedules" "maintenance_work_orders_pm_schedule_id_fkey"
      "maintenance_work_orders")
  else if ∃ wc ∈ refs.spared, gone wc = true then
    some (stillReferenced "maintenance_work_orders" "spare_txns_maintenance_wo_id_fkey"
      "spare_txns")
  else none

/-- The references that are left without the orders of these work centers. -/
def MaintenanceRefs.drop (refs : MaintenanceRefs) (gone : String → Bool) : MaintenanceRefs :=
  { refs with scheduled := refs.scheduled.filter fun p => gone p.2 = false }

theorem MaintenanceRefs.refusal_eq_none {refs : MaintenanceRefs} {gone : String → Bool} :
    refs.refusal gone = none ↔
      (∀ p ∈ refs.scheduled, gone p.1 = true → gone p.2 = true) ∧
        ∀ wc ∈ refs.spared, gone wc = false := by
  unfold refusal
  split
  · rename_i hscheduled
    obtain ⟨p, hp, hfirst, hsecond⟩ := hscheduled
    refine iff_of_false (Option.some_ne_none _) ?_
    rintro ⟨hnot, -⟩
    rw [hnot p hp hfirst] at hsecond
    cases hsecond
  · rename_i hscheduled
    have hkept : ∀ p ∈ refs.scheduled, gone p.1 = true → gone p.2 = true := by
      intro p hp hfirst
      by_contra hsecond
      exact hscheduled ⟨p, hp, hfirst, Bool.eq_false_of_not_eq_true hsecond⟩
    split
    · rename_i hspared
      obtain ⟨wc, hwc, hgone⟩ := hspared
      refine iff_of_false (Option.some_ne_none _) ?_
      rintro ⟨-, hnot⟩
      rw [hnot wc hwc] at hgone
      cases hgone
    · rename_i hspared
      refine iff_of_true rfl ⟨hkept, ?_⟩
      intro wc hwc
      exact Bool.eq_false_of_not_eq_true fun hgone => hspared ⟨wc, hwc, hgone⟩

theorem MaintenanceRefs.refusal_congr {refs : MaintenanceRefs} {gone gone' : String → Bool}
    (hscheduled : ∀ p ∈ refs.scheduled, gone p.1 = gone' p.1 ∧ gone p.2 = gone' p.2)
    (hspared : ∀ wc ∈ refs.spared, gone wc = gone' wc) :
    refs.refusal gone = refs.refusal gone' := by
  have hfirst : (∃ p ∈ refs.scheduled, gone p.1 = true ∧ gone p.2 = false) ↔
      ∃ p ∈ refs.scheduled, gone' p.1 = true ∧ gone' p.2 = false :=
    exists_congr fun p => and_congr_right fun hp => by
      rw [(hscheduled p hp).1, (hscheduled p hp).2]
  have hsecond : (∃ wc ∈ refs.spared, gone wc = true) ↔ ∃ wc ∈ refs.spared, gone' wc = true :=
    exists_congr fun wc => and_congr_right fun hwc => by rw [hspared wc hwc]
  rw [refusal, refusal, if_congr hfirst rfl (if_congr hsecond rfl rfl)]

theorem MaintenanceRefs.drop_congr {refs : MaintenanceRefs} {gone gone' : String → Bool}
    (h : ∀ p ∈ refs.scheduled, gone p.2 = gone' p.2) : refs.drop gone = refs.drop gone' := by
  rw [drop, drop, Finset.filter_congr fun p hp => by rw [h p hp]]

/-- Delete work centers with the rows that cascade. -/
def cascadeWorkCenters (db : Database) (gone : String → Bool) : Except RepoError Database :=
  if ∃ wc ∈ db.routedWorkCenters, gone wc then
    .error (stillReferenced "work_centers" "routing_ops_work_center_id_fkey" "routing_ops")
  else if db.woOperations.rows.any fun o => o.workCenterId.any gone then
    .error (stillReferenced "work_centers" "wo_operations_work_center_id_fkey" "wo_operations")
  else
    match db.maintenance.refusal gone with
    | some e => .error e
    | none =>
        .ok { db with
          workCenters := db.workCenters.delete fun r => gone r.id
          maintenance := db.maintenance.drop gone
          signalSources := db.signalSources.delete fun r => gone r.workCenterId
          machineEvents := db.machineEvents.delete fun r => gone r.workCenterId
          productionCounts := db.productionCounts.delete fun r => gone r.workCenterId
          plannedStops := db.plannedStops.delete fun r => gone r.workCenterId
          machineStates := db.machineStates.delete fun r => gone r.workCenterId
          downtimeEvents := db.downtimeEvents.delete fun r => gone r.workCenterId }

/-- The work centers of the areas that go. -/
def workCentersIn (db : Database) (area : String → Bool) (id : String) : Bool :=
  db.workCenters.rows.any fun r => r.id = id && area r.areaId

def deleteWorkCenter (db : Database) (id : String) : Except RepoError Database :=
  match db.workCenters.lookup id with
  | none => .error .notFound
  | some _ => cascadeWorkCenters db (· = id)

def deleteArea (db : Database) (id : String) : Except RepoError Database :=
  match db.areas.lookup id with
  | none => .error .notFound
  | some _ =>
      (cascadeWorkCenters db (workCentersIn db (· = id))).map fun db =>
        { db with areas := db.areas.delete fun r => r.id = id }

def deleteSite (db : Database) (id : String) : Except RepoError Database :=
  if id ∈ db.sites then
    let gone (area : String) : Bool := db.areas.rows.any fun r => r.id = area && r.siteId = id
    (cascadeWorkCenters db (workCentersIn db gone)).map fun db =>
      { db with
        sites := db.sites.erase id
        areas := db.areas.delete fun r => r.siteId = id }
  else .error .notFound

variable {db db' : Database} {gone : String → Bool}

/-- A delete of master data leaves the operations alone, none of which stands at a
work center that goes, and takes from the ledger the rows of these work centers. -/
def Cascaded (db db' : Database) : Prop :=
  ∃ gone : String → Bool, db'.woOperations = db.woOperations ∧
    (∀ o ∈ db.woOperations, ∀ wc, o.workCenterId = some wc → gone wc = false) ∧
    db'.productionCounts = db.productionCounts.delete fun r => gone r.workCenterId

theorem cascadeWorkCenters_ok (h : cascadeWorkCenters db gone = .ok db') : Cascaded db db' := by
  unfold cascadeWorkCenters at h
  split at h
  · cases h
  · split at h
    · cases h
    · rename_i hfree
      split at h
      · cases h
      · cases h
        refine ⟨gone, rfl, ?_, rfl⟩
        intro o ho wc hwc
        by_contra hgone
        rw [Bool.not_eq_false] at hgone
        apply hfree
        rw [List.any_eq_true]
        exact ⟨o, ho, by rw [hwc]; simpa using hgone⟩

theorem deleteWorkCenter_cascaded {id : String} (h : deleteWorkCenter db id = .ok db') :
    Cascaded db db' := by
  unfold deleteWorkCenter at h
  split at h
  · cases h
  · exact cascadeWorkCenters_ok h

theorem cascaded_of_map {f : Database → Database}
    (hf : ∀ d, (f d).woOperations = d.woOperations ∧
      (f d).productionCounts = d.productionCounts)
    (h : (cascadeWorkCenters db gone).map f = .ok db') : Cascaded db db' := by
  cases hc : cascadeWorkCenters db gone with
  | error e =>
      rw [hc] at h
      cases h
  | ok mid =>
      rw [hc] at h
      cases h
      obtain ⟨taken, hops, hfree, hcounts⟩ := cascadeWorkCenters_ok hc
      exact ⟨taken, (hf mid).1.trans hops, hfree, (hf mid).2.trans hcounts⟩

theorem deleteArea_cascaded {id : String} (h : deleteArea db id = .ok db') : Cascaded db db' := by
  unfold deleteArea at h
  split at h
  · cases h
  · refine cascaded_of_map ?_ h
    intro d
    exact ⟨rfl, rfl⟩

theorem deleteSite_cascaded {id : String} (h : deleteSite db id = .ok db') : Cascaded db db' := by
  unfold deleteSite at h
  split at h
  · refine cascaded_of_map ?_ h
    intro d
    exact ⟨rfl, rfl⟩
  · cases h

end ElectronixMes.Db
