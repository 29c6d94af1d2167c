import ElectronixMes.Access.Credentials

/-!
# Sites, areas and work centers

The integrity of the hierarchy holds in every state of a run. A delete takes the row it names
with all that hangs below it and nothing else, and it is refused as a whole when an operation
names a work center below, or something that stays its maintenance. On the columns that the
rest of the database knows of the three tables, it is the delete that the order and ingest
models start from.
-/

namespace ElectronixMes.Access

open Relational Db.Master Edge Edge.Master
open Db (ApiErr RepoError repoErr Database)

/-! ## Deletes -/

section Deletes

variable {m m' : MasterData} {id : String}

/-- What a delete below a row leaves, by which rows go. -/
structure Removed (m m' : MasterData) (site : SiteRow → Prop) (area : AreaRow → Prop)
    (workCenter : WorkCenterRow → Prop) : Prop where
  sites : ∀ r, r ∈ m'.sites ↔ r ∈ m.sites ∧ ¬ site r
  areas : ∀ r, r ∈ m'.areas ↔ r ∈ m.areas ∧ ¬ area r
  workCenters : ∀ r, r ∈ m'.workCenters ↔ r ∈ m.workCenters ∧ ¬ workCenter r
  free : Unheld m workCenter
  parts : m'.parts = m.parts
  users : m'.users = m.users
  routed : m'.routedWorkCenters = m.routedWorkCenters
  operated : m'.operationWorkCenters = m.operationWorkCenters
  spared : m'.maintenance.spared = m.maintenance.spared
  scheduled : ∀ p, p ∈ m'.maintenance.scheduled ↔
    p ∈ m.maintenance.scheduled ∧ ¬ ∃ r ∈ m.workCenters, r.id = p.2 ∧ workCenter r

/-- The area of the work center stands in the site. -/
def InSite (m : MasterData) (id : String) (w : WorkCenterRow) : Prop :=
  ∃ a ∈ m.areas, a.id = w.areaId ∧ a.siteId = id

/-- The references of the orders that stay. -/
theorem mem_drop_scheduled {gone : WorkCenterRow → Bool} {workCenter : WorkCenterRow → Prop}
    (hgone : ∀ r, gone r = true ↔ workCenter r) (p : String × String) :
    p ∈ (m.maintenance.drop (goes m gone)).scheduled ↔
      p ∈ m.maintenance.scheduled ∧ ¬ ∃ r ∈ m.workCenters, r.id = p.2 ∧ workCenter r := by
  simp only [Db.MaintenanceRefs.drop, Finset.mem_filter, ← hgone]
  rw [← goes_iff, Bool.not_eq_true]

theorem deleteSite_removed (h : Db.Master.deleteSite m id = .ok m') :
    Removed m m' (fun s => s.id = id) (fun a => a.siteId = id) (InSite m id) := by
  obtain ⟨mid, hdrop, rfl⟩ := deleteSite_ok h
  obtain ⟨rfl, hfree⟩ := dropWorkCenters_ok hdrop
  exact
    { sites := fun r => by simp
      areas := fun r => by simp
      workCenters := fun r => by
        rw [Table.mem_delete, ← Bool.not_eq_true, areaIn_iff]
        rfl
      free := hfree.congr fun _ => areaIn_iff
      parts := rfl
      users := rfl
      routed := rfl
      operated := rfl
      spared := rfl
      scheduled := mem_drop_scheduled (fun _ => areaIn_iff) }

theorem deleteArea_removed (h : Db.Master.deleteArea m id = .ok m') :
    Removed m m' (fun _ => False) (fun a => a.id = id) (fun w => w.areaId = id) := by
  obtain ⟨mid, hdrop, rfl⟩ := deleteArea_ok h
  obtain ⟨rfl, hfree⟩ := dropWorkCenters_ok hdrop
  exact
    { sites := fun r => by simp
      areas := fun r => by simp
      workCenters := fun r => by simp
      free := hfree.congr fun _ => decide_eq_true_iff
      parts := rfl
      users := rfl
      routed := rfl
      operated := rfl
      spared := rfl
      scheduled := mem_drop_scheduled (fun _ => decide_eq_true_iff) }

theorem deleteWorkCenter_removed (h : Db.Master.deleteWorkCenter m id = .ok m') :
    Removed m m' (fun _ => False) (fun _ => False) (fun w => w.id = id) := by
  obtain ⟨rfl, hfree⟩ := dropWorkCenters_ok (deleteWorkCenter_ok h)
  exact
    { sites := fun r => by simp
      areas := fun r => by simp
      workCenters := fun r => by simp
      free := hfree.congr fun _ => decide_eq_true_iff
      parts := rfl
      users := rfl
      routed := rfl
      operated := rfl
      spared := rfl
      scheduled := mem_drop_scheduled (fun _ => decide_eq_true_iff) }

end Deletes

/-! ## The columns that the rest of the database knows -/

/-- A database holds, of the three tables, the ids and the parents, and it has the rows that
the references of the master data stand for. -/
structure Mirrors (m : MasterData) (db : Database) : Prop where
  sites : ∀ id, id ∈ db.sites ↔ m.sites.Has id
  areas : db.areas.rows = m.areas.rows.map fun a => ⟨a.id, a.siteId⟩
  workCenters : (db.workCenters.rows.map fun w => (w.id, w.areaId)) =
    m.workCenters.rows.map fun w => (w.id, w.areaId)
  routed : db.routedWorkCenters = m.routedWorkCenters
  maintenance : db.maintenance = m.maintenance
  operated : ∀ id, id ∈ m.operationWorkCenters ↔ ∃ o ∈ db.woOperations, o.workCenterId = some id

/-- Both fail alike, or both succeed in related states. -/
def Alike {ε α β : Type} (R : α → β → Prop) : Except ε α → Except ε β → Prop
  | .ok a, .ok b => R a b
  | .error e, .error e' => e = e'
  | _, _ => False

theorem Alike.cases {ε α β : Type} {R : α → β → Prop} {x : Except ε α} {y : Except ε β}
    (h : Alike R x y) :
    (∃ e, x = .error e ∧ y = .error e) ∨ ∃ a b, x = .ok a ∧ y = .ok b ∧ R a b := by
  cases x with
  | error e =>
      cases y with
      | error e' =>
          obtain rfl := h
          exact Or.inl ⟨e, rfl, rfl⟩
      | ok b => exact h.elim
  | ok a =>
      cases y with
      | error e' => exact h.elim
      | ok b => exact Or.inr ⟨a, b, rfl, rfl, h⟩

theorem Alike.map {ε α β γ δ : Type} {R : α → β → Prop} {S : γ → δ → Prop} {x : Except ε α}
    {y : Except ε β} {f : α → γ} {g : β → δ} (h : Alike R x y)
    (hfg : ∀ a b, x = .ok a → R a b → S (f a) (g b)) : Alike S (x.map f) (y.map g) := by
  cases x with
  | error e =>
      cases y with
      | error e' => exact h
      | ok b => exact h.elim
  | ok a =>
      cases y with
      | error e' => exact h.elim
      | ok b => exact hfg a b rfl h

section Mirror

variable {m : MasterData} {db : Database}

theorem Mirrors.has_workCenter (h : Mirrors m db) (id : String) :
    (db.workCenters.lookup id).isSome = (m.workCenters.lookup id).isSome := by
  rw [Bool.eq_iff_iff, Table.isSome_lookup, Table.isSome_lookup]
  have hids : (db.workCenters.rows.map fun w => w.id) = m.workCenters.rows.map fun w => w.id := by
    have hmap := congrArg (List.map Prod.fst) h.workCenters
    rw [List.map_map, List.map_map] at hmap
    exact hmap
  have hdb : db.workCenters.Has id ↔ id ∈ db.workCenters.rows.map fun w => w.id := List.mem_map.symm
  have hm : m.workCenters.Has id ↔ id ∈ m.workCenters.rows.map fun w => w.id := List.mem_map.symm
  rw [hdb, hm, hids]

theorem Mirrors.has_area (h : Mirrors m db) (id : String) :
    (db.areas.lookup id).isSome = (m.areas.lookup id).isSome := by
  rw [Bool.eq_iff_iff, Table.isSome_lookup, Table.isSome_lookup]
  have hdb : db.areas.Has id ↔ id ∈ db.areas.rows.map fun a => a.id := List.mem_map.symm
  have hm : m.areas.Has id ↔ id ∈ m.areas.rows.map fun a => a.id := List.mem_map.symm
  rw [hdb, hm, h.areas, List.map_map]
  rfl

/-- The work centers that stay are the same on both sides. -/
theorem Mirrors.filter_workCenters (h : Mirrors m db) {gone : WorkCenterRow → Bool}
    {gone' : String → Bool} (hgone : ∀ w ∈ m.workCenters, gone w = gone' w.id) :
    ((db.workCenters.rows.filter fun r => !gone' r.id).map fun w => (w.id, w.areaId)) =
      (m.workCenters.rows.filter fun r => !gone r).map fun w => (w.id, w.areaId) := by
  have hleft : ((db.workCenters.rows.filter fun r => !gone' r.id).map fun w => (w.id, w.areaId)) =
      (db.workCenters.rows.map fun w => (w.id, w.areaId)).filter fun p => !gone' p.1 := by
    rw [List.filter_map]
    rfl
  have hright : ((m.workCenters.rows.filter fun r => !gone r).map fun w => (w.id, w.areaId)) =
      (m.workCenters.rows.map fun w => (w.id, w.areaId)).filter fun p => !gone' p.1 := by
    rw [List.filter_map]
    congr 1
    apply List.filter_congr
    intro w hw
    rw [hgone w hw]
    rfl
  rw [hleft, hright, h.workCenters]

/-- The work centers that go, by row on one side and by id on the other. -/
theorem cascade_mirrors (hsound : Sound m) (h : Mirrors m db) {gone : WorkCenterRow → Bool}
    {gone' : String → Bool} (hgone : ∀ w ∈ m.workCenters, gone w = gone' w.id) :
    Alike Mirrors (dropWorkCenters m gone) (Db.cascadeWorkCenters db gone') := by
  have hrouted : (∃ r ∈ m.workCenters.rows, gone r = true ∧ r.id ∈ m.routedWorkCenters) ↔
      ∃ wc ∈ db.routedWorkCenters, gone' wc = true := by
    rw [h.routed]
    constructor
    · rintro ⟨r, hr, hg, hin⟩
      exact ⟨r.id, hin, by rw [← hgone r hr]; exact hg⟩
    · rintro ⟨wc, hin, hg⟩
      obtain ⟨r, hr, rfl⟩ := hsound.routed wc hin
      exact ⟨r, hr, by rw [hgone r hr]; exact hg, hin⟩
  have hoperated : (∃ r ∈ m.workCenters.rows, gone r = true ∧ r.id ∈ m.operationWorkCenters) ↔
      (db.woOperations.rows.any fun o => o.workCenterId.any gone') = true := by
    rw [List.any_eq_true]
    constructor
    · rintro ⟨r, hr, hg, hin⟩
      obtain ⟨o, ho, hwc⟩ := (h.operated r.id).mp hin
      exact ⟨o, ho, by rw [hwc, Option.any_some, ← hgone r hr]; exact hg⟩
    · rintro ⟨o, ho, hany⟩
      obtain ⟨wc, hwc, hg⟩ : ∃ wc, o.workCenterId = some wc ∧ gone' wc = true := by
        cases hwc : o.workCenterId with
        | none => simp [hwc] at hany
        | some wc => exact ⟨wc, rfl, by simpa [hwc] using hany⟩
      have hin := (h.operated wc).mpr ⟨o, ho, hwc⟩
      obtain ⟨r, hr, rfl⟩ := hsound.operated wc hin
      exact ⟨r, hr, by rw [hgone r hr]; exact hg, hin⟩
  have hgoes : ∀ id, m.workCenters.Has id → goes m gone id = gone' id := by
    rintro id ⟨r, hr, rfl⟩
    rw [Bool.eq_iff_iff, goes_iff, key_workCenter, ← hgone r hr]
    constructor
    · rintro ⟨r', hr', hid, hg⟩
      rwa [Table.eq_of_key_eq hr hr' hid.symm]
    · intro hg
      exact ⟨r, hr, rfl, hg⟩
  have hrefusal : m.maintenance.refusal (goes m gone) = db.maintenance.refusal gone' := by
    rw [h.maintenance]
    apply Db.MaintenanceRefs.refusal_congr
    · intro p hp
      exact ⟨hgoes p.1 (hsound.scheduled p hp).1, hgoes p.2 (hsound.scheduled p hp).2⟩
    · exact fun wc hwc => hgoes wc (hsound.spared wc hwc)
  have hdrop : db.maintenance.drop gone' = m.maintenance.drop (goes m gone) := by
    rw [h.maintenance]
    apply Db.MaintenanceRefs.drop_congr
    exact fun p hp => (hgoes p.2 (hsound.scheduled p hp).2).symm
  rw [dropWorkCenters, Db.cascadeWorkCenters, hrefusal]
  by_cases hr : ∃ wc ∈ db.routedWorkCenters, gone' wc = true
  · rw [if_pos (hrouted.mpr hr), if_pos hr]
    rfl
  · rw [if_neg (hr ∘ hrouted.mp), if_neg hr]
    by_cases ho : (db.woOperations.rows.any fun o => o.workCenterId.any gone') = true
    · rw [if_pos (hoperated.mpr ho), if_pos ho]
      rfl
    · rw [if_neg (ho ∘ hoperated.mp), if_neg ho]
      cases db.maintenance.refusal gone' with
      | some e => rfl
      | none =>
          exact { h with
            workCenters := h.filter_workCenters hgone
            maintenance := hdrop }

theorem workCentersIn_mirrors (h : Mirrors m db) (area : String → Bool) {w : WorkCenterRow}
    (hw : w ∈ m.workCenters) : Db.workCentersIn db area w.id = area w.areaId := by
  have hpair : (w.id, w.areaId) ∈ db.workCenters.rows.map fun r => (r.id, r.areaId) := by
    rw [h.workCenters]
    exact List.mem_map_of_mem hw
  obtain ⟨r, hr, heq⟩ := List.mem_map.mp hpair
  obtain ⟨hid, harea⟩ := Prod.mk.inj heq
  rw [Bool.eq_iff_iff, Db.workCentersIn, List.any_eq_true]
  constructor
  · rintro ⟨r', hr', hboth⟩
    obtain ⟨hid', harea'⟩ := (Bool.and_eq_true _ _).mp hboth
    have hsame : r' = r := Table.eq_of_key_eq hr' hr ((of_decide_eq_true hid').trans hid.symm)
    rw [← harea, ← hsame]
    exact harea'
  · intro hgone
    refine ⟨r, hr, ?_⟩
    simp [hid, harea, hgone]

theorem areaIn_mirrors (h : Mirrors m db) (siteId areaId : String) :
    (db.areas.rows.any fun r => r.id = areaId && r.siteId = siteId) = areaIn m siteId areaId := by
  rw [h.areas, List.any_map]
  rfl

theorem deleteWorkCenter_mirrors (hsound : Sound m) (h : Mirrors m db) (id : String) :
    Alike Mirrors (Db.Master.deleteWorkCenter m id) (Db.deleteWorkCenter db id) := by
  have hthere := h.has_workCenter id
  rw [Db.Master.deleteWorkCenter, Db.deleteWorkCenter]
  cases hlookup : db.workCenters.lookup id with
  | none =>
      rw [hlookup] at hthere
      rw [← hthere]
      rfl
  | some r =>
      rw [hlookup] at hthere
      rw [← hthere]
      exact cascade_mirrors hsound h fun w _ => rfl

theorem deleteArea_mirrors (hsound : Sound m) (h : Mirrors m db) (id : String) :
    Alike Mirrors (Db.Master.deleteArea m id) (Db.deleteArea db id) := by
  have hthere := h.has_area id
  rw [Db.Master.deleteArea, Db.deleteArea]
  cases hlookup : db.areas.lookup id with
  | none =>
      rw [hlookup] at hthere
      rw [← hthere]
      rfl
  | some r =>
      rw [hlookup] at hthere
      rw [← hthere, Option.isSome_some, if_pos rfl]
      apply Alike.map (cascade_mirrors hsound h fun w hw =>
        (workCentersIn_mirrors h (fun k => decide (k = id)) hw).symm)
      intro mid mid' _ hmid
      refine { hmid with areas := ?_ }
      change (mid'.areas.rows.filter _) = (mid.areas.rows.filter _).map _
      rw [hmid.areas, List.filter_map]
      rfl

/-- On the columns that both know, a delete here is the delete that the order and ingest models
start from: it fails alike, and it leaves related states. -/
theorem deleteSite_mirrors (hsound : Sound m) (h : Mirrors m db) (id : String) :
    Alike Mirrors (Db.Master.deleteSite m id) (Db.deleteSite db id) := by
  rw [Db.Master.deleteSite, Db.deleteSite]
  by_cases hin : id ∈ db.sites
  · rw [if_pos hin, if_pos (Table.isSome_lookup.mpr ((h.sites id).mp hin))]
    apply Alike.map (cascade_mirrors hsound h ?_)
    · intro mid mid' _ hmid
      refine { hmid with sites := ?_, areas := ?_ }
      · intro k
        change k ∈ mid'.sites.erase id ↔ (mid.sites.delete fun s => s.id = id).Has k
        rw [Finset.mem_erase, hmid.sites]
        constructor
        · rintro ⟨hne, s, hs, rfl⟩
          exact ⟨s, Table.mem_delete.mpr ⟨hs, decide_eq_false hne⟩, rfl⟩
        · rintro ⟨s, hs, rfl⟩
          obtain ⟨hs, hne⟩ := Table.mem_delete.mp hs
          exact ⟨of_decide_eq_false hne, s, hs, rfl⟩
      · change (mid'.areas.rows.filter _) = (mid.areas.rows.filter _).map _
        rw [hmid.areas, List.filter_map]
        rfl
    · intro w hw
      rw [workCentersIn_mirrors h _ hw, areaIn_mirrors h]
  · rw [if_neg hin, if_neg fun hthere => hin ((h.sites id).mpr (Table.isSome_lookup.mp hthere))]
    rfl

end Mirror

/-! ## Deletes along a run -/

/-- A row of the hierarchy, by its id. -/
inductive Node where
  | site (id : String)
  | area (id : String)
  | workCenter (id : String)

namespace Node

def id : Node → String
  | site id => id
  | area id => id
  | workCenter id => id

def delete : Node → MasterWrite
  | site id => .deleteSite id
  | area id => .deleteArea id
  | workCenter id => .deleteWorkCenter id

def Present (m : MasterData) : Node → Prop
  | site id => m.sites.Has id
  | area id => m.areas.Has id
  | workCenter id => m.workCenters.Has id

/-- The sites, the areas and the work centers that stand for the node or below it. -/
def Site : Node → SiteRow → Prop
  | site id, r => r.id = id
  | _, _ => False

def Area : Node → AreaRow → Prop
  | site id, r => r.siteId = id
  | area id, r => r.id = id
  | _, _ => False

def WorkCenter (m : MasterData) : Node → WorkCenterRow → Prop
  | site id, r => InSite m id r
  | area id, r => r.areaId = id
  | workCenter id, r => r.id = id

/-- No operation, planned or ordered, names a work center of the node, no movement of spares an
order of one, and no order of another work center a schedule of one. -/
def Free (m : MasterData) (n : Node) : Prop := Unheld m (n.WorkCenter m)

end Node

section Deleting

variable {cfg : AuthConfig} {m : MasterData} {call : Call} {node : Node}

/-- The statement behind the delete of a node. -/
def Node.remove (m : MasterData) : Node → Except RepoError MasterData
  | .site id => Db.Master.deleteSite m id
  | .area id => Db.Master.deleteArea m id
  | .workCenter id => Db.Master.deleteWorkCenter m id

theorem Node.remove_removed {m' : MasterData} (h : node.remove m = .ok m') :
    Removed m m' node.Site node.Area (node.WorkCenter m) := by
  cases node with
  | site id => exact deleteSite_removed h
  | area id => exact deleteArea_removed h
  | workCenter id => exact deleteWorkCenter_removed h

theorem exists_map_ok {ε α β : Type} {x : Except ε α} {f : α → β} :
    (∃ b, x.map f = .ok b) ↔ ∃ a, x = .ok a := by
  cases x <;> simp [Except.map]

theorem Node.remove_isOk : (∃ m', node.remove m = .ok m') ↔ node.Present m ∧ node.Free m := by
  have hgate : ∀ (there : Bool) (x : Except RepoError MasterData),
      (∃ m', (if there = true then x else .error .notFound) = .ok m') ↔
        there = true ∧ ∃ m', x = .ok m' := by
    intro there x
    cases there <;> simp
  cases node with
  | site id =>
      rw [Node.remove, Db.Master.deleteSite, hgate, Table.isSome_lookup, exists_map_ok,
        dropWorkCenters_isOk]
      simp only [areaIn_iff]
      rfl
  | area id =>
      rw [Node.remove, Db.Master.deleteArea, hgate, Table.isSome_lookup, exists_map_ok,
        dropWorkCenters_isOk]
      simp only [decide_eq_true_eq]
      rfl
  | workCenter id =>
      rw [Node.remove, Db.Master.deleteWorkCenter, hgate, Table.isSome_lookup,
        dropWorkCenters_isOk]
      simp only [decide_eq_true_eq]
      rfl

theorem Node.perform_delete :
    node.delete.perform cfg m call = deleted (node.remove m) node.id := by
  cases node <;> rfl

theorem Removed.audit {m' : MasterData} {site : SiteRow → Prop} {area : AreaRow → Prop}
    {workCenter : WorkCenterRow → Prop} (h : Removed m m' site area workCenter) (call : Call)
    (actorId : Option String) (action entity : String) (entityId : Option String)
    (detail : Option Serde.Json) :
    Removed m (audit m' call actorId action entity entityId detail) site area workCenter := by
  unfold Edge.audit
  split
  · exact h
  · split
    · exact h
    · rename_i hok
      obtain ⟨-, auditLog, -, rfl⟩ := insertAudit_ok hok
      exact { h with }

section Handled

variable {actor : Core.AuthUser}
  (hactor : masterWriter cfg call.now call.authorization = .ok actor)
include hactor

theorem Node.handle_ok {m' : MasterData} (hremove : node.remove m = .ok m') :
    handleWrite cfg m call node.delete =
      (audit m' call (some actor.userId) node.delete.subject.1 node.delete.subject.2 (some node.id)
        none, .ok ⟨204, .noContent, node.id⟩) := by
  simp only [handleWrite, hactor, Node.perform_delete, deleted, hremove, Except.mapError,
    Except.map]

theorem Node.handle_error {e : RepoError} (hremove : node.remove m = .error e) :
    handleWrite cfg m call node.delete = (m, .error (repoErr e)) := by
  simp only [handleWrite, hactor, Node.perform_delete, deleted, hremove, Except.mapError,
    Except.map]

end Handled

variable {s : Server} {run : List Event}

/-- Wherever in a run a writer deletes a site, an area or a work center, the delete goes through
exactly when the row is there and nothing that stays names a work center below it or the
maintenance of one. It then takes what is below and nothing else; otherwise nothing changes.
Before and after, no reference dangles and no code is taken twice. -/
theorem delete_exact (hsound : Sound s.master) {k : ℕ}
    (hk : run[k]? = some (call, .write node.delete)) {actor : Core.AuthUser}
    (hactor : masterWriter cfg call.now call.authorization = .ok actor)
    (hm : (stateAt cfg s run k).master = m) :
    Sound m ∧ Sound (stateAt cfg s run (k + 1)).master ∧
      ((∃ out, (handleWrite cfg m call node.delete).2 = .ok out) ↔
        node.Present m ∧ node.Free m) ∧
      (node.Present m ∧ node.Free m →
        Removed m (stateAt cfg s run (k + 1)).master node.Site node.Area (node.WorkCenter m)) ∧
      (¬ (node.Present m ∧ node.Free m) → (stateAt cfg s run (k + 1)).master = m) := by
  subst hm
  have hnext : (stateAt cfg s run (k + 1)).master =
      (handleWrite cfg (stateAt cfg s run k).master call node.delete).1 := by
    rw [stateAt_succ cfg s hk]
    rfl
  refine ⟨sound_stateAt hsound k, sound_stateAt hsound (k + 1), ?_⟩
  rw [hnext]
  generalize (stateAt cfg s run k).master = m
  rw [← Node.remove_isOk]
  cases hremove : node.remove m with
  | error e =>
      rw [Node.handle_error hactor hremove]
      refine ⟨?_, ?_, fun _ => rfl⟩
      · constructor
        · rintro ⟨out, hout⟩
          cases hout
        · rintro ⟨m', heq⟩
          cases heq
      · rintro ⟨m', heq⟩
        cases heq
  | ok m' =>
      rw [Node.handle_ok hactor hremove]
      refine ⟨⟨fun _ => ⟨m', rfl⟩, fun _ => ⟨_, rfl⟩⟩, ?_, ?_⟩
      · intro _
        exact (Node.remove_removed hremove).audit call _ _ _ _ _
      · intro hno
        exact absurd ⟨m', rfl⟩ hno

end Deleting

section Sample

/-- A caller whose token says that an administrator may write until it expires. -/
def writerConfig : AuthConfig where
  ttlSecs := 60
  encode _ := some "writer"
  decode t := if t = "writer" then some ⟨"u7", "Admin", 0, 60⟩ else none
  hash _ _ := none
  verify _ _ := false

/-- Two sites. The work center of one has a schedule and an order for it, that of the other is
named by an operation and has an order that spares were issued to. -/
def twoSites : MasterData where
  sites := ⟨[⟨"s1", "S1", "One", "UTC", 0, 0⟩, ⟨"s2", "S2", "Two", "UTC", 0, 0⟩], by decide⟩
  areas := ⟨[⟨"a1", "s1", "A1", "Mill", 0, 0⟩, ⟨"a2", "s2", "A1", "Mill", 0, 0⟩], by decide⟩
  workCenters :=
    ⟨[⟨"w1", "a1", "W1", "Lathe", none, 0, 0⟩, ⟨"w2", "a2", "W1", "Lathe", none, 0, 0⟩], by decide⟩
  operationWorkCenters := {"w2"}
  maintenance := ⟨{"w2"}, {("w1", "w1")}⟩

theorem sound_twoSites : Sound twoSites where
  users := by decide
  sites := by decide
  areas := by decide
  workCenters := by decide
  parts := by decide
  roles := by decide
  areaSites := by decide
  workCenterAreas := by decide
  routed := by decide
  operated := by decide
  spared := by decide
  scheduled := by decide
  ordered := by decide
  actors := by decide

def deleting (id : String) : Event :=
  ({ now := 30, authorization := some "Bearer writer", auditId := "e1" }, .write (.deleteSite id))

/-- Of the two sites the first goes with its work center, and the second stays. -/
theorem twoSites_delete_exact :
    Removed twoSites (stateAt writerConfig ⟨twoSites, []⟩ [deleting "s1"] 1).master
        (fun r => r.id = "s1") (fun r => r.siteId = "s1") (InSite twoSites "s1") ∧
      (stateAt writerConfig ⟨twoSites, []⟩ [deleting "s2"] 1).master = twoSites := by
  have hactor : masterWriter writerConfig 30 (some "Bearer writer") = .ok ⟨"u7", "Admin"⟩ := by
    decide
  have hk (id : String) :
      [deleting id][0]? = some ((deleting id).1, .write (Node.site id).delete) := rfl
  obtain ⟨-, -, -, hgone, -⟩ :=
    delete_exact (s := ⟨twoSites, []⟩) sound_twoSites (hk "s1") hactor rfl
  obtain ⟨-, -, -, -, hkept⟩ :=
    delete_exact (s := ⟨twoSites, []⟩) sound_twoSites (hk "s2") hactor rfl
  have hthere : twoSites.sites.Has "s1" := by decide
  refine ⟨hgone ⟨hthere, ?_⟩, hkept ?_⟩
  · have hfar : ∀ r ∈ twoSites.workCenters, ∀ a ∈ twoSites.areas, a.id = r.areaId →
        a.siteId = "s1" → r.id ∉ twoSites.routedWorkCenters ∧
          r.id ∉ twoSites.operationWorkCenters ∧ r.id ∉ twoSites.maintenance.spared := by decide
    refine ⟨?_, ?_⟩
    · rintro r hr ⟨a, ha, harea, hsite⟩
      exact hfar r hr a ha harea hsite
    · intro p hp hgone
      obtain rfl := Finset.mem_singleton.mp hp
      exact hgone
  · rintro ⟨-, hfree⟩
    have hnamed := hfree.named ⟨"w2", "a2", "W1", "Lathe", none, 0, 0⟩ (by decide)
      ⟨⟨"a2", "s2", "A1", "Mill", 0, 0⟩, by decide, rfl, rfl⟩
    exact hnamed.2.1 (by decide)

end Sample

end ElectronixMes.Access
