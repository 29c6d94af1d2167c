import ElectronixMes.Edge.Master

/-!
# Integrity of the master data

Every area hangs below a site and every work center below an area, the codes are unique under
their parent, names and badges tell users apart, every user has a role, every audit entry that
names an actor names a user, and what operations and orders name is there. Each write keeps
this.
-/

namespace ElectronixMes.Access

open Relational Db.Master Edge Edge.Master
open Db (ApiErr RepoError repoErr)

/-- What the constraints of the schema say of a committed state. -/
structure Sound (m : MasterData) : Prop where
  users : m.users.Separate UserRow.constraints
  sites : m.sites.Separate SiteRow.constraints
  areas : m.areas.Separate AreaRow.constraints
  workCenters : m.workCenters.Separate WorkCenterRow.constraints
  parts : m.parts.Separate PartRow.constraints
  roles : ∀ u ∈ m.users, u.roleCode ∈ m.roles
  areaSites : ∀ a ∈ m.areas, m.sites.Has a.siteId
  workCenterAreas : ∀ w ∈ m.workCenters, m.areas.Has w.areaId
  routed : ∀ id ∈ m.routedWorkCenters, m.workCenters.Has id
  operated : ∀ id ∈ m.operationWorkCenters, m.workCenters.Has id
  spared : ∀ id ∈ m.maintenance.spared, m.workCenters.Has id
  scheduled : ∀ p ∈ m.maintenance.scheduled, m.workCenters.Has p.1 ∧ m.workCenters.Has p.2
  ordered : ∀ id ∈ m.orderedParts, m.parts.Has id
  actors : ∀ a ∈ m.auditLog, ∀ id ∈ a.actorId, m.users.Has id

variable {m m' : MasterData} {now : Int} {id : String}

namespace Sound

/-! ## Sites -/

theorem createSite (h : Sound m) {code name timezone : String} {row : SiteRow}
    (hok : createSite m now id code name timezone = .ok (m', row)) : Sound m' := by
  obtain ⟨sites, hins, heq⟩ := map_eq_ok.mp hok
  cases heq
  exact { h with
    sites := insertRow_separate hins h.sites
    areaSites := fun a ha => (h.areaSites a ha).insert? (insertRow_ok hins).1 }

theorem updateSite (h : Sound m) {code name timezone : String} {row : SiteRow}
    (hok : updateSite m now id code name timezone = .ok (m', row)) : Sound m' := by
  obtain ⟨⟨sites, row'⟩, hupd, heq⟩ := map_eq_ok.mp hok
  cases heq
  obtain ⟨r, -, -, -, hput, -⟩ := updateRow_ok hupd
  exact { h with
    sites := updateRow_separate hupd h.sites
    areaSites := fun a ha => by
      dsimp only
      rw [hput]
      exact (h.areaSites a ha).put row }

/-! ## Areas -/

theorem createArea (h : Sound m) {siteId code name : String} {row : AreaRow}
    (hok : createArea m now id siteId code name = .ok (m', row)) : Sound m' := by
  obtain ⟨hrow, hsite, areas, hins, rfl⟩ := createArea_ok hok
  exact { h with
    areas := insertRow_separate hins h.areas
    areaSites := by
      intro a ha
      rcases (Table.mem_insert? (insertRow_ok hins).1).mp ha with ha | rfl
      · exact h.areaSites a ha
      · rw [hrow]
        exact hsite
    workCenterAreas := fun w hw => (h.workCenterAreas w hw).insert? (insertRow_ok hins).1 }

theorem updateArea (h : Sound m) {code name : String} {row : AreaRow}
    (hok : updateArea m now id code name = .ok (m', row)) : Sound m' := by
  obtain ⟨⟨areas, row'⟩, hupd, heq⟩ := map_eq_ok.mp hok
  cases heq
  obtain ⟨r, hr, -, hset, hput, -⟩ := updateRow_ok hupd
  exact { h with
    areas := updateRow_separate hupd h.areas
    areaSites := by
      intro a ha
      rw [hput] at ha
      rcases Table.mem_put.mp ha with rfl | ⟨ha, -⟩
      · rw [hset]
        exact h.areaSites r hr
      · exact h.areaSites a ha
    workCenterAreas := fun w hw => by
      dsimp only
      rw [hput]
      exact (h.workCenterAreas w hw).put row }

/-! ## Work centers -/

theorem createWorkCenter (h : Sound m) {areaId code name : String}
    {externalRef : Option String} {row : WorkCenterRow}
    (hok : createWorkCenter m now id areaId code name externalRef = .ok (m', row)) :
    Sound m' := by
  obtain ⟨hrow, harea, workCenters, hins, rfl⟩ := createWorkCenter_ok hok
  have hkeep : ∀ k, m.workCenters.Has k → workCenters.Has k :=
    fun k hk => hk.insert? (insertRow_ok hins).1
  exact { h with
    workCenters := insertRow_separate hins h.workCenters
    workCenterAreas := by
      intro w hw
      rcases (Table.mem_insert? (insertRow_ok hins).1).mp hw with hw | rfl
      · exact h.workCenterAreas w hw
      · rw [hrow]
        exact harea
    routed := fun k hk => hkeep k (h.routed k hk)
    operated := fun k hk => hkeep k (h.operated k hk)
    spared := fun k hk => hkeep k (h.spared k hk)
    scheduled := fun p hp => (h.scheduled p hp).imp (hkeep p.1) (hkeep p.2) }

theorem updateWorkCenter (h : Sound m) {code name : String} {externalRef : Option String}
    {row : WorkCenterRow}
    (hok : updateWorkCenter m now id code name externalRef = .ok (m', row)) : Sound m' := by
  obtain ⟨⟨workCenters, row'⟩, hupd, heq⟩ := map_eq_ok.mp hok
  cases heq
  obtain ⟨r, hr, -, hset, hput, -⟩ := updateRow_ok hupd
  have hkeep : ∀ k, m.workCenters.Has k → workCenters.Has k := by
    intro k hk
    rw [hput]
    exact hk.put row
  exact { h with
    workCenters := updateRow_separate hupd h.workCenters
    workCenterAreas := by
      intro w hw
      rw [hput] at hw
      rcases Table.mem_put.mp hw with rfl | ⟨hw, -⟩
      · rw [hset]
        exact h.workCenterAreas r hr
      · exact h.workCenterAreas w hw
    routed := fun k hk => hkeep k (h.routed k hk)
    operated := fun k hk => hkeep k (h.operated k hk)
    spared := fun k hk => hkeep k (h.spared k hk)
    scheduled := fun p hp => (h.scheduled p hp).imp (hkeep p.1) (hkeep p.2) }

/-- A delete of work centers keeps those that are named. -/
theorem dropWorkCenters (h : Sound m) {gone : WorkCenterRow → Bool}
    (hok : dropWorkCenters m gone = .ok m') : Sound m' := by
  obtain ⟨rfl, hfree⟩ := dropWorkCenters_ok hok
  exact { h with
    workCenters := h.workCenters.delete gone
    workCenterAreas := fun w hw => h.workCenterAreas w (Table.mem_delete.mp hw).1
    routed := by
      intro k hk
      apply (h.routed k hk).delete
      rintro w hw rfl
      rw [← Bool.not_eq_true]
      exact fun hgone => (hfree.named w hw hgone).1 hk
    operated := by
      intro k hk
      apply (h.operated k hk).delete
      rintro w hw rfl
      rw [← Bool.not_eq_true]
      exact fun hgone => (hfree.named w hw hgone).2.1 hk
    spared := by
      intro k hk
      apply (h.spared k hk).delete
      rintro w hw rfl
      rw [← Bool.not_eq_true]
      exact fun hgone => (hfree.named w hw hgone).2.2 hk
    scheduled := by
      intro p hp
      obtain ⟨hp, hstays⟩ := Finset.mem_filter.mp hp
      have hnot : ∀ w ∈ m.workCenters, w.id = p.2 → gone w = false := by
        intro w hw hid
        rw [← Bool.not_eq_true]
        intro hgone
        rw [goes_iff.mpr ⟨w, hw, hid, hgone⟩] at hstays
        cases hstays
      constructor
      · apply (h.scheduled p hp).1.delete
        intro w hw hid
        rw [← Bool.not_eq_true]
        intro hgone
        -- the order that names the schedule would go as well
        obtain ⟨w', hw', hid', hgone'⟩ := hfree.scheduled p hp ⟨w, hw, hid, hgone⟩
        rw [hnot w' hw' hid'] at hgone'
        cases hgone'
      · exact (h.scheduled p hp).2.delete hnot }

theorem deleteWorkCenter (h : Sound m) (hok : deleteWorkCenter m id = .ok m') : Sound m' :=
  h.dropWorkCenters (deleteWorkCenter_ok hok)

theorem deleteArea (h : Sound m) (hok : deleteArea m id = .ok m') : Sound m' := by
  obtain ⟨mid, hdrop, rfl⟩ := deleteArea_ok hok
  have hmid := h.dropWorkCenters hdrop
  obtain ⟨rfl, -⟩ := dropWorkCenters_ok hdrop
  exact { hmid with
    areas := hmid.areas.delete _
    areaSites := fun a ha => hmid.areaSites a (Table.mem_delete.mp ha).1
    workCenterAreas := by
      intro w hw
      apply (hmid.workCenterAreas w hw).delete
      rintro a - hkey
      -- a work center of the area that goes is no longer there
      have hstays : decide (w.areaId = id) = false := (Table.mem_delete.mp hw).2
      have hne : a.id ≠ id := by
        rw [← key_area, hkey]
        exact of_decide_eq_false hstays
      exact decide_eq_false hne }

theorem deleteSite (h : Sound m) (hok : deleteSite m id = .ok m') : Sound m' := by
  obtain ⟨mid, hdrop, rfl⟩ := deleteSite_ok hok
  have hmid := h.dropWorkCenters hdrop
  obtain ⟨rfl, -⟩ := dropWorkCenters_ok hdrop
  exact { hmid with
    areas := hmid.areas.delete _
    sites := hmid.sites.delete _
    areaSites := by
      intro a ha
      obtain ⟨ha, hstays⟩ := Table.mem_delete.mp ha
      apply (hmid.areaSites a ha).delete
      rintro s - hkey
      have hne : s.id ≠ id := by
        rw [← key_site, hkey]
        exact of_decide_eq_false hstays
      exact decide_eq_false hne
    workCenterAreas := by
      intro w hw
      obtain ⟨hw, hstays⟩ := Table.mem_delete.mp hw
      apply (h.workCenterAreas w hw).delete
      intro a ha hkey
      apply decide_eq_false
      intro hsite
      have hin : areaIn m id w.areaId = true := areaIn_iff.mpr ⟨a, ha, hkey, hsite⟩
      rw [hin] at hstays
      cases hstays }

/-! ## Parts and users -/

theorem createPart (h : Sound m) {code name uom : String} {row : PartRow}
    (hok : createPart m now id code name uom = .ok (m', row)) : Sound m' := by
  obtain ⟨parts, hins, heq⟩ := map_eq_ok.mp hok
  cases heq
  exact { h with
    parts := insertRow_separate hins h.parts
    ordered := fun k hk => (h.ordered k hk).insert? (insertRow_ok hins).1 }

theorem updatePart (h : Sound m) {code name uom : String} {row : PartRow}
    (hok : updatePart m now id code name uom = .ok (m', row)) : Sound m' := by
  obtain ⟨⟨parts, row'⟩, hupd, heq⟩ := map_eq_ok.mp hok
  cases heq
  obtain ⟨r, -, -, -, hput, -⟩ := updateRow_ok hupd
  exact { h with
    parts := updateRow_separate hupd h.parts
    ordered := fun k hk => by
      dsimp only
      rw [hput]
      exact (h.ordered k hk).put row }

theorem deletePart (h : Sound m) (hok : deletePart m id = .ok m') : Sound m' := by
  obtain ⟨hfree, rfl⟩ := deletePart_ok hok
  exact { h with
    parts := h.parts.delete _
    ordered := by
      intro k hk
      apply (h.ordered k hk).delete
      rintro r - rfl
      apply decide_eq_false
      intro hid
      exact hfree (hid ▸ hk) }

theorem createUser (h : Sound m) {username displayName roleCode : String}
    {passwordHash pinHash badgeId : Option String} {row : UserRow}
    (hok : createUser m now id username displayName roleCode passwordHash pinHash badgeId =
      .ok (m', row)) : Sound m' := by
  obtain ⟨hrow, hrole, users, hins, rfl⟩ := createUser_ok hok
  exact { h with
    users := insertRow_separate hins h.users
    roles := by
      intro u hu
      rcases (Table.mem_insert? (insertRow_ok hins).1).mp hu with hu | rfl
      · exact h.roles u hu
      · rw [hrow]
        exact hrole
    actors := fun a ha k hk => (h.actors a ha k hk).insert? (insertRow_ok hins).1 }

theorem insertAudit (h : Sound m) {actorId entityId : Option String} {action entity : String}
    {detail : Option Serde.Json}
    (hok : insertAudit m now id actorId action entity entityId detail = .ok m') : Sound m' := by
  obtain ⟨hactor, auditLog, hins, rfl⟩ := insertAudit_ok hok
  exact { h with
    actors := by
      intro a ha k hk
      rcases (Table.mem_insert? hins).mp ha with ha | rfl
      · exact h.actors a ha k hk
      · exact hactor k hk }

theorem audit (h : Sound m) (call : Call) (actorId : Option String) (action entity : String)
    (entityId : Option String) (detail : Option Serde.Json) :
    Sound (audit m call actorId action entity entityId detail) := by
  unfold Edge.audit
  split
  · exact h
  · split
    · exact h
    · rename_i hok
      exact h.insertAudit hok

end Sound

end ElectronixMes.Access
