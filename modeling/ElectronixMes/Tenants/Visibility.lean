import ElectronixMes.Tenants.Enrollment

/-!
# Where the orders come from that an agent is shown

An order on the cloud belongs to the plant that wrote it last: one that pushed it with its own
token, or one that an administrator ordered it for. Nobody makes up a token. So whatever either
front door shows under a token was pushed by a plant of the same org, with that plant's token, or
ordered for such a plant.
-/

namespace ElectronixMes.Tenants

open Relational Db Cloud Serde AgentTools

variable {cfg : Config} {h : Hub} {run : List Event}

/-- A push carries the order with the columns that the tools show. -/
def Pushes (cfg : Config) (w : WorkOrderRow) (token plantId : String) : Event → Prop
  | .push _ authorization req =>
      bearer authorization = some token ∧ req.plantId = plantId ∧
        ∃ entry ∈ req.entries, ∃ wo, entryOrder cfg.codec entry = some wo ∧ wo.id = w.id ∧
          wo.woNumber = w.woNumber ∧ wo.status = w.status ∧ wo.qtyOrdered = w.qtyOrdered
  | _ => False

/-- An administrator orders it for the plant. -/
def Orders (cfg : Config) (w : WorkOrderRow) (plantId : String) : Event → Prop
  | .order authorization _ woId _ plantId' input =>
      requireAdmin cfg.adminToken authorization = .ok () ∧ plantId' = plantId ∧ woId = w.id ∧
        input.woNumber = w.woNumber ∧ input.qtyOrdered = w.qtyOrdered ∧ w.status = "draft"
  | _ => False

/-- The request supplies the order for the plant: it orders it, or it pushes it and passes for
the plant. -/
def Supplies (cfg : Config) (h : Hub) (w : WorkOrderRow) (plantId : String) (a : Event) : Prop :=
  Orders cfg w plantId a ∨
    ∃ token, Pushes cfg w token plantId a ∧
      verifyPlantToken cfg.hashToken h.db plantId token = true

/-- Whoever passes for a plant shows a token that an enrollment has answered. -/
def Unforged (cfg : Config) (h : Hub) : Event → Prop
  | .push _ authorization _ =>
      ∀ token plantId, bearer authorization = some token →
        verifyPlantToken cfg.hashToken h.db plantId token = true →
          ∃ e ∈ h.issued, e.token = token
  | _ => True

theorem requirePlant_ok {hashToken : String → String} {db : Database}
    {authorization : Option String} {plantId : String}
    (hok : requirePlant hashToken db authorization plantId = .ok ()) :
    ∃ token, bearer authorization = some token ∧
      verifyPlantToken hashToken db plantId token = true := by
  unfold requirePlant at hok
  split at hok
  · cases hok
  · rename_i token htoken
    split at hok
    · exact ⟨token, htoken, by assumption⟩
    · cases hok

/-- An applied entry keeps the orders, but for the one it writes for the plant. -/
theorem applyEntry_orders {c : Codec} {db db' : Database} {now : Int} {entry : SyncEntry}
    {plantId : String} {b : Bool}
    (happ : applyEntry c db now entry (some plantId) = .ok (db', b)) {w : WorkOrderRow}
    (hw : w ∈ db'.workOrders) :
    w ∈ db.workOrders ∨ w.plantId = some plantId ∧
      ∃ wo, entryOrder c entry = some wo ∧ wo.id = w.id ∧ wo.woNumber = w.woNumber ∧
        wo.status = w.status ∧ wo.qtyOrdered = w.qtyOrdered := by
  cases b with
  | false =>
      rw [applyEntry_false happ] at hw
      exact Or.inl hw
  | true =>
      obtain ⟨-, row, hwrite, rfl⟩ := applyEntry_true happ
      cases row with
      | none => exact Or.inl hw
      | some r =>
          rw [commitEntry_some_workOrders] at hw
          apply (Table.mem_put.mp hw).symm.imp And.left
          rintro rfl
          obtain ⟨wo, hwo, hupsert⟩ := entryWrite_ok_some hwrite
          have hrow := upsertRow_ok hupsert
          refine ⟨?_, wo, hwo, hrow.id.symm, hrow.woNumber.symm, hrow.status.symm,
            hrow.qtyOrdered.symm⟩
          apply hrow.kept.elim
          · rintro ⟨old, -, -, -, -, -, hplant⟩
            exact hplant
          · rintro ⟨-, -, -, -, hplant⟩
            exact hplant

theorem push_orders {now : ℕ → Int} {authorization : Option String} {req : PushRequest}
    {w : WorkOrderRow}
    (hw : w ∈ (Cloud.push cfg.hashToken cfg.codec h.db now authorization req).1.workOrders) :
    w ∈ h.db.workOrders ∨
      w.plantId = some req.plantId ∧
        Supplies cfg h w req.plantId (.push now authorization req) := by
  cases hauth : requirePlant cfg.hashToken h.db authorization req.plantId with
  | error e =>
      rw [Cloud.push, hauth] at hw
      exact Or.inl hw
  | ok _ =>
      obtain ⟨token, htoken, hverify⟩ := requirePlant_ok hauth
      revert w
      apply push_induction (P := fun d => ∀ w ∈ d.workOrders, w ∈ h.db.workOrders ∨
        w.plantId = some req.plantId ∧
          Supplies cfg h w req.plantId (.push now authorization req))
      · intro d d' i entry b hentry hd happ w hw
        apply (applyEntry_orders happ hw).elim
        · exact hd w
        · rintro ⟨hplant, wo, hwo⟩
          exact Or.inr ⟨hplant, Or.inr ⟨token, ⟨htoken, rfl, entry, hentry, wo, hwo⟩, hverify⟩⟩
      · intro d t hd
        exact hd
      · exact fun w hw => Or.inl hw

/-- An order with a plant that was not there before was supplied for that plant. -/
theorem orders_step {a : Event} {w : WorkOrderRow} (hw : w ∈ (step cfg h a).db.workOrders)
    {plantId : String} (hplant : w.plantId = some plantId) :
    w ∈ h.db.workOrders ∨ Supplies cfg h w plantId a := by
  cases a with
  | createOrg authorization now id input =>
      left
      rw [← (createOrg_frame h.db authorization now id input).2]
      exact hw
  | enrollPlant authorization id ulid orgId input =>
      left
      apply (enrollPlant_cases cfg h.db authorization id ulid orgId input).elim
      · rintro ⟨e, heq⟩
        rw [step, heq] at hw
        exact hw
      · rintro ⟨plants, -, heq⟩
        rw [step, heq] at hw
        exact hw
  | ack now authorization req =>
      left
      rw [← (ack_frame now authorization req).2]
      exact hw
  | push now authorization req =>
      apply (push_orders hw).imp_right
      rintro ⟨hown, hsupplies⟩
      rw [hown] at hplant
      cases hplant
      exact hsupplies
  | order authorization now woId entryId plantId' input =>
      apply (remoteWorkOrder_orders cfg.codec h.db cfg.adminToken authorization now woId entryId
        plantId' input).elim
      · intro heq
        rw [step, heq] at hw
        exact Or.inl hw
      · rintro ⟨hadmin, -, horders⟩
        apply (horders w hw).imp_right
        rintro rfl
        cases hplant
        exact Or.inl ⟨hadmin, rfl, rfl, rfl, rfl, rfl⟩

/-- By induction along the run: an order with a plant was supplied by some earlier request. -/
theorem orders_supplied (horders : ∀ w ∈ h.db.workOrders, w.plantId = none) (k : ℕ)
    {w : WorkOrderRow} (hw : w ∈ (stateAt cfg h run k).db.workOrders) {plantId : String}
    (hplant : w.plantId = some plantId) :
    ∃ j < k, ∃ a, run[j]? = some a ∧ Supplies cfg (stateAt cfg h run j) w plantId a := by
  induction k with
  | zero =>
      rw [stateAt, List.take_zero, List.foldl_nil] at hw
      rw [horders w hw] at hplant
      cases hplant
  | succ k ih =>
      have hweaken : (∃ j < k, ∃ a, run[j]? = some a ∧
          Supplies cfg (stateAt cfg h run j) w plantId a) →
          ∃ j < k + 1, ∃ a, run[j]? = some a ∧
            Supplies cfg (stateAt cfg h run j) w plantId a := by
        rintro ⟨j, hj, hrest⟩
        exact ⟨j, Nat.lt_succ_of_lt hj, hrest⟩
      apply (Transition.foldl_take_succ (step cfg) h run k).elim
      · intro hsame
        rw [stateAt, hsame] at hw
        exact hweaken (ih hw)
      · rintro ⟨a, ha, heq⟩
        rw [stateAt, heq] at hw
        apply (orders_step hw hplant).elim
        · exact fun hw => hweaken (ih hw)
        · exact fun hsupplies => ⟨k, Nat.lt_succ_self k, a, ha, hsupplies⟩

/-- The rows of an answer are orders of the org that passed the filter. -/
theorem mem_woStatusRows {db : Database} {orgId : String} {statusFilter : Option String}
    {rows : List WorkOrderRow} (hrows : woStatusRows db orgId statusFilter = .ok rows)
    {w : WorkOrderRow} (hw : w ∈ rows) :
    w ∈ db.workOrders ∧ ofOrg db orgId w = true := by
  unfold woStatusRows at hrows
  split at hrows
  · cases hrows
  · cases hrows
    have hmatching := (List.mem_insertionSort _).mp (List.mem_of_mem_take hw)
    obtain ⟨hmem, horg, -⟩ := mem_matchingOrders.mp hmatching
    exact ⟨hmem, horg⟩

/-- Every order that an agent is shown under a token stands for a plant of the token's org. It
was pushed for this plant with the token that the plant's enrollment answered, or ordered by an
administrator for this plant, with just the number, the status and the quantity shown. -/
theorem shown_orders_supplied (hplants : h.db.plants.rows = []) (hissued : h.issued = [])
    (horders : ∀ w ∈ h.db.workOrders, w.plantId = none)
    (hfresh : Transition.Along (step cfg) (Fresh cfg) h run)
    (hunforged : Transition.Along (step cfg) (Unforged cfg) h run) {k : ℕ}
    {authorization : Option String} {scope : TenantScope}
    (hscope : resolveScope cfg.hashToken (stateAt cfg h run k).db authorization = .ok scope)
    {statusFilter : Option String} {rows : List WorkOrderRow}
    (hrows : woStatusRows (stateAt cfg h run k).db scope.orgId statusFilter = .ok rows)
    {w : WorkOrderRow} (hw : w ∈ rows) :
    ∃ viewer ∈ (stateAt cfg h run k).issued, ∃ e ∈ (stateAt cfg h run k).issued,
      viewer.orgId = scope.orgId ∧ e.orgId = scope.orgId ∧ w.plantId = some e.id ∧
      ∃ j < k, ∃ a, run[j]? = some a ∧ (Pushes cfg w e.token e.id a ∨ Orders cfg w e.id a) := by
  have hvouched := vouched_stateAt hplants hissued hfresh k
  have hviewer : ∃ viewer ∈ (stateAt cfg h run k).issued, viewer.orgId = scope.orgId := by
    unfold resolveScope at hscope
    split at hscope
    · cases hscope
    · rw [hvouched.resolve_eq] at hscope
      cases hfind : (stateAt cfg h run k).issued.find? _ with
      | none =>
          rw [hfind] at hscope
          cases hscope
      | some viewer =>
          rw [hfind] at hscope
          cases hscope
          exact ⟨viewer, List.mem_of_find?_eq_some hfind, rfl⟩
  obtain ⟨hmem, horg⟩ := mem_woStatusRows hrows hw
  obtain ⟨p, hp, hplant, hporg⟩ := ofOrg_iff.mp horg
  -- the plant of the row is one that was enrolled
  have hcred : (p.id, p.orgId, p.enrollmentTokenHash) ∈
      credentials (stateAt cfg h run k).db := List.mem_map_of_mem hp
  rw [hvouched.plants] at hcred
  obtain ⟨e, he, heq⟩ := List.mem_map.mp hcred
  obtain ⟨hid, hrest⟩ := Prod.mk.inj heq
  have hexact : e.orgId = scope.orgId := (Prod.mk.inj hrest).1.trans hporg
  obtain ⟨viewer, hviewerIssued, hviewerOrg⟩ := hviewer
  refine ⟨viewer, hviewerIssued, e, he, hviewerOrg, hexact, by rw [hplant, hid], ?_⟩
  obtain ⟨j, hj, a, ha, hsupplies⟩ := orders_supplied horders k hmem hplant
  refine ⟨j, hj, a, ha, ?_⟩
  rw [hid]
  apply hsupplies.elim Or.inr
  rintro ⟨token, hpushes, hverify⟩
  left
  -- the token that passed was issued, and it passes for its own plant only
  cases a with
  | push now authorization req =>
      obtain ⟨e', he', rfl⟩ := hunforged.getElem? ha token p.id hpushes.1 hverify
      have hown := ((vouched_stateAt hplants hissued hfresh j).verify he' p.id).mp hverify
      obtain rfl := hvouched.eq_of_id (issued_last hj.le he') he (hown.symm.trans hid.symm)
      exact hpushes
  | createOrg => exact hpushes.elim
  | enrollPlant => exact hpushes.elim
  | order => exact hpushes.elim
  | ack => exact hpushes.elim

section Sample

/-- A cloud with one part and nothing else. -/
def partCloud : Hub := ⟨{ parts := {"part"} }, []⟩

/-- Two plants are enrolled and the first one pushes an order. -/
def pushOne : List Event :=
  enrollTwo ++ [.push (fun _ => 2) (some "Bearer plant_AAA")
    ⟨"p1", [sampleEntry "e1" "w1" "WO-1"]⟩]

def pushedRow : WorkOrderRow :=
  ⟨"w1", "WO-1", "part", none, ⟨10, 0⟩, 100, "draft", none, none, some "p1", 2, 2⟩

/-- The other plant of the org is shown the order, and the push that it came with stands in
the run. -/
theorem pushOne_shown_supplied :
    ∃ j < 4, ∃ a, pushOne[j]? = some a ∧
      ((∃ token, Pushes plainCloud pushedRow token "p1" a) ∨
        Orders plainCloud pushedRow "p1" a) := by
  have hunforged : Transition.Along (step plainCloud) (Unforged plainCloud) partCloud pushOne := by
    refine ⟨trivial, trivial, trivial, ?_, trivial⟩
    intro token plantId htoken _
    refine ⟨⟨"p1", "org", "P1", "Plant 1", "plant_AAA"⟩, by decide, ?_⟩
    exact Option.some.inj (htoken.symm.trans (by decide : _ = some "plant_AAA")) ▸ rfl
  have hrows : woStatusRows (stateAt plainCloud partCloud pushOne 4).db "org" none =
      .ok [pushedRow] := by
    have htext : ¬ ∃ text ∈ "org" :: (none : Option String).toList, text.contains '\x00' := by
      simp [String.contains_char_eq]
    rw [woStatusRows, if_neg htext]
    decide
  obtain ⟨viewer, -, e, -, -, -, hplant, j, hj, a, ha, hsupplies⟩ :=
    @shown_orders_supplied plainCloud partCloud pushOne rfl rfl
      (fun w hw => absurd hw List.not_mem_nil) (by decide) hunforged 4 (some "Bearer plant_BBB")
      ⟨"org"⟩ rfl none [pushedRow] hrows pushedRow List.mem_cons_self
  have hid : "p1" = e.id := Option.some.inj hplant
  rw [hid]
  exact ⟨j, hj, a, ha, hsupplies.imp (fun hpushes => ⟨e.token, hpushes⟩) id⟩

end Sample

end ElectronixMes.Tenants
