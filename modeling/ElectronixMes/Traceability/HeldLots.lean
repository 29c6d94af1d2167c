import ElectronixMes.Db.RepoTrace

/-!
# Units of a held lot

An issue asks for the holds on the lot and the serial that it names. The lot that the serial
belongs to is not asked for, so a unit of a held lot is issued by its serial whenever the
row itself can be inserted.
-/

namespace ElectronixMes.Db

open Relational Serde

/-- The lot that a serial belongs to. -/
def lotOf (db : Database) (serialId : Option String) : Option String :=
  (serialId.bind fun s => db.serials.lookup s).bind SerialRow.lotId

/-- The row of an issue can be inserted: its id is free and what it references exists. -/
structure Insertable (db : Database) (id : String) (lotId serialId woOperationId : Option String)
    (userId : String) : Prop where
  fresh : ∀ r ∈ db.materialTxns, r.id ≠ id
  lot : ∀ l ∈ lotId, (db.lots.lookup l).isSome
  serial : ∀ s ∈ serialId, (db.serials.lookup s).isSome
  operation : ∀ o ∈ woOperationId, (db.woOperations.lookup o).isSome
  user : userId ∈ db.users

/-- Whatever is issued is under no hold: neither the lot and the serial that are named nor
the lot of the serial. -/
def IssuesUnheld (db : Database) (now : Int) (id : String) (lotId serialId : Option String)
    (qty : Decimal) (woOperationId : Option String) (userId : String) : Prop :=
  ∀ res, issueMaterial db now id lotId serialId qty woOperationId userId = .ok res →
    ∀ m ∈ Material.named lotId serialId ++ ((lotOf db serialId).map Material.lot).toList,
      isHeld db m = false

section Issue

variable {db : Database} {now : Int} {id userId : String} {qty : Decimal}
  {lotId serialId woOperationId : Option String}

/-- A row that can be inserted is. -/
theorem insertIssue_of_insertable (now : Int) (qty : Decimal)
    (h : Insertable db id lotId serialId woOperationId userId) :
    ∃ db', insertIssue db now id lotId serialId qty woOperationId userId = .ok db' := by
  let row : MaterialTxnRow := ⟨id, lotId, serialId, "issue", qty, woOperationId, now, some userId⟩
  obtain ⟨txns, hins⟩ : ∃ txns, db.materialTxns.insert? row = some txns :=
    Table.exists_insert? h.fresh
  unfold insertIssue
  dsimp only
  rw [hins]
  dsimp only
  rw [optionalRef_isOk.mpr h.lot, optionalRef_isOk.mpr h.serial,
    optionalRef_isOk.mpr h.operation, optionalRef_some (decide_eq_true h.user)]
  exact ⟨_, rfl⟩

/-- What was inserted could be. -/
theorem insertable_of_ok {db' : Database}
    (h : insertIssue db now id lotId serialId qty woOperationId userId = .ok db') :
    Insertable db id lotId serialId woOperationId userId := by
  unfold insertIssue at h
  dsimp only at h
  cases hins : db.materialTxns.insert?
      ⟨id, lotId, serialId, "issue", qty, woOperationId, now, some userId⟩ with
  | none =>
      rw [hins] at h
      cases h
  | some txns =>
      rw [hins] at h
      obtain ⟨_, hlot, h⟩ := bind_eq_ok.mp h
      obtain ⟨_, hserial, h⟩ := bind_eq_ok.mp h
      obtain ⟨_, hoperation, h⟩ := bind_eq_ok.mp h
      obtain ⟨_, huser, -⟩ := bind_eq_ok.mp h
      refine ⟨fun r hr => Table.key_ne_of_insert? hins r hr, optionalRef_isOk.mp hlot,
        optionalRef_isOk.mp hserial, optionalRef_isOk.mp hoperation, ?_⟩
      exact of_decide_eq_true (optionalRef_isOk.mp huser userId rfl)

/-- An issue succeeds exactly when nothing that it names is held and its row can be
inserted. -/
theorem issueMaterial_isOk :
    (∃ res, issueMaterial db now id lotId serialId qty woOperationId userId = .ok res) ↔
      (∀ m ∈ Material.named lotId serialId, isHeld db m = false) ∧
        Insertable db id lotId serialId woOperationId userId := by
  constructor
  · rintro ⟨res, hok⟩
    constructor
    · intro m hm
      rw [Bool.eq_false_iff]
      intro hheld
      obtain ⟨message, herr⟩ := issueMaterial_of_held hm hheld now id qty woOperationId userId
      rw [herr] at hok
      cases hok
    · unfold issueMaterial at hok
      repeat' split at hok
      all_goals cases hok
      rename_i hins
      exact insertable_of_ok hins
  · rintro ⟨hfree, hrow⟩
    obtain ⟨db', hins⟩ := insertIssue_of_insertable now qty hrow
    have hlot : ¬ (lotId.any fun l => isHeld db (.lot l)) = true := by
      rw [Option.any_eq_true]
      rintro ⟨l, hl, hheld⟩
      rw [hfree (.lot l) (by simp [Material.named, hl])] at hheld
      cases hheld
    have hserial : ¬ (serialId.any fun s => isHeld db (.serial s)) = true := by
      rw [Option.any_eq_true]
      rintro ⟨s, hs, hheld⟩
      rw [hfree (.serial s) (by simp [Material.named, hs])] at hheld
      cases hheld
    unfold issueMaterial
    rw [if_neg hlot, if_neg hserial, hins]
    exact ⟨_, rfl⟩

/-- An issue never takes held material exactly when the lot of its serial is free, or the call
is refused all the same: for a hold on what it names, or for its row. -/
theorem issueMaterial_unheld_iff (db : Database) (now : Int) (id : String)
    (lotId serialId : Option String) (qty : Decimal) (woOperationId : Option String)
    (userId : String) :
    IssuesUnheld db now id lotId serialId qty woOperationId userId ↔
      (∀ l ∈ lotOf db serialId, isHeld db (.lot l) = false) ∨
        (∃ m ∈ Material.named lotId serialId, isHeld db m = true) ∨
          ¬ Insertable db id lotId serialId woOperationId userId := by
  constructor
  · intro h
    by_cases hok : ∃ res, issueMaterial db now id lotId serialId qty woOperationId userId =
        .ok res
    · obtain ⟨res, hres⟩ := hok
      refine Or.inl fun l hl => h res hres (.lot l) ?_
      refine List.mem_append_right _ (Option.mem_toList.mpr ?_)
      exact Option.map_eq_some_iff.mpr ⟨l, hl, rfl⟩
    · rw [issueMaterial_isOk, not_and_or] at hok
      refine Or.inr (hok.imp_left fun hheld => ?_)
      push Not at hheld
      obtain ⟨m, hm, hne⟩ := hheld
      exact ⟨m, hm, Bool.not_eq_false _ ▸ hne⟩
  · intro h res hres m hm
    obtain ⟨hfree, hrow⟩ := issueMaterial_isOk.mp ⟨res, hres⟩
    rcases List.mem_append.mp hm with hnamed | hlot
    · exact hfree m hnamed
    · obtain ⟨l, hl, rfl⟩ := Option.map_eq_some_iff.mp (Option.mem_toList.mp hlot)
      rcases h with hunheld | ⟨m, hm, hheld⟩ | hnot
      · exact hunheld l hl
      · rw [hfree m hm] at hheld
        cases hheld
      · exact absurd hrow hnot

end Issue

section Held

/-- A unit of a lot that is under an active hold. -/
def heldMelt : Database where
  users := {"op"}
  parts := {"bar"}
  lots := ⟨[⟨"melt", "L-2", "bar"⟩], List.nodup_singleton _⟩
  serials := ⟨[⟨"unit", "S-1", some "melt"⟩], List.nodup_singleton _⟩
  holds := ⟨[newHold 0 "h1" "lot" "melt" none "op" none], List.nodup_singleton _⟩

/-- The unit is issued by its serial. -/
theorem issueMaterial_heldMelt :
    ¬ IssuesUnheld heldMelt 1 "m1" none (some "unit") ⟨1, 0⟩ none "op" := by
  intro h
  have hheld := h ({ heldMelt with materialTxns :=
    ⟨[⟨"m1", none, some "unit", "issue", ⟨1, 0⟩, none, 1, some "op"⟩], List.nodup_singleton _⟩ },
    "m1") rfl (.lot "melt") (by decide)
  exact absurd hheld (by decide)

end Held

end ElectronixMes.Db
