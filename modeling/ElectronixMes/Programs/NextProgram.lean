import ElectronixMes.Db.RepoDnc

/-!
# The program of the next operation

The query for the next program ranks the programs that are bound to the routing operation
before all others. Among the others, a program of the part that is bound to a different
operation counts as much as one that is bound to none, so either may be sent.

The order of equally ranked rows is the database's. A statement about what is returned is
made for every order in which the rows may be read.
-/

namespace ElectronixMes.Db

open Relational

section Specification

/-- The pending operation with the least number above that of a completed one. -/
structure IsNext (db : Database) (completed o : WoOperationRow) : Prop where
  mem : o ∈ db.woOperations
  order : o.workOrderId = completed.workOrderId
  after : completed.opNo < o.opNo
  pending : o.status = "pending"
  least : ∀ o' ∈ db.woOperations, o'.workOrderId = completed.workOrderId →
    completed.opNo < o'.opNo → o'.status = "pending" → o.opNo ≤ o'.opNo

/-- The program is bound to the routing operation of the operation, or it is an unbound
program of the part while no program is bound to that routing operation. -/
def ProgramRow.BelongsTo (p : ProgramRow) (db : Database) (wo : WorkOrderRow)
    (o : WoOperationRow) : Prop :=
  (o.routingOpId.isSome ∧ p.routingOpId = o.routingOpId) ∨
    p.partId = some wo.partId ∧ p.routingOpId = none ∧
      ∀ routingOp ∈ o.routingOpId, ∀ q ∈ db.programs, q.routingOpId ≠ some routingOp

/-- A transfer that follows on a completed operation is for the next operation of the order
and sends a program that belongs to it. -/
def TransferBelongs (db : Database) (completedOpId : String) : Prop :=
  ∀ t ∈ resolveNextTransfer db completedOpId, ∃ completed o wo p,
    db.woOperations.lookup completedOpId = some completed ∧ IsNext db completed o ∧
      db.workOrders.lookup completed.workOrderId = some wo ∧ p ∈ db.programs ∧
      p.BelongsTo db wo o ∧ t = ⟨o.id, p.id, p.programIdentifier, p.targetMachine⟩

/-- The same rows, read in another order. -/
inductive Reordered (db : Database) : Database → Prop
  | mk {ops : List WoOperationRow} {programs : List ProgramRow}
      (hops : ops.Perm db.woOperations.rows) (hprograms : programs.Perm db.programs.rows) :
      Reordered db { db with
        woOperations := db.woOperations.reorder ops hops
        programs := db.programs.reorder programs hprograms }

/-- A program that the query asks for has the very routing operation of the operation, or no
program of the part is bound to one. -/
def OwnProgram (db : Database) (wo : WorkOrderRow) (o : WoOperationRow) : Prop :=
  (∃ p ∈ db.programs, p.Matches wo o.routingOpId ∧ p.routingOpId = o.routingOpId) ∨
    ∀ p ∈ db.programs, p.partId = some wo.partId → p.routingOpId = none

end Specification

variable {db db' : Database} {wo : WorkOrderRow} {completed o : WoOperationRow} {p : ProgramRow}
  {completedOpId workOrderId : String} {routingOpId : Option String}

section Queries

/-- The query may return the program. -/
structure Resolves (db : Database) (wo : WorkOrderRow) (routingOpId : Option String)
    (p : ProgramRow) : Prop where
  mem : p ∈ db.programs
  found : p.Matches wo routingOpId
  first : ∀ q ∈ db.programs, q.Matches wo routingOpId → q.routingOpId = routingOpId →
    p.routingOpId = routingOpId

theorem isNext_iff :
    IsNext db completed o ↔ ∃ ops : List WoOperationRow, ops.Perm db.woOperations.rows ∧
      ((ops.filter fun o => o.workOrderId = completed.workOrderId ∧ completed.opNo < o.opNo ∧
        o.status = "pending").insertionSort fun a b => a.opNo ≤ b.opNo).head? = some o := by
  rw [exists_perm_first, decide_eq_true_iff]
  constructor
  · intro h
    refine ⟨h.mem, ⟨h.order, h.after, h.pending⟩, fun o' ho' hp => ?_⟩
    obtain ⟨horder, hafter, hpending⟩ := of_decide_eq_true hp
    exact h.least o' ho' horder hafter hpending
  · rintro ⟨hmem, ⟨horder, hafter, hpending⟩, hleast⟩
    exact ⟨hmem, horder, hafter, hpending, fun o' ho' h₁ h₂ h₃ =>
      hleast o' ho' (decide_eq_true ⟨h₁, h₂, h₃⟩)⟩

theorem resolves_iff :
    Resolves db wo routingOpId p ↔ ∃ programs : List ProgramRow,
      programs.Perm db.programs.rows ∧
      ((programs.filter fun p => p.Matches wo routingOpId).insertionSort fun a b =>
        decide (b.routingOpId = routingOpId) ≤ decide (a.routingOpId = routingOpId)).head? =
          some p := by
  rw [exists_perm_first, decide_eq_true_iff]
  constructor
  · intro h
    refine ⟨h.mem, h.found, fun q hq hmatch => ?_⟩
    rw [Bool.le_iff_imp, decide_eq_true_iff, decide_eq_true_iff]
    exact h.first q hq (of_decide_eq_true hmatch)
  · rintro ⟨hmem, hmatch, hfirst⟩
    refine ⟨hmem, hmatch, fun q hq hqmatch hbound => ?_⟩
    have hle := hfirst q hq (decide_eq_true hqmatch)
    rw [Bool.le_iff_imp, decide_eq_true_iff, decide_eq_true_iff] at hle
    exact hle hbound

/-- What the next transfer may be, over every order in which the rows are read. -/
theorem exists_reordered_transfer {t : NextTransfer} :
    (∃ db', Reordered db db' ∧ t ∈ resolveNextTransfer db' completedOpId) ↔
      ∃ completed o wo p, db.woOperations.lookup completedOpId = some completed ∧
        IsNext db completed o ∧ db.workOrders.lookup completed.workOrderId = some wo ∧
        Resolves db wo o.routingOpId p ∧
        t = ⟨o.id, p.id, p.programIdentifier, p.targetMachine⟩ := by
  simp only [resolveNextTransfer, Option.mem_def, Option.bind_eq_bind, Option.bind_eq_some_iff]
  constructor
  · rintro ⟨_, ⟨hops, hprograms⟩, completed, hcompleted, o, ho, wo, hwo, p, hp, ht⟩
    rw [Table.lookup_reorder] at hcompleted
    exact ⟨completed, o, wo, p, hcompleted, isNext_iff.mpr ⟨_, hops, ho⟩, hwo,
      resolves_iff.mpr ⟨_, hprograms, hp⟩, (Option.some.inj ht).symm⟩
  · rintro ⟨completed, o, wo, p, hcompleted, hnext, hwo, hresolves, rfl⟩
    obtain ⟨ops, hops, ho⟩ := isNext_iff.mp hnext
    obtain ⟨programs, hprograms, hp⟩ := resolves_iff.mp hresolves
    refine ⟨_, .mk hops hprograms, completed, ?_, o, ho, wo, hwo, p, hp, rfl⟩
    rw [Table.lookup_reorder]
    exact hcompleted

end Queries

section Belonging

/-- Every program that the query may return belongs to the operation exactly when the
operation has a program of its own, or the part no program that is bound. -/
theorem resolves_belongs_iff :
    (∀ p, Resolves db wo o.routingOpId p → p.BelongsTo db wo o) ↔ OwnProgram db wo o := by
  constructor
  · intro h
    by_contra hown
    unfold OwnProgram at hown
    push Not at hown
    obtain ⟨hnone, p, hp, hpart, hbound⟩ := hown
    have hresolves : Resolves db wo o.routingOpId p :=
      ⟨hp, Or.inr hpart, fun q hq hmatch heq => absurd heq (hnone q hq hmatch)⟩
    rcases h p hresolves with ⟨-, heq⟩ | ⟨-, hunbound, -⟩
    · exact hnone p hp (Or.inr hpart) heq
    · exact hbound hunbound
  · rintro hown p hp
    rcases Option.eq_none_or_eq_some o.routingOpId with hno | ⟨routingOp, hop⟩
    · -- without a routing operation, only programs of the part are asked for
      have hpart : p.partId = some wo.partId := by
        rcases hp.found with ⟨hsome, -⟩ | hpart
        · rw [hno] at hsome
          cases hsome
        · exact hpart
      have hunbound : p.routingOpId = none := by
        rcases hown with ⟨q, hq, hmatch, heq⟩ | hunbound
        · exact (hp.first q hq hmatch heq).trans hno
        · exact hunbound p hp.mem hpart
      refine Or.inr ⟨hpart, hunbound, fun routingOp hop => ?_⟩
      rw [hno] at hop
      cases hop
    · by_cases heq : p.routingOpId = o.routingOpId
      · exact Or.inl ⟨by rw [hop]; rfl, heq⟩
      · -- then no program is bound to the routing operation, or it would come first
        have hnone : ∀ q ∈ db.programs, q.routingOpId ≠ o.routingOpId := fun q hq hq' =>
          heq (hp.first q hq (Or.inl ⟨by rw [hop]; rfl, hq'⟩) hq')
        have hpart : p.partId = some wo.partId := hp.found.resolve_left fun h => heq h.2
        have hunbound : p.routingOpId = none := by
          rcases hown with ⟨q, hq, -, hq'⟩ | hunbound
          · exact absurd hq' (hnone q hq)
          · exact hunbound p hp.mem hpart
        refine Or.inr ⟨hpart, hunbound, fun routingOp hmem q hq => ?_⟩
        rw [← Option.mem_def.mp hmem]
        exact hnone q hq

theorem Reordered.mem_woOperations (h : Reordered db db') :
    o ∈ db'.woOperations ↔ o ∈ db.woOperations := by
  cases h with
  | mk hops hprograms => exact Table.mem_reorder hops

theorem Reordered.mem_programs (h : Reordered db db') :
    p ∈ db'.programs ↔ p ∈ db.programs := by
  cases h with
  | mk hops hprograms => exact Table.mem_reorder hprograms

theorem Reordered.lookup_woOperations (h : Reordered db db') (id : String) :
    db'.woOperations.lookup id = db.woOperations.lookup id := by
  cases h with
  | mk hops hprograms => exact Table.lookup_reorder hops id

theorem Reordered.workOrders_eq (h : Reordered db db') : db'.workOrders = db.workOrders := by
  cases h with
  | mk hops hprograms => rfl

/-- What comes next does not depend on the order of the rows. -/
theorem Reordered.isNext_iff (h : Reordered db db') :
    IsNext db' completed o ↔ IsNext db completed o := by
  constructor
  · intro hnext
    exact ⟨h.mem_woOperations.mp hnext.mem, hnext.order, hnext.after, hnext.pending,
      fun o' ho' => hnext.least o' (h.mem_woOperations.mpr ho')⟩
  · intro hnext
    exact ⟨h.mem_woOperations.mpr hnext.mem, hnext.order, hnext.after, hnext.pending,
      fun o' ho' => hnext.least o' (h.mem_woOperations.mp ho')⟩

theorem Reordered.belongsTo_iff (h : Reordered db db') :
    p.BelongsTo db' wo o ↔ p.BelongsTo db wo o := by
  simp only [ProgramRow.BelongsTo, h.mem_programs]

/-- A transfer determines its operation and its program. -/
theorem resolves_of_belongs {t : NextTransfer} (h : Reordered db db')
    (hbelongs : TransferBelongs db' completedOpId) (ht : t ∈ resolveNextTransfer db' completedOpId)
    (hcompleted : db.woOperations.lookup completedOpId = some completed)
    (hnext : IsNext db completed o) (hwo : db.workOrders.lookup completed.workOrderId = some wo)
    (hp : p ∈ db.programs) (heq : t = ⟨o.id, p.id, p.programIdentifier, p.targetMachine⟩) :
    p.BelongsTo db wo o := by
  obtain ⟨completed', o', wo', p', hcompleted', hnext', hwo', hp', hbelongs, heq'⟩ :=
    hbelongs t ht
  rw [h.lookup_woOperations, hcompleted] at hcompleted'
  obtain rfl := Option.some.inj hcompleted'
  rw [h.workOrders_eq, hwo] at hwo'
  obtain rfl := Option.some.inj hwo'
  rw [heq] at heq'
  obtain ⟨hop, hprogram, -, -⟩ := NextTransfer.mk.inj heq'
  obtain rfl := Table.eq_of_key_eq hnext.mem (h.mem_woOperations.mp hnext'.mem) hop
  obtain rfl := Table.eq_of_key_eq hp (h.mem_programs.mp hp') hprogram
  exact h.belongsTo_iff.mp hbelongs

/-- In every order of the rows the transfer that follows sends a program of the next
operation, exactly when that operation has a program of its own or no program of the part is
bound. -/
theorem resolveNextTransfer_belongs_iff (db : Database) (completedOpId : String) :
    (∀ db', Reordered db db' → TransferBelongs db' completedOpId) ↔
      ∀ completed ∈ db.woOperations.lookup completedOpId, ∀ o, IsNext db completed o →
        ∀ wo ∈ db.workOrders.lookup completed.workOrderId, OwnProgram db wo o := by
  constructor
  · intro h completed hcompleted o hnext wo hwo
    refine resolves_belongs_iff.mp fun p hp => ?_
    obtain ⟨db', hdb', ht⟩ := exists_reordered_transfer.mpr
      ⟨completed, o, wo, p, hcompleted, hnext, hwo, hp, rfl⟩
    exact resolves_of_belongs hdb' (h db' hdb') ht hcompleted hnext hwo hp.mem rfl
  · intro h db' hdb' t ht
    obtain ⟨completed, o, wo, p, hcompleted, hnext, hwo, hp, heq⟩ :=
      exists_reordered_transfer.mp ⟨db', hdb', ht⟩
    refine ⟨completed, o, wo, p, ?_, hdb'.isNext_iff.mpr hnext, ?_,
      hdb'.mem_programs.mpr hp.mem, hdb'.belongsTo_iff.mpr ?_, heq⟩
    · rw [hdb'.lookup_woOperations]
      exact hcompleted
    · rw [hdb'.workOrders_eq]
      exact hwo
    · exact resolves_belongs_iff.mpr (h completed hcompleted o hnext wo hwo) p hp

end Belonging

section Stray

/-- An order whose second operation has no program; the part's only program is bound to a
third one. -/
def strayProgram : Database where
  parts := {"bar"}
  routingOps := {"turn", "mill", "drill"}
  workOrders := ⟨[⟨"wo", "WO-1", "bar", none, ⟨1, 0⟩, 0, "in_progress", none, none, none, 0, 0⟩],
    List.nodup_singleton _⟩
  woOperations := ⟨[⟨"op10", "wo", some "turn", 10, none, "completed", 1, 0, none, none⟩,
    ⟨"op20", "wo", some "mill", 20, none, "pending", 0, 0, none, none⟩], by decide⟩
  programs := ⟨[⟨"p", some "drill", some "bar", "O3000", none, 0⟩], List.nodup_singleton _⟩

/-- The program of the third operation is sent for the second one. -/
theorem resolveNextTransfer_strayProgram : ¬ TransferBelongs strayProgram "op10" := by
  intro h
  obtain ⟨completed, o, wo, p, -, hnext, -, hp, hbelongs, -⟩ :=
    h ⟨"op20", "p", "O3000", none⟩ (by decide +kernel)
  obtain rfl := List.mem_singleton.mp hp
  rcases hbelongs with ⟨-, hbound⟩ | ⟨-, hunbound, -⟩
  · rcases List.mem_cons.mp hnext.mem with rfl | hmem
    · exact absurd hbound (by decide)
    · obtain rfl := List.mem_singleton.mp hmem
      exact absurd hbound (by decide)
  · cases hunbound

end Stray

end ElectronixMes.Db
