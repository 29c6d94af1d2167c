import ElectronixMes.Programs.Lifecycles

/-!
# Delivery of the daemon's events

The command is sent before the row of its transfer is inserted, and an event that finds
no open transfer is dropped. Over every schedule after which all sessions have ended, the
transfers with a delivered event are closed exactly when one of their events was looked
up after their row had been inserted.
-/

namespace ElectronixMes.Programs

open Db ElectronixMes.Core Edge DncBridge Relational Transition

/-- Where a reference is held: by a session that has sent and not yet inserted, or by a
stored transfer. -/
inductive Holder where
  | session (i : ℕ)
  | transfer (id : String)

def Holds (s : State) (ref : String) : Holder → Prop
  | .session i => ∃ request r, s.threads[i]? = some ⟨request, .recordTransfer r ref⟩
  | .transfer id => ∃ t, s.store.db.dncTransferEvents.lookup id = some t ∧
      t.dncDaemonRef = some ref

/-- After `n` sends, every reference that is held was returned by one of them and has
one holder. -/
structure Issued (n : ℕ) (s : State) : Prop where
  counter : s.store.dnc.counter = UInt64.ofNat n
  below : ∀ ref h, Holds s ref h → ∃ m, m < n ∧ ref = TcpDncClient.reference (UInt64.ofNat m)
  unique : ∀ ref h h', Holds s ref h → Holds s ref h' → h = h'

section Step

variable {input : Input} {s : State} {ph : Phase} {res : Station × Phase} {who : ℕ}
  {request : Request}

/-- Where the holders after a statement come from. -/
theorem holds_ran (hran : Ran input s.store ph res)
    (hth : s.threads[who]? = some ⟨request, ph⟩) {ref : String} {h : Holder}
    (hh : Holds ⟨res.1, s.threads.set who ⟨request, res.2⟩⟩ ref h) :
    Holds s ref h ∧ h ≠ .session who ∨
    (∃ r, ph = .send r) ∧ h = .session who ∧
      ref = TcpDncClient.reference s.store.dnc.counter ∧
      res.1.dnc.counter = s.store.dnc.counter + 1 ∨
    ∃ row, h = .transfer row.id ∧ Holds s ref (.session who) ∧
      res.2 = .ended (.ok (.transfer row)) := by
  have hlt : who < s.threads.length := (List.getElem?_eq_some_iff.mp hth).1
  cases h with
  | session i =>
      obtain ⟨request', r, hi⟩ := hh
      by_cases hwho : i = who
      · subst hwho
        rw [List.getElem?_set_self hlt, Option.some.injEq, Thread.mk.injEq] at hi
        obtain ⟨-, hphase⟩ := hi
        cases hran with
        | sent r' =>
            cases hphase
            exact Or.inr (Or.inl ⟨⟨r, rfl⟩, rfl, rfl, rfl⟩)
        | ended reply => cases hphase
        | refused | recorded | missed | found | closed | unknownProgram | foundProgram
        | numbered | drafted | checked | reviewed | other => cases hphase
      · rw [List.getElem?_set_ne (fun heq => hwho heq.symm)] at hi
        refine Or.inl ⟨⟨request', r, hi⟩, ?_⟩
        rintro ⟨⟩
        exact hwho rfl
  | transfer id =>
      obtain ⟨t, ht, href⟩ := hh
      have hne : Holder.transfer id ≠ .session who := Holder.noConfusion
      cases hran with
      | @recorded r _ row transfers insert reference scheduled =>
          dsimp only at ht
          rw [Table.lookup_insert? insert] at ht
          split at ht
          · rename_i hid
            obtain rfl := Option.some.inj ht
            rw [reference, Option.some.injEq] at href
            subst href
            exact Or.inr (Or.inr ⟨row, by rw [hid]; rfl, ⟨request, r, hth⟩, rfl⟩)
          · exact Or.inl ⟨⟨t, ht, href⟩, hne⟩
      | @closed found u status stored =>
          dsimp only at ht
          rw [Table.lookup_put] at ht
          split at ht
          · rename_i hid
            obtain rfl := Option.some.inj ht
            have hkey : u.id = found.id := (Table.lookup_eq_some.mp stored).2
            refine Or.inl ⟨⟨u, ?_, href⟩, hne⟩
            rw [hid, ← stored]
            exact congrArg _ hkey
          · exact Or.inl ⟨⟨t, ht, href⟩, hne⟩
      | refused | sent | missed | found | unknownProgram | foundProgram | numbered | drafted
      | checked | reviewed | other | ended => exact Or.inl ⟨⟨t, ht, href⟩, hne⟩

theorem issued_opened (db : Database) : Issued 0 (opened db) := by
  have hnone (ref : String) (h : Holder) : ¬ Holds (opened db) ref h := by
    cases h with
    | session i =>
        rintro ⟨request, r, hi⟩
        cases hi
    | transfer id =>
        rintro ⟨t, ht, -⟩
        cases ht
  exact ⟨rfl, fun ref h hh => absurd hh (hnone ref h), fun ref h _ hh => absurd hh (hnone ref h)⟩

/-- The number of the next send is new. -/
theorem Issued.fresh {n : ℕ} (h : Issued n s) (hn : n < UInt64.size) {ref : String} {hd : Holder}
    (hh : Holds s ref hd) : ref ≠ TcpDncClient.reference s.store.dnc.counter := by
  obtain ⟨m, hm, rfl⟩ := h.below ref hd hh
  intro heq
  rw [h.counter] at heq
  have hsame := TcpDncClient.reference_ofNat_inj (by omega) hn heq
  omega

/-- Two holders after a statement are the same if the ones before it were. -/
theorem Issued.unique_ran {n : ℕ} (h : Issued n s) (hn : (∃ r, ph = .send r) → n < UInt64.size)
    (hran : Ran input s.store ph res) (hth : s.threads[who]? = some ⟨request, ph⟩)
    {ref : String} {a b : Holder}
    (ha : Holds ⟨res.1, s.threads.set who ⟨request, res.2⟩⟩ ref a)
    (hb : Holds ⟨res.1, s.threads.set who ⟨request, res.2⟩⟩ ref b) : a = b := by
  rcases holds_ran hran hth ha with ⟨hold, hne⟩ | ⟨hsend, rfl, href, -⟩ | ⟨row, rfl, hsent, hrow⟩
  · rcases holds_ran hran hth hb with
      ⟨hold', -⟩ | ⟨hsend, -, href', -⟩ | ⟨row', rfl, hsent', -⟩
    · exact h.unique ref a b hold hold'
    · exact absurd href' (h.fresh (hn hsend) hold)
    · exact absurd (h.unique ref a _ hold hsent') hne
  · rcases holds_ran hran hth hb with ⟨hold', -⟩ | ⟨-, rfl, -⟩ | ⟨row', rfl, hsent', -⟩
    · exact absurd href (h.fresh (hn hsend) hold')
    · rfl
    · exact absurd href (h.fresh (hn hsend) hsent')
  · rcases holds_ran hran hth hb with
      ⟨hold', hne'⟩ | ⟨hsend, -, href', -⟩ | ⟨row', rfl, -, hrow'⟩
    · exact absurd (h.unique ref b _ hold' hsent) hne'
    · exact absurd href' (h.fresh (hn hsend) hsent)
    · rw [hrow] at hrow'
      cases hrow'
      rfl

/-- The session has yet to send. -/
def Thread.unsent (th : Thread) : Bool :=
  match th.phase with
  | .send _ => true
  | _ => false

/-- The move schedules a transfer. -/
def schedules : Move Request Input → Bool
  | .call (.schedule _) => true
  | _ => false

theorem unsent_started (h : Started request ph) :
    Thread.unsent ⟨request, ph⟩ = schedules (.call request) := by
  cases h with
  | review reviews may => rcases reviews with ⟨rfl, -⟩ | ⟨rfl, -⟩ <;> rfl
  | forbidden reviews e => rcases reviews with ⟨rfl, -⟩ | ⟨rfl, -⟩ <;> rfl
  | schedule | outcome | received | other => rfl

/-- A statement sends at most once and never leaves a send to do. -/
theorem unsent_ran (request : Request) (hran : Ran input s.store ph res) :
    Thread.unsent ⟨request, res.2⟩ = false ∧
      (res.1.dnc.counter = s.store.dnc.counter ∨
        Thread.unsent ⟨request, ph⟩ = true ∧
          res.1.dnc.counter = s.store.dnc.counter + 1) := by
  cases hran with
  | sent r => exact ⟨rfl, Or.inr ⟨rfl, rfl⟩⟩
  | refused | recorded | missed | found | closed | unknownProgram | foundProgram | numbered
  | drafted | checked | reviewed | other | ended => exact ⟨rfl, Or.inl rfl⟩

theorem add_one_ne_self (c : UInt64) : c + 1 ≠ c := by
  intro h
  have htoNat := congrArg UInt64.toNat h
  have hlt := c.toNat_lt
  rw [UInt64.toNat_add] at htoNat
  have hone : (1 : UInt64).toNat = 1 := rfl
  omega

/-- The references that are held after a statement come from its send or an earlier one. -/
theorem Issued.below_ran {n n' : ℕ} (h : Issued n s) (hran : Ran input s.store ph res)
    (hth : s.threads[who]? = some ⟨request, ph⟩) (hn : n ≤ n')
    (hnew : res.1.dnc.counter = s.store.dnc.counter + 1 → n < n') {ref : String} {hd : Holder}
    (hh : Holds ⟨res.1, s.threads.set who ⟨request, res.2⟩⟩ ref hd) :
    ∃ m, m < n' ∧ ref = TcpDncClient.reference (UInt64.ofNat m) := by
  have hold {k : Holder} (hk : Holds s ref k) :
      ∃ m, m < n' ∧ ref = TcpDncClient.reference (UInt64.ofNat m) := by
    obtain ⟨m, hm, href⟩ := h.below ref k hk
    exact ⟨m, by omega, href⟩
  rcases holds_ran hran hth hh with ⟨hk, -⟩ | ⟨-, -, href, hcounter⟩ | ⟨row, -, hk, -⟩
  · exact hold hk
  · exact ⟨n, hnew hcounter, by rw [href, h.counter]⟩
  · exact hold hk

theorem issued_advance {n : ℕ} (h : Issued n s) (hran : Ran input s.store ph res)
    (hth : s.threads[who]? = some ⟨request, ph⟩)
    (hbound : n + s.threads.countP Thread.unsent ≤ UInt64.size) :
    ∃ n', Issued n' ⟨res.1, s.threads.set who ⟨request, res.2⟩⟩ ∧
      n' + (s.threads.set who ⟨request, res.2⟩).countP Thread.unsent ≤
        n + s.threads.countP Thread.unsent := by
  obtain ⟨hlt, hget⟩ := List.getElem?_eq_some_iff.mp hth
  obtain ⟨hafter, hcounter⟩ := unsent_ran request hran
  have hcount := List.countP_set (p := Thread.unsent) (a := (⟨request, res.2⟩ : Thread)) hlt
  rw [hget, hafter, if_neg Bool.false_ne_true, Nat.add_zero] at hcount
  have hpos : Thread.unsent ⟨request, ph⟩ = true → 0 < s.threads.countP Thread.unsent :=
    fun hsend => List.countP_pos_iff.mpr ⟨_, List.mem_of_getElem? hth, hsend⟩
  have hn : (∃ r, ph = .send r) → n < UInt64.size := by
    rintro ⟨r, rfl⟩
    have := hpos rfl
    omega
  have hunique : ∀ ref a b, Holds ⟨res.1, s.threads.set who ⟨request, res.2⟩⟩ ref a →
      Holds ⟨res.1, s.threads.set who ⟨request, res.2⟩⟩ ref b → a = b :=
    fun _ _ _ ha hb => h.unique_ran hn hran hth ha hb
  rcases hcounter with hsame | ⟨hsend, hnext⟩
  · refine ⟨n, ⟨hsame.trans h.counter, ?_, hunique⟩, by omega⟩
    intro ref hd hh
    refine h.below_ran hran hth (le_refl n) ?_ hh
    intro heq
    exact absurd (heq.symm.trans hsame) (add_one_ne_self _)
  · refine ⟨n + 1, ⟨?_, ?_, hunique⟩, ?_⟩
    · rw [hnext, h.counter, UInt64.ofNat_add]
      rfl
    · intro ref hd hh
      exact h.below_ran hran hth (by omega) (fun _ => by omega) hh
    · rw [hcount, if_pos hsend]
      have := hpos hsend
      omega

/-- A new session holds no reference. -/
theorem issued_call {n : ℕ} (h : Issued n s) (r : Request) :
    Issued n ⟨s.store, s.threads ++ [r.thread]⟩ := by
  have hold {ref : String} {hd : Holder}
      (hh : Holds ⟨s.store, s.threads ++ [r.thread]⟩ ref hd) : Holds s ref hd := by
    cases hd with
    | transfer id => exact hh
    | session i =>
        obtain ⟨request, r', hi⟩ := hh
        rcases Nat.lt_or_ge i s.threads.length with hlt | hge
        · rw [List.getElem?_append_left hlt] at hi
          exact ⟨request, r', hi⟩
        · have hmem := List.mem_of_getElem? (List.getElem?_append_right hge ▸ hi)
          have hphase : .recordTransfer r' ref = r.phase :=
            congrArg Thread.phase (List.mem_singleton.mp hmem)
          have hstarted := hphase ▸ started r
          cases hstarted
  exact ⟨h.counter, fun ref hd hh => h.below ref hd (hold hh),
    fun ref a b ha hb => h.unique ref a b (hold ha) (hold hb)⟩

theorem issued_step {n c : ℕ} (h : Issued n s)
    (hc : n + s.threads.countP Thread.unsent ≤ c) (m : Move Request Input)
    (hbound : c ≤ UInt64.size) :
    ∃ n', Issued n' (step s m) ∧ n' + (step s m).threads.countP Thread.unsent ≤
      c + if schedules m then 1 else 0 := by
  rcases Sessions.step_cases Request.thread exec s m with
    ⟨r, rfl, heq⟩ | heq | ⟨who, input, ⟨request, ph⟩, rfl, hth, heq⟩
  · rw [step, heq]
    refine ⟨n, issued_call h r, ?_⟩
    rw [List.countP_append, List.countP_singleton, Request.thread, unsent_started (started r)]
    omega
  · rw [step, heq]
    exact ⟨n, h, by omega⟩
  · rw [step, heq]
    obtain ⟨n', hissued, hle⟩ :=
      issued_advance h (ran_run input s.store ph) hth (by omega)
    exact ⟨n', hissued, by simp only [exec]; omega⟩

end Step

/-- With at most `UInt64.size` scheduled transfers, references stay unique. -/
theorem issued_stateAt (db : Database) {moves : Schedule}
    (hbound : moves.countP schedules ≤ UInt64.size) (k : ℕ) :
    ∃ n, Issued n (stateAt db moves k) ∧
      n + (stateAt db moves k).threads.countP Thread.unsent ≤ (moves.take k).countP schedules := by
  induction k with
  | zero => exact ⟨0, issued_opened db, le_refl _⟩
  | succ k ih =>
      obtain ⟨n, hissued, hle⟩ := ih
      have htake : (moves.take k).countP schedules ≤ moves.countP schedules :=
        (List.take_sublist k moves).countP_le
      rcases stateAt_succ db moves k with hsame | ⟨m, hm, heq⟩
      · rw [hsame]
        refine ⟨n, hissued, hle.trans ?_⟩
        exact (List.take_sublist_take_left (Nat.le_succ k)).countP_le
      · rw [heq, List.take_add_one, hm, Option.toList_some, List.countP_append,
          List.countP_singleton]
        exact issued_step hissued hle m (by omega)

section Transfers

variable {input : Input} {st : Station} {ph : Phase} {res : Station × Phase}

/-- The session writes terminal statuses only, and the transfer it found is stored. -/
def Closing (st : Station) (_ : ℕ) (th : Thread) : Prop :=
  match th.phase with
  | .findTransfer _ status => status.isTerminal = true
  | .setTransfer found status => status.isTerminal = true ∧
      (st.db.dncTransferEvents.lookup found.id).isSome = true
  | _ => True

theorem closed_withStatus {status : TransferStatus} (h : status.isTerminal = true)
    (t : TransferRow) (now : Int) : ¬ (t.withStatus status.asStr now).IsOpen := by
  rintro ⟨hcompleted, hfailed⟩
  cases status with
  | completed => exact hcompleted rfl
  | failed => exact hfailed rfl
  | scheduled | notified | fetched => cases h

/-- No statement removes a transfer, changes its reference or opens it again. -/
theorem kept_ran {who : ℕ} {request : Request} (hran : Ran input st ph res)
    (hclosing : Closing st who ⟨request, ph⟩) {id : String} {t : TransferRow}
    (ht : st.db.dncTransferEvents.lookup id = some t) :
    ∃ t', res.1.db.dncTransferEvents.lookup id = some t' ∧ t'.dncDaemonRef = t.dncDaemonRef ∧
      (¬ t.IsOpen → ¬ t'.IsOpen) := by
  cases hran with
  | @recorded r _ row transfers insert reference scheduled =>
      refine ⟨t, ?_, rfl, fun h => h⟩
      dsimp only
      rw [Table.lookup_insert? insert, if_neg ?_]
      · exact ht
      · rintro rfl
        rw [Table.lookup_of_insert? insert] at ht
        cases ht
  | @closed found u status stored =>
      dsimp only
      rw [Table.lookup_put]
      split
      · rename_i hid
        have hkey : u.id = id := hid.symm
        have huid : st.db.dncTransferEvents.lookup id = some u := by
          rw [← hkey]
          exact Table.lookup_of_mem (Table.lookup_eq_some.mp stored).1
        obtain rfl : u = t := Option.some.inj (huid.symm.trans ht)
        exact ⟨_, rfl, rfl, fun _ => closed_withStatus hclosing.1 u input.now⟩
      · exact ⟨t, ht, rfl, fun h => h⟩
  | refused | sent | missed | found | unknownProgram | foundProgram | numbered | drafted
  | checked | reviewed | other | ended => exact ⟨t, ht, rfl, fun h => h⟩

/-- A transfer that is closed after a statement was closed before, or is the one that the
session had found. -/
theorem closed_ran (hran : Ran input st ph res) {id : String} {t' : TransferRow}
    (ht' : res.1.db.dncTransferEvents.lookup id = some t') (hclosed : ¬ t'.IsOpen) :
    ∃ t, st.db.dncTransferEvents.lookup id = some t ∧ t'.dncDaemonRef = t.dncDaemonRef ∧
      (¬ t.IsOpen ∨ ∃ found ∈ ph.found?, found.id = id) := by
  cases hran with
  | @recorded r _ row transfers insert reference scheduled =>
      dsimp only at ht'
      rw [Table.lookup_insert? insert] at ht'
      split at ht'
      · obtain rfl := Option.some.inj ht'
        refine absurd ⟨?_, ?_⟩ hclosed <;> rw [scheduled] <;> decide
      · exact ⟨t', ht', rfl, Or.inl hclosed⟩
  | @closed found u status stored =>
      dsimp only at ht'
      rw [Table.lookup_put] at ht'
      split at ht'
      · rename_i hid
        obtain rfl := Option.some.inj ht'
        have hkey : u.id = found.id := (Table.lookup_eq_some.mp stored).2
        have hfound : found.id = id := hkey.symm.trans hid.symm
        exact ⟨u, hfound ▸ stored, rfl, Or.inr ⟨found, rfl, hfound⟩⟩
      · exact ⟨t', ht', rfl, Or.inl hclosed⟩
  | refused | sent | missed | found | unknownProgram | foundProgram | numbered | drafted
  | checked | reviewed | other | ended => exact ⟨t', ht', rfl, Or.inl hclosed⟩

/-- The write of a session closes the transfer it had found. -/
theorem closes_ran {found t : TransferRow} {status : TransferStatus}
    (hran : Ran input st (.setTransfer found status) res) (hterminal : status.isTerminal = true)
    (ht : st.db.dncTransferEvents.lookup found.id = some t) :
    ∃ t', res.1.db.dncTransferEvents.lookup found.id = some t' ∧ ¬ t'.IsOpen := by
  cases hran with
  | refused _ _ gone =>
      rw [gone found rfl] at ht
      cases ht
  | @closed _ u _ stored =>
      refine ⟨u.withStatus status.asStr input.now, ?_, closed_withStatus hterminal u input.now⟩
      rw [← (Table.lookup_eq_some.mp stored).2]
      exact Table.lookup_put_self _ (u.withStatus status.asStr input.now)

/-- Only a lookup makes a session find a transfer. -/
theorem found_ran (hran : Ran input st ph res) {found : TransferRow}
    (hfound : res.2.found? = some found) :
    ∃ ref status, ph = .findTransfer ref status ∧ res = (st, .setTransfer found status) ∧
      findOpenTransferByRef st.db ref = some found := by
  cases hran with
  | found status find =>
      cases hfound
      exact ⟨_, status, rfl, rfl, find⟩
  | ended reply => cases hfound
  | refused | sent | recorded | missed | closed | unknownProgram | foundProgram | numbered
  | drafted | checked | reviewed | other => cases hfound

theorem closing_ran {who : ℕ} {request : Request} (hran : Ran input st ph res)
    (h : Closing st who ⟨request, ph⟩) : Closing res.1 who ⟨request, res.2⟩ := by
  cases hran with
  | found status find =>
      exact ⟨h, Option.isSome_iff_exists.mpr
        ⟨_, Table.lookup_of_mem (findOpenTransferByRef_some find).1⟩⟩
  | ended reply => exact h
  | refused | sent | recorded | missed | closed | unknownProgram | foundProgram | numbered
  | drafted | checked | reviewed | other => trivial

end Transfers

section Runs

variable (db : Database) (moves : Schedule)

theorem closing_started {st : Station} {who : ℕ} {request : Request} {ph : Phase}
    (h : Started request ph) : Closing st who ⟨request, ph⟩ := by
  cases h with
  | outcome e ref terminal => exact terminal
  | schedule | received | review | forbidden | other => trivial

theorem Closing.stable {st st' : Station} {who : ℕ} {th : Thread} (h : Closing st who th)
    (hkept : ∀ id t, st.db.dncTransferEvents.lookup id = some t →
      ∃ t', st'.db.dncTransferEvents.lookup id = some t') : Closing st' who th := by
  obtain ⟨request, ph⟩ := th
  cases ph with
  | setTransfer found status =>
      obtain ⟨hterminal, hstored⟩ := h
      obtain ⟨t, ht⟩ := Option.isSome_iff_exists.mp hstored
      exact ⟨hterminal, Option.isSome_iff_exists.mpr (hkept found.id t ht)⟩
  | send | recordTransfer | findTransfer | findProgram | numberRevision | insertRevision
  | readRevision | writeRevision | other | ended => exact h

theorem closing_stateAt (k i : ℕ) (th : Thread)
    (hth : (stateAt db moves k).threads[i]? = some th) :
    Closing (stateAt db moves k).store i th := by
  have hinv : Sessions.Inv (fun _ => True) Closing (stateAt db moves k) := by
    apply Sessions.Inv.run
    · intro st i r _
      exact closing_started (started r)
    · intro who input st th _ hth
      exact ⟨trivial, closing_ran (ran_run input st th.phase) hth⟩
    · intro who input st th i other _ _ hth hother
      refine hother.stable ?_
      intro id t ht
      obtain ⟨t', ht', -⟩ := kept_ran (ran_run input st th.phase) hth ht
      exact ⟨t', ht'⟩
    · exact Sessions.inv_nil trivial
  exact hinv.2 i th hth

/-- The move is the lookup of an event with the reference, and the transfer is stored. -/
def LookedUpAt (k : ℕ) (id ref : String) : Prop :=
  ∃ who input request status, moves[k]? = some (.advance who input) ∧
    (stateAt db moves k).threads[who]? = some ⟨request, .findTransfer ref status⟩ ∧
    ∃ t, (stateAt db moves k).store.db.dncTransferEvents.lookup id = some t ∧
      t.dncDaemonRef = some ref

/-- The transfer is closed, or a session is about to close it. -/
def ClosedSoon (s : State) (id : String) : Prop :=
  (∃ t, s.store.db.dncTransferEvents.lookup id = some t ∧ ¬ t.IsOpen) ∨
    ∃ (i : ℕ) (th : Thread) (found : TransferRow), s.threads[i]? = some th ∧
      th.phase.found? = some found ∧ found.id = id

/-- What one move does to a stored transfer. -/
theorem kept_stateAt (k : ℕ) {id : String} {t : TransferRow}
    (ht : (stateAt db moves k).store.db.dncTransferEvents.lookup id = some t) :
    ∃ t', (stateAt db moves (k + 1)).store.db.dncTransferEvents.lookup id = some t' ∧
      t'.dncDaemonRef = t.dncDaemonRef ∧ (¬ t.IsOpen → ¬ t'.IsOpen) := by
  rcases stateAt_succ db moves k with hsame | ⟨m, hm, heq⟩
  · rw [hsame]
    exact ⟨t, ht, rfl, fun h => h⟩
  · rw [heq, step]
    rcases Sessions.step_cases Request.thread exec (stateAt db moves k) m with
      ⟨r, -, hstep⟩ | hstep | ⟨who, input, th, rfl, hth, hstep⟩
    · rw [hstep]
      exact ⟨t, ht, rfl, fun h => h⟩
    · rw [hstep]
      exact ⟨t, ht, rfl, fun h => h⟩
    · rw [hstep]
      exact kept_ran (ran_run input _ th.phase) (closing_stateAt db moves k who th hth) ht

/-- A transfer that was looked up is closed, or about to be. -/
theorem closedSoon_of_lookedUp (hbound : moves.countP schedules ≤ UInt64.size) {k : ℕ}
    {id ref : String} (h : LookedUpAt db moves k id ref) :
    ClosedSoon (stateAt db moves (k + 1)) id := by
  obtain ⟨who, input, request, status, hm, hth, t, ht, href⟩ := h
  rw [stateAt_of_move db hm, step, Sessions.step, hth]
  cases hfind : findOpenTransferByRef (stateAt db moves k).store.db ref with
  | none =>
      have hclosed := findOpenTransferByRef_none hfind t (Table.lookup_eq_some.mp ht).1 href
      simp only [exec, run, hfind]
      exact Or.inl ⟨t, ht, hclosed⟩
  | some u =>
      -- references are unique, so it is this transfer that was found
      obtain ⟨n, hissued, -⟩ := issued_stateAt db hbound k
      obtain ⟨hmem, huref, -⟩ := findOpenTransferByRef_some hfind
      have hsame := hissued.unique ref (.transfer u.id) (.transfer id)
        ⟨u, Table.lookup_of_mem hmem, huref⟩ ⟨t, ht, href⟩
      simp only [exec, run, hfind]
      refine Or.inr ⟨who, ⟨request, .setTransfer u status⟩, u, ?_, rfl, Holder.transfer.inj hsame⟩
      exact List.getElem?_set_self (List.getElem?_eq_some_iff.mp hth).1

theorem closedSoon_succ {k : ℕ} {id : String} (h : ClosedSoon (stateAt db moves k) id) :
    ClosedSoon (stateAt db moves (k + 1)) id := by
  rcases h with ⟨t, ht, hclosed⟩ | ⟨i, th, found, hth, hfound, rfl⟩
  · obtain ⟨t', ht', -, hkept⟩ := kept_stateAt db moves k ht
    exact Or.inl ⟨t', ht', hkept hclosed⟩
  · rcases stateAt_succ db moves k with hsame | ⟨m, hm, heq⟩
    · rw [hsame]
      exact Or.inr ⟨i, th, found, hth, hfound, rfl⟩
    · rw [heq]
      by_cases hadvance : ∃ input, m = .advance i input
      · obtain ⟨input, rfl⟩ := hadvance
        obtain ⟨request, ph⟩ := th
        obtain ⟨status, rfl⟩ := Phase.eq_setTransfer hfound
        obtain ⟨hterminal, hstored⟩ := closing_stateAt db moves k i _ hth
        obtain ⟨t, ht⟩ := Option.isSome_iff_exists.mp hstored
        rw [step, Sessions.step, hth]
        exact Or.inl (closes_ran (ran_run input _ _) hterminal ht)
      · refine Or.inr ⟨i, th, found, ?_, hfound, rfl⟩
        exact Sessions.thread_stays _ _ _ hth fun input hm => hadvance ⟨input, hm⟩

/-- Once looked up, a transfer is closed or about to be, from then on. -/
theorem closedSoon_stateAt (hbound : moves.countP schedules ≤ UInt64.size) {j k : ℕ} (hjk : j < k)
    {id ref : String} (h : LookedUpAt db moves j id ref) : ClosedSoon (stateAt db moves k) id := by
  induction k, hjk using Nat.le_induction with
  | base => exact closedSoon_of_lookedUp db moves hbound h
  | succ k _ ih => exact closedSoon_succ db moves ih

theorem found?_started {request : Request} {ph : Phase} (h : Started request ph) :
    ph.found? = none := by
  cases h <;> rfl

/-- Every closed transfer, and every one that a session has found, was looked up. -/
structure Traced (k : ℕ) : Prop where
  closed : ∀ id t ref, (stateAt db moves k).store.db.dncTransferEvents.lookup id = some t →
    ¬ t.IsOpen → t.dncDaemonRef = some ref → ∃ j, LookedUpAt db moves j id ref
  found : ∀ (i : ℕ) (th : Thread) (u t : TransferRow) ref,
    (stateAt db moves k).threads[i]? = some th → th.phase.found? = some u →
    (stateAt db moves k).store.db.dncTransferEvents.lookup u.id = some t →
    t.dncDaemonRef = some ref → ∃ j, LookedUpAt db moves j u.id ref

variable {db moves} {k : ℕ}

theorem Traced.closed_succ (h : Traced db moves k) {id ref : String} {t' : TransferRow}
    (ht' : (stateAt db moves (k + 1)).store.db.dncTransferEvents.lookup id = some t')
    (hclosed : ¬ t'.IsOpen) (href : t'.dncDaemonRef = some ref) :
    ∃ j, LookedUpAt db moves j id ref := by
  rcases stateAt_succ db moves k with hsame | ⟨m, hm, heq⟩
  · rw [hsame] at ht'
    exact h.closed id t' ref ht' hclosed href
  · rw [heq, step] at ht'
    rcases Sessions.step_cases Request.thread exec (stateAt db moves k) m with
      ⟨r, -, hstep⟩ | hstep | ⟨who, input, th, rfl, hth, hstep⟩
    · rw [hstep] at ht'
      exact h.closed id t' ref ht' hclosed href
    · rw [hstep] at ht'
      exact h.closed id t' ref ht' hclosed href
    · rw [hstep] at ht'
      obtain ⟨t, ht, hsame, hbefore | ⟨u, hu, rfl⟩⟩ :=
        closed_ran (ran_run input _ th.phase) ht' hclosed
      · exact h.closed id t ref ht hbefore (hsame ▸ href)
      · exact h.found who th u t ref hth hu ht (hsame ▸ href)

theorem Traced.found_succ (h : Traced db moves k) {i : ℕ} {th' : Thread} {u t' : TransferRow}
    {ref : String} (hth' : (stateAt db moves (k + 1)).threads[i]? = some th')
    (hu : th'.phase.found? = some u)
    (ht' : (stateAt db moves (k + 1)).store.db.dncTransferEvents.lookup u.id = some t')
    (href : t'.dncDaemonRef = some ref) : ∃ j, LookedUpAt db moves j u.id ref := by
  -- the found transfer was stored before, with the same reference
  have hold (hth : (stateAt db moves k).threads[i]? = some th') :
      ∃ j, LookedUpAt db moves j u.id ref := by
    obtain ⟨request, ph⟩ := th'
    obtain ⟨status, rfl⟩ := Phase.eq_setTransfer hu
    obtain ⟨t, ht⟩ := Option.isSome_iff_exists.mp (closing_stateAt db moves k i _ hth).2
    obtain ⟨t₁, ht₁, hsame, -⟩ := kept_stateAt db moves k ht
    obtain rfl : t₁ = t' := Option.some.inj (ht₁.symm.trans ht')
    exact h.found i _ u t ref hth hu ht (hsame ▸ href)
  rcases stateAt_succ db moves k with hsame | ⟨m, hm, heq⟩
  · rw [hsame] at hth'
    exact hold hth'
  · rw [heq, step] at hth'
    rcases Sessions.thread_cases Request.thread exec (stateAt db moves k) m hth' with
      hth | ⟨r, -, rfl⟩ | ⟨input, th, rfl, hth, rfl⟩
    · exact hold hth
    · rw [show r.thread.phase.found? = none from found?_started (started r)] at hu
      cases hu
    · obtain ⟨request, ph⟩ := th
      obtain ⟨ref', status, rfl, hres, hfind⟩ := found_ran (ran_run input _ ph) hu
      obtain ⟨hmem, huref, -⟩ := findOpenTransferByRef_some hfind
      have hstored : (stateAt db moves k).store.db.dncTransferEvents.lookup u.id = some u :=
        Table.lookup_of_mem hmem
      rw [heq, step, Sessions.step, hth] at ht'
      simp only [exec, hres] at ht'
      obtain rfl : u = t' := Option.some.inj (hstored.symm.trans ht')
      obtain rfl : ref' = ref := Option.some.inj (huref.symm.trans href)
      exact ⟨k, i, input, request, status, hm, hth, u, hstored, href⟩

variable (db moves)

theorem traced_stateAt (k : ℕ) : Traced db moves k := by
  induction k with
  | zero =>
      refine ⟨?_, ?_⟩
      · intro id t ref ht
        cases ht
      · intro i th u t ref hth
        cases hth
  | succ k ih =>
      refine ⟨?_, ?_⟩
      · intro id t ref ht hclosed href
        exact ih.closed_succ ht hclosed href
      · intro i th u t ref hth hu ht href
        exact ih.found_succ hth hu ht href

/-- The daemon reported an outcome for the reference. -/
def Delivered (ref : String) : Prop :=
  ∃ o : Outcome, Move.call (Request.event (o.event ref)) ∈ moves

end Runs

/-- When all sessions have ended, the transfers with a delivered event are closed if and
only if each of them was already stored when one of its events was looked up. -/
theorem delivered_events_close_iff (db : Database) (moves : Schedule)
    (hbound : moves.countP schedules ≤ UInt64.size)
    (hended : ∀ th ∈ (stateAt db moves moves.length).threads, th.phase.isEnded = true) :
    (∀ t ∈ (stateAt db moves moves.length).store.db.dncTransferEvents, ∀ ref,
      t.dncDaemonRef = some ref → Delivered moves ref → ¬ t.IsOpen) ↔
    ∀ t ∈ (stateAt db moves moves.length).store.db.dncTransferEvents, ∀ ref,
      t.dncDaemonRef = some ref → Delivered moves ref → ∃ k, LookedUpAt db moves k t.id ref := by
  constructor
  · intro hclosed t ht ref href hdelivered
    exact (traced_stateAt db moves moves.length).closed t.id t ref (Table.lookup_of_mem ht)
      (hclosed t ht ref href hdelivered) href
  · intro hlooked t ht ref href hdelivered
    obtain ⟨k, hk⟩ := hlooked t ht ref href hdelivered
    have hlt : k < moves.length := by
      obtain ⟨who, input, request, status, hm, -⟩ := hk
      exact (List.getElem?_eq_some_iff.mp hm).1
    rcases closedSoon_stateAt db moves hbound hlt hk with
      ⟨t', ht', hclosed⟩ | ⟨i, th, found, hth, hfound, -⟩
    · obtain rfl : t' = t := Option.some.inj (ht'.symm.trans (Table.lookup_of_mem ht))
      exact hclosed
    · obtain ⟨status, hphase⟩ := Phase.eq_setTransfer hfound
      have hreply := hended th (List.mem_of_getElem? hth)
      rw [hphase] at hreply
      cases hreply

/-- The daemon completes the transfer before its row is inserted. -/
def earlyEvent : Schedule :=
  [.call (.schedule sendProgram), .advance 0 ⟨1, "", none⟩,
    .call (.event (.transferCompleted "tcp-0")), .advance 1 ⟨2, "", none⟩,
    .advance 0 ⟨3, "t", none⟩]

/-- The row of the only transfer. -/
def sentRow (status : String) (completedAt : Option Int) (created updated : Int) : TransferRow :=
  ⟨"t", none, "prog", "to_machine", status, some "tcp-0", created, completedAt, created, updated⟩

/-- The event is dropped, and the transfer stays open. -/
theorem earlyEvent_lost :
    (∀ th ∈ (stateAt programFloor earlyEvent 5).threads, th.phase.isEnded = true) ∧
    ∃ t ∈ (stateAt programFloor earlyEvent 5).store.db.dncTransferEvents,
      t.dncDaemonRef = some "tcp-0" ∧ Delivered earlyEvent "tcp-0" ∧ t.IsOpen := by
  refine ⟨by decide +kernel, sentRow "scheduled" none 3 3, by decide +kernel, rfl, ?_,
    by decide⟩
  exact ⟨.completed, by simp [earlyEvent, Outcome.event]⟩

/-- The row is inserted before the daemon completes the transfer. -/
def lateEvent : Schedule :=
  [.call (.schedule sendProgram), .advance 0 ⟨1, "", none⟩, .advance 0 ⟨2, "t", none⟩,
    .call (.event (.transferCompleted "tcp-0")), .advance 1 ⟨3, "", none⟩,
    .advance 1 ⟨4, "", none⟩]

theorem delivered_events_close_iff_lateEvent :
    lateEvent.countP schedules ≤ UInt64.size ∧
      ∀ t ∈ (stateAt programFloor lateEvent 6).store.db.dncTransferEvents, ∀ ref,
        t.dncDaemonRef = some ref → Delivered lateEvent ref → ¬ t.IsOpen := by
  have hbound : lateEvent.countP schedules ≤ UInt64.size := by decide +kernel
  refine ⟨hbound,
    (delivered_events_close_iff programFloor lateEvent hbound (by decide +kernel)).mpr ?_⟩
  intro t ht ref href _
  have hrows : (stateAt programFloor lateEvent 6).store.db.dncTransferEvents.rows =
      [sentRow "completed" (some 4) 2 4] := by decide +kernel
  obtain rfl : t = sentRow "completed" (some 4) 2 4 :=
    List.mem_singleton.mp (hrows ▸ ht)
  obtain rfl : "tcp-0" = ref := Option.some.inj href
  exact ⟨4, 1, ⟨3, "", none⟩, .event (.transferCompleted "tcp-0"), .completed, rfl, rfl,
    sentRow "scheduled" none 2 2, by decide +kernel, rfl⟩

end ElectronixMes.Programs
