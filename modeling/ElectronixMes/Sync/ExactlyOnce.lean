import ElectronixMes.Sync.Interleaving
import ElectronixMes.Cloud.Sync

/-!
# Exactly-once apply under every schedule

The state a schedule reaches is the one obtained by applying the logged entries
one by one, each of them anew. Two facts about open transactions carry the
proof: no two of them hold one claim or write one order or number, and the write
of each is still the one the committed state gives.
-/

namespace ElectronixMes.Sync.Concurrent

open Db Cloud Relational Serde

section Replay

variable {c : Codec} {init db db' : Database} {log : List LogItem} {x : LogItem}

/-- Apply the items one after the other; none of them may be a replay or fail. -/
def serialApply (c : Codec) : Database → List LogItem → Option Database
  | db, [] => some db
  | db, x :: rest =>
      match applyEntry c db x.now x.entry x.plantId with
      | .ok (db, true) => serialApply c db rest
      | _ => none

theorem serialApply_cons (h : serialApply c init (x :: log) = some db) :
    ∃ mid, applyEntry c init x.now x.entry x.plantId = .ok (mid, true) ∧
      serialApply c mid log = some db := by
  rw [serialApply] at h
  split at h
  · rename_i mid happ
    exact ⟨mid, happ, h⟩
  · cases h

theorem serialApply_concat (h : serialApply c init log = some db)
    (hx : applyEntry c db x.now x.entry x.plantId = .ok (db', true)) :
    serialApply c init (log ++ [x]) = some db' := by
  induction log generalizing init with
  | nil =>
      cases h
      simp only [List.nil_append, serialApply, hx]
  | cons y rest ih =>
      obtain ⟨mid, happ, hrest⟩ := serialApply_cons h
      simp only [List.cons_append, serialApply, happ]
      exact ih hrest

/-- The ledger grows by the ids of the items, which are new and distinct. -/
theorem serialApply_ids (h : serialApply c init log = some db) :
    (log.map fun x => x.entry.id).Nodup ∧ (∀ x ∈ log, x.entry.id ∉ init.appliedEntries) ∧
      ∀ id, id ∈ db.appliedEntries ↔
        id ∈ init.appliedEntries ∨ ∃ x ∈ log, x.entry.id = id := by
  induction log generalizing init with
  | nil =>
      cases h
      simp
  | cons x rest ih =>
      obtain ⟨mid, happ, hrest⟩ := serialApply_cons h
      obtain ⟨hnew, row, -, rfl⟩ := applyEntry_true happ
      obtain ⟨hnodup, hfresh, hmem⟩ := ih hrest
      simp only [commitEntry_appliedEntries, Finset.mem_insert, not_or] at hfresh hmem
      refine ⟨?_, ?_, ?_⟩
      · rw [List.map_cons, List.nodup_cons]
        refine ⟨?_, hnodup⟩
        intro hx
        obtain ⟨y, hy, hid⟩ := List.mem_map.mp hx
        exact (hfresh y hy).1 hid
      · intro y hy
        rcases List.mem_cons.mp hy with rfl | hy
        · exact hnew
        · exact (hfresh y hy).2
      · intro id
        rw [hmem id]
        simp only [List.mem_cons, exists_eq_or_imp]
        constructor
        · rintro ((rfl | hid) | hid)
          · exact Or.inr (Or.inl rfl)
          · exact Or.inl hid
          · exact Or.inr (Or.inr hid)
        · rintro (hid | rfl | hid)
          · exact Or.inl (Or.inr hid)
          · exact Or.inl (Or.inl rfl)
          · exact Or.inr hid

end Replay

section Isolation

variable {c : Codec} {db : Database} {now : Int} {e : SyncEntry} {rest : List SyncEntry}
  {plantId : Option String} {row row' : Option WorkOrderRow} {others : List Session}
  {s s' t : Session} {m : Move}

/-- The commit of another order and another number keeps what an entry writes. -/
theorem entryWrite_commitEntry (id : String)
    (hwrite : entryWrite c db now e plantId = .ok row)
    (hne : ∀ r, row = some r → ∀ r', row' = some r' → r'.id ≠ r.id ∧ r'.woNumber ≠ r.woNumber) :
    entryWrite c (commitEntry db id row') now e plantId = .ok row := by
  cases horder : entryOrder c e with
  | none => rw [entryWrite_of_no_order horder _ db, hwrite]
  | some wo =>
      cases row' with
      | none =>
          rw [entryWrite_of_order horder] at hwrite ⊢
          exact hwrite
      | some r' =>
          cases hupsert : upsertRow db now wo plantId with
          | error err =>
              rw [entryWrite_of_order horder, hupsert] at hwrite
              cases hwrite
          | ok r =>
              rw [entryWrite_of_order horder, hupsert] at hwrite
              cases hwrite
              have hrow := upsertRow_ok hupsert
              obtain ⟨hne_id, hne_number⟩ := hne r rfl r' rfl
              rw [hrow.id] at hne_id
              rw [hrow.woNumber] at hne_number
              have hlookup : (commitEntry db id (some r')).workOrders.lookup wo.id =
                  db.workOrders.lookup wo.id :=
                Table.lookup_put_of_ne (Ne.symm hne_id)
              have htaken : numberTaken (commitEntry db id (some r')).workOrders
                  wo.woNumber wo.id = numberTaken db.workOrders wo.woNumber wo.id := by
                rw [hrow.free, numberTaken_eq_false]
                intro q hq hqn
                rcases Table.mem_put.mp hq with rfl | ⟨hq, -⟩
                · exact absurd hqn hne_number
                · exact numberTaken_eq_false.mp hrow.free q hq hqn
              have hkeep : upsertRow (commitEntry db id (some r')) now wo plantId =
                  upsertRow db now wo plantId := upsertRow_congr rfl rfl hlookup htaken
              rw [entryWrite_of_order horder, hkeep, hupsert]

/-- Two open transactions claim different ids, and write different orders with
different numbers. -/
structure Compatible (s t : Session) : Prop where
  claims : ∀ id, s.holds = some id → t.holds ≠ some id
  rows : ∀ r, s.pending = some r → ∀ r', t.pending = some r' →
    r'.id ≠ r.id ∧ r'.woNumber ≠ r.woNumber

theorem Compatible.symm (h : Compatible s t) : Compatible t s where
  claims id ht hs := h.claims id hs ht
  rows r hr r' hr' := by
    obtain ⟨hid, hnumber⟩ := h.rows r' hr' r hr
    exact ⟨Ne.symm hid, Ne.symm hnumber⟩

/-- What holds of a session in the committed state. -/
structure SessionOk (c : Codec) (db : Database) (s : Session) : Prop where
  closed : s.error ≠ none → s.phase = .idle
  replayed : s.phase = .duplicate → ∀ e rest, s.todo = e :: rest → e.id ∈ db.appliedEntries
  unclaimed : ∀ id, s.holds = some id → id ∉ db.appliedEntries
  current : ∀ now row, s.phase = .written now row → ∃ e rest, s.todo = e :: rest ∧
    entryWrite c db now e s.plantId = .ok row

theorem Session.holds_of_idle (h : s.phase = .idle) : s.holds = none := by
  rw [Session.holds, h]

theorem Session.pending_of_idle (h : s.phase = .idle) : s.pending = none := by
  rw [Session.pending, h]

theorem Session.holds_of_claimed (h : s.phase = .claimed now) (htodo : s.todo = e :: rest) :
    s.holds = some e.id := by
  rw [Session.holds, h, htodo]

theorem Session.holds_of_written (h : s.phase = .written now row) (htodo : s.todo = e :: rest) :
    s.holds = some e.id := by
  rw [Session.holds, h, htodo]

theorem SessionOk.of_idle (h : s.phase = .idle) : SessionOk c db s where
  closed _ := h
  replayed hdup := by rw [h] at hdup; cases hdup
  unclaimed id hid := by rw [Session.holds_of_idle h] at hid; cases hid
  current now row hw := by rw [h] at hw; cases hw

theorem Compatible.of_free (hholds : s.holds = none) (hpending : s.pending = none)
    (t : Session) : Compatible s t where
  claims id hid := by rw [hholds] at hid; cases hid
  rows r hr := by rw [hpending] at hr; cases hr

theorem Compatible.of_idle (h : s.phase = .idle) (t : Session) : Compatible s t :=
  .of_free (Session.holds_of_idle h) (Session.pending_of_idle h) t

/-- A statement that is not the commit keeps its own session in order. -/
theorem SessionOk.becomes (h : SessionOk c db s) (herr : s.error = none)
    (htodo : s.todo = e :: rest) (hb : Becomes c db others s e rest m s') :
    SessionOk c db s' := by
  cases hb with
  | begun now =>
      exact
        { closed := fun hne => absurd herr hne
          replayed := fun hdup => nomatch hdup
          unclaimed := fun id hid => nomatch hid
          current := fun now row hw => nomatch hw }
  | duplicate hmem =>
      refine
        { closed := fun hne => absurd herr hne
          replayed := ?_
          unclaimed := fun id hid => nomatch hid
          current := fun now row hw => nomatch hw }
      intro _ e' rest' htodo'
      cases htodo.symm.trans htodo'
      exact hmem
  | claimed now hnot hfree =>
      refine
        { closed := fun hne => absurd herr hne
          replayed := fun hdup => nomatch hdup
          unclaimed := ?_
          current := fun now row hw => nomatch hw }
      intro id hid
      rw [Session.holds_of_claimed (s := { s with phase := .claimed now }) rfl htodo] at hid
      cases hid
      exact hnot
  | written now row hphase hblocked hwrite =>
      refine
        { closed := fun hne => absurd herr hne
          replayed := fun hdup => nomatch hdup
          unclaimed := ?_
          current := ?_ }
      · intro id hid
        rw [Session.holds_of_written (s := { s with phase := .written now row }) rfl htodo] at hid
        cases hid
        exact h.unclaimed _ (Session.holds_of_claimed hphase htodo)
      · intro now' row' hw
        cases hw
        exact ⟨e, rest, htodo, hwrite⟩
  | refused now err hphase => exact .of_idle rfl
  | skipped hphase => exact .of_idle rfl
  | lost err hm => exact .of_idle rfl

theorem pending_of_blocked {wo : WoPayload} {w : WorkOrderRow}
    (hblocked : blocked c db others e = false) (horder : entryOrder c e = some wo)
    (ht : t ∈ others) (hw : t.pending = some w) : w.id ≠ wo.id ∧ w.woNumber ≠ wo.woNumber := by
  unfold blocked at hblocked
  rw [horder] at hblocked
  have hnot := List.any_eq_false.mp hblocked t ht
  simp only [hw, decide_eq_true_eq, not_or] at hnot
  exact ⟨hnot.1, hnot.2.1⟩

/-- A claim waits for the claims of the others and an upsert for their rows. -/
theorem Compatible.becomes (h : Compatible s t) (htodo : s.todo = e :: rest) (ht : t ∈ others)
    (hb : Becomes c db others s e rest m s') : Compatible s' t := by
  cases hb with
  | begun now => exact .of_free rfl rfl t
  | duplicate hmem => exact .of_free rfl rfl t
  | claimed now hnot hfree =>
      refine { claims := ?_, rows := fun r hr => nomatch hr }
      intro id hid
      rw [Session.holds_of_claimed (s := { s with phase := .claimed now }) rfl htodo] at hid
      cases hid
      exact hfree t ht
  | written now row hphase hblocked hwrite =>
      refine { claims := ?_, rows := ?_ }
      · intro id hid
        rw [Session.holds_of_written (s := { s with phase := .written now row }) rfl htodo] at hid
        cases hid
        exact h.claims _ (Session.holds_of_claimed hphase htodo)
      · intro r hr r' hr'
        change row = some r at hr
        subst hr
        obtain ⟨wo, horder, hupsert⟩ := entryWrite_ok_some hwrite
        rw [(upsertRow_ok hupsert).id, (upsertRow_ok hupsert).woNumber]
        exact pending_of_blocked hblocked horder ht hr'
  | refused now err hphase => exact .of_idle rfl t
  | skipped hphase => exact .of_idle rfl t
  | lost err hm => exact .of_idle rfl t

/-- The commit of a compatible transaction leaves a session in order. -/
theorem SessionOk.commit (ht : SessionOk c db t) (hst : Compatible s t)
    (hphase : s.phase = .written now row) (htodo : s.todo = e :: rest) :
    SessionOk c (commitEntry db e.id row) t where
  closed := ht.closed
  replayed hdup e' rest' htodo' := Finset.mem_insert_of_mem (ht.replayed hdup e' rest' htodo')
  unclaimed id hid := by
    rw [commitEntry_appliedEntries, Finset.mem_insert, not_or]
    refine ⟨?_, ht.unclaimed id hid⟩
    rintro rfl
    exact hst.claims _ (Session.holds_of_written hphase htodo) hid
  current now' row' hw := by
    obtain ⟨e', rest', htodo', hwrite⟩ := ht.current now' row' hw
    refine ⟨e', rest', htodo', entryWrite_commitEntry e.id hwrite ?_⟩
    intro r hr r' hr'
    have hpending : s.pending = row := by rw [Session.pending, hphase]
    have hpending' : t.pending = row' := by rw [Session.pending, hw]
    exact hst.symm.rows r (hpending'.trans hr) r' (hpending.trans hr')

end Isolation

section Serializability

variable {c : Codec} {init : Database} {sys : State} {i j : ℕ} {s s' t : Session}

/-- The committed state is the replay of the log, and the open transactions are
in order and compatible. -/
structure Serialized (c : Codec) (init : Database) (sys : State) : Prop where
  replay : serialApply c init sys.log = some sys.db
  ok : ∀ (i : ℕ) s, sys.sessions[i]? = some s → SessionOk c sys.db s
  compatible : ∀ (i j : ℕ) s t, i ≠ j → sys.sessions[i]? = some s → sys.sessions[j]? = some t →
    Compatible s t

theorem getElem?_set_cases {sessions : List Session}
    (h : (sessions.set i s')[j]? = some t) :
    j = i ∧ t = s' ∨ j ≠ i ∧ sessions[j]? = some t := by
  rw [List.getElem?_set] at h
  split at h
  · rename_i hij
    split at h
    · cases h
      exact Or.inl ⟨hij.symm, rfl⟩
    · cases h
  · rename_i hij
    exact Or.inr ⟨Ne.symm hij, h⟩

theorem getElem?_concat_cases {sessions : List Session}
    (h : (sessions ++ [s'])[j]? = some t) :
    j = sessions.length ∧ t = s' ∨ sessions[j]? = some t := by
  rcases lt_trichotomy j sessions.length with hlt | rfl | hgt
  · rw [List.getElem?_append_left hlt] at h
    exact Or.inr h
  · rw [List.getElem?_concat_length] at h
    cases h
    exact Or.inl ⟨rfl, rfl⟩
  · rw [List.getElem?_eq_none (by simp; omega)] at h
    cases h

theorem Serialized.initial (c : Codec) (init : Database) : Serialized c init { db := init } where
  replay := rfl
  ok _ _ h := nomatch h
  compatible _ _ _ _ _ h := nomatch h

/-- One session changes, and with it the database and the log. -/
theorem Serialized.set {db : Database} {log : List LogItem} (h : Serialized c init sys)
    (hreplay : serialApply c init log = some db) (hok : SessionOk c db s')
    (hothers : ∀ (j : ℕ) t, j ≠ i → sys.sessions[j]? = some t →
      SessionOk c db t ∧ Compatible s' t) :
    Serialized c init { db, sessions := sys.sessions.set i s', log } where
  replay := hreplay
  ok j t ht := by
    rcases getElem?_set_cases ht with ⟨-, rfl⟩ | ⟨hj, htj⟩
    · exact hok
    · exact (hothers j t hj htj).1
  compatible j k t u hjk ht hu := by
    rcases getElem?_set_cases ht with ⟨rfl, rfl⟩ | ⟨hj, htj⟩
    · rcases getElem?_set_cases hu with ⟨rfl, -⟩ | ⟨hk, huk⟩
      · exact absurd rfl hjk
      · exact (hothers k u hk huk).2
    · rcases getElem?_set_cases hu with ⟨rfl, rfl⟩ | ⟨hk, huk⟩
      · exact (hothers j t hj htj).2.symm
      · exact h.compatible j k t u hjk htj huk

theorem Serialized.call (h : Serialized c init sys) (hidle : s'.phase = .idle) :
    Serialized c init { sys with sessions := sys.sessions ++ [s'] } where
  replay := h.replay
  ok j t ht := by
    rcases getElem?_concat_cases ht with ⟨-, rfl⟩ | ht
    · exact .of_idle hidle
    · exact h.ok j t ht
  compatible j k t u hjk ht hu := by
    rcases getElem?_concat_cases ht with ⟨rfl, rfl⟩ | ht
    · exact .of_idle hidle u
    · rcases getElem?_concat_cases hu with ⟨rfl, rfl⟩ | hu
      · exact (Compatible.of_idle hidle t).symm
      · exact h.compatible j k t u hjk ht hu

/-- The commit of a session that is in order is an application of its entry. -/
theorem Serialized.commit {e : SyncEntry} {rest : List SyncEntry} {now : Int}
    {row : Option WorkOrderRow} (h : Serialized c init sys) (hs : sys.sessions[i]? = some s)
    (htodo : s.todo = e :: rest) (hphase : s.phase = .written now row) :
    Serialized c init
      { db := commitEntry sys.db e.id row
        sessions := sys.sessions.set i (s.advance rest)
        log := sys.log ++ [⟨i, e, s.plantId, now⟩] } := by
  have hnot : e.id ∉ sys.db.appliedEntries :=
    (h.ok i s hs).unclaimed _ (Session.holds_of_written hphase htodo)
  obtain ⟨e', rest', htodo', hwrite⟩ := (h.ok i s hs).current now row hphase
  cases htodo.symm.trans htodo'
  have happ : applyEntry c sys.db now e s.plantId = .ok (commitEntry sys.db e.id row, true) := by
    rw [applyEntry_of_notMem hnot, hwrite]
  refine h.set (serialApply_concat h.replay happ) (.of_idle rfl) ?_
  intro j t hj ht
  have hst : Compatible s t := h.compatible i j s t (Ne.symm hj) hs ht
  exact ⟨(h.ok j t ht).commit hst hphase htodo, .of_idle rfl t⟩

theorem Serialized.after_step (h : Serialized c init sys) (a : Act) :
    Serialized c init (step c sys a) := by
  rcases step_cases c sys a with ⟨i, m, rfl, heq⟩ | ⟨batch, plantId, -, heq⟩ |
      ⟨i, m, s, e, rest, -, hs, herr, htodo, ⟨s', hb, heq⟩ | ⟨now, row, hphase, heq⟩⟩
  · rw [heq]
    exact h
  · rw [heq]
    exact h.call rfl
  · rw [heq]
    refine h.set h.replay ((h.ok i s hs).becomes herr htodo hb) ?_
    intro j t hj ht
    have hmem : t ∈ sys.sessions.eraseIdx i := List.mem_eraseIdx_iff_getElem?.mpr ⟨j, hj, ht⟩
    exact ⟨h.ok j t ht, (h.compatible i j s t (Ne.symm hj) hs ht).becomes htodo hmem hb⟩
  · rw [heq]
    exact h.commit hs htodo hphase

theorem Serialized.after_exec (c : Codec) (init : Database) (run : List Act) :
    Serialized c init (exec c init run) := by
  have hrun : ∀ sys, Serialized c init sys → Serialized c init (run.foldl (step c) sys) := by
    induction run with
    | nil => exact fun sys h => h
    | cons a rest ih => exact fun sys h => ih _ (h.after_step a)
  exact hrun _ (Serialized.initial c init)

end Serializability

section Progress

variable {c : Codec} {init : Database} {sys : State} {i j : ℕ} {s s' t : Session}
  {history : List (List SyncEntry × Option String)}

/-- The batches and plants of the calls, in the order of the calls. -/
def calls (run : List Act) : List (List SyncEntry × Option String) :=
  run.filterMap fun
    | .call batch plantId => some (batch, plantId)
    | .move _ _ => none

theorem calls_move (i : ℕ) (m : Move) : calls [.move i m] = [] := rfl

theorem calls_cons (a : Act) (run : List Act) : calls (a :: run) = calls [a] ++ calls run := by
  cases a <;> rfl

/-- The entries that a session has committed, in order. -/
def commits (log : List LogItem) (i : ℕ) : List SyncEntry :=
  (log.filter fun x => x.session = i).map LogItem.entry

/-- A call has worked off a first part of its batch. Each entry of that part is
in the ledger, and the call has committed the ones it counts as applied. -/
structure Progress (history : List (List SyncEntry × Option String)) (sys : State) (i : ℕ)
    (s : Session) (done : List SyncEntry) : Prop where
  batch : history[i]? = some (done ++ s.todo, s.plantId)
  ledger : ∀ e ∈ done, e.id ∈ sys.db.appliedEntries
  counted : s.applied + s.skipped = done.length
  committed : (commits sys.log i).Sublist done
  applied : (commits sys.log i).length = s.applied

/-- Every session is a call, and every logged item is a session's. -/
structure Served (history : List (List SyncEntry × Option String)) (sys : State) : Prop where
  length : sys.sessions.length = history.length
  progress : ∀ (i : ℕ) s, sys.sessions[i]? = some s → ∃ done, Progress history sys i s done
  logged : ∀ x ∈ sys.log, ∃ s, sys.sessions[x.session]? = some s ∧ s.plantId = x.plantId

theorem commits_concat_self (log : List LogItem) (e : SyncEntry) (plantId : Option String)
    (now : Int) : commits (log ++ [⟨i, e, plantId, now⟩]) i = commits log i ++ [e] := by
  simp [commits]

theorem commits_concat_of_ne (log : List LogItem) (e : SyncEntry) (plantId : Option String)
    (now : Int) (h : i ≠ j) : commits (log ++ [⟨i, e, plantId, now⟩]) j = commits log j := by
  simp [commits, h]

theorem commits_eq_nil (h : ∀ x ∈ sys.log, x.session ≠ i) : commits sys.log i = [] := by
  rw [commits, List.map_eq_nil_iff, List.filter_eq_nil_iff]
  intro x hx hi
  exact h x hx (of_decide_eq_true hi)

/-- A session that keeps its batch, its counts and what it has committed keeps
its progress. -/
theorem Progress.keep {sys' : State} {done : List SyncEntry}
    (h : Progress history sys i s done) (htodo : s'.todo = s.todo)
    (hplant : s'.plantId = s.plantId) (happlied : s'.applied = s.applied)
    (hskipped : s'.skipped = s.skipped)
    (hledger : sys.db.appliedEntries ⊆ sys'.db.appliedEntries)
    (hcommits : commits sys'.log i = commits sys.log i) :
    Progress history sys' i s' done where
  batch := by rw [htodo, hplant]; exact h.batch
  ledger e he := hledger (h.ledger e he)
  counted := by rw [happlied, hskipped]; exact h.counted
  committed := by rw [hcommits]; exact h.committed
  applied := by rw [hcommits, happlied]; exact h.applied

/-- A step that does not commit moves a session on by at most a replay. -/
theorem Progress.becomes {done : List SyncEntry} {e : SyncEntry} {rest : List SyncEntry}
    {others : List Session} {m : Move} (h : Progress history sys i s done)
    (hok : SessionOk c sys.db s)
    (htodo : s.todo = e :: rest) (hb : Becomes c sys.db others s e rest m s')
    (sessions : List Session) :
    ∃ done', Progress history { sys with sessions } i s' done' := by
  cases hb with
  | skipped hphase =>
      refine ⟨done ++ [e], ?_⟩
      exact
        { batch := by
            rw [List.append_assoc, List.singleton_append]
            exact htodo ▸ h.batch
          ledger := by
            intro e' he'
            rcases List.mem_append.mp he' with he' | he'
            · exact h.ledger e' he'
            · rw [List.mem_singleton.mp he']
              exact hok.replayed hphase e rest htodo
          counted := by
            have hcount := h.counted
            simp only [Session.skip, List.length_append, List.length_singleton]
            omega
          committed := h.committed.trans (List.sublist_append_left done [e])
          applied := h.applied }
  | _ => exact ⟨done, h.keep rfl rfl rfl rfl (Finset.Subset.refl _) rfl⟩

theorem Progress.commit {done : List SyncEntry} {e : SyncEntry} {rest : List SyncEntry}
    (h : Progress history sys i s done) (htodo : s.todo = e :: rest) (now : Int)
    (row : Option WorkOrderRow) (sessions : List Session) :
    Progress history
      { db := commitEntry sys.db e.id row
        sessions
        log := sys.log ++ [⟨i, e, s.plantId, now⟩] } i (s.advance rest) (done ++ [e]) where
  batch := by
    rw [List.append_assoc, List.singleton_append]
    exact htodo ▸ h.batch
  ledger e' he' := by
    rcases List.mem_append.mp he' with he' | he'
    · exact Finset.mem_insert_of_mem (h.ledger e' he')
    · rw [List.mem_singleton.mp he']
      exact Finset.mem_insert_self _ _
  counted := by
    have hcount := h.counted
    simp only [Session.advance, List.length_append, List.length_singleton]
    omega
  committed := by
    rw [commits_concat_self]
    exact h.committed.append (List.Sublist.refl [e])
  applied := by
    rw [commits_concat_self, List.length_append, h.applied]
    rfl

theorem Progress.extend {done : List SyncEntry} (h : Progress history sys i s done)
    (more : List (List SyncEntry × Option String)) :
    Progress (history ++ more) sys i s done where
  batch := List.getElem?_append_left (List.getElem?_eq_some_iff.mp h.batch).1 ▸ h.batch
  ledger := h.ledger
  counted := h.counted
  committed := h.committed
  applied := h.applied

theorem Served.call (h : Served history sys) (batch : List SyncEntry) (plantId : Option String) :
    Served (history ++ [(batch, plantId)])
      { sys with sessions := sys.sessions ++ [{ plantId, todo := batch }] } where
  length := by simp [h.length]
  progress j t ht := by
    rcases getElem?_concat_cases ht with ⟨rfl, rfl⟩ | ht
    · have hnone : commits sys.log sys.sessions.length = [] := by
        apply commits_eq_nil
        intro x hx hlast
        obtain ⟨s, hs, -⟩ := h.logged x hx
        rw [hlast, List.getElem?_eq_none le_rfl] at hs
        cases hs
      refine ⟨[], ?_⟩
      exact
        { batch := by rw [h.length, List.getElem?_concat_length]; rfl
          ledger := fun e he => absurd he List.not_mem_nil
          counted := rfl
          committed := by rw [hnone]
          applied := by rw [hnone]; rfl }
    · obtain ⟨done, hdone⟩ := h.progress j t ht
      exact ⟨done, (hdone.extend _).keep rfl rfl rfl rfl (Finset.Subset.refl _) rfl⟩
  logged x hx := by
    obtain ⟨s, hs, hplant⟩ := h.logged x hx
    exact ⟨s, (List.getElem?_append_left (List.getElem?_eq_some_iff.mp hs).1).trans hs, hplant⟩

/-- One session moves on; the others keep what they have committed. -/
theorem Served.set {db : Database} {log : List LogItem} (h : Served history sys)
    (hs : sys.sessions[i]? = some s) (hplant : s'.plantId = s.plantId)
    (hledger : sys.db.appliedEntries ⊆ db.appliedEntries)
    (hcommits : ∀ j, j ≠ i → commits log j = commits sys.log j)
    (hlog : ∀ x ∈ log, x ∈ sys.log ∨ x.session = i ∧ x.plantId = s.plantId)
    (hprogress : ∃ done,
      Progress history { db, sessions := sys.sessions.set i s', log } i s' done) :
    Served history { db, sessions := sys.sessions.set i s', log } where
  length := by rw [List.length_set]; exact h.length
  progress j t ht := by
    rcases getElem?_set_cases ht with ⟨rfl, rfl⟩ | ⟨hj, htj⟩
    · exact hprogress
    · obtain ⟨done, hdone⟩ := h.progress j t htj
      exact ⟨done, hdone.keep rfl rfl rfl rfl hledger (hcommits j hj)⟩
  logged x hx := by
    have hself : (sys.sessions.set i s')[i]? = some s' :=
      List.getElem?_set_self (List.getElem?_eq_some_iff.mp hs).1
    rcases hlog x hx with hx | ⟨rfl, hplant'⟩
    · obtain ⟨t, ht, hplant'⟩ := h.logged x hx
      by_cases hi : x.session = i
      · refine ⟨s', hi ▸ hself, ?_⟩
        rw [hi, hs] at ht
        cases ht
        exact hplant.trans hplant'
      · exact ⟨t, (List.getElem?_set_ne (Ne.symm hi)).trans ht, hplant'⟩
    · exact ⟨s', hself, hplant.trans hplant'.symm⟩

theorem Becomes.plantId_eq {db : Database} {others : List Session} {e : SyncEntry}
    {rest : List SyncEntry} {m : Move} (h : Becomes c db others s e rest m s') :
    s'.plantId = s.plantId := by
  cases h <;> rfl

theorem Served.after_step (h : Served history sys) (hser : Serialized c init sys) (a : Act) :
    Served (history ++ calls [a]) (step c sys a) := by
  rcases step_cases c sys a with ⟨i, m, rfl, heq⟩ | ⟨batch, plantId, rfl, heq⟩ |
      ⟨i, m, s, e, rest, rfl, hs, herr, htodo, ⟨s', hb, heq⟩ | ⟨now, row, hphase, heq⟩⟩
  · rw [heq, calls_move, List.append_nil]
    exact h
  · rw [heq]
    exact h.call batch plantId
  · rw [heq, calls_move, List.append_nil]
    obtain ⟨done, hdone⟩ := h.progress i s hs
    exact h.set hs hb.plantId_eq (Finset.Subset.refl _) (fun _ _ => rfl) (fun x hx => Or.inl hx)
      (hdone.becomes (hser.ok i s hs) htodo hb _)
  · rw [heq, calls_move, List.append_nil]
    obtain ⟨done, hdone⟩ := h.progress i s hs
    refine h.set hs rfl (Finset.subset_insert _ _) ?_ ?_ ⟨_, hdone.commit htodo now row _⟩
    · intro j hj
      exact commits_concat_of_ne _ _ _ _ (Ne.symm hj)
    · intro x hx
      rcases List.mem_append.mp hx with hx | hx
      · exact Or.inl hx
      · rw [List.mem_singleton.mp hx]
        exact Or.inr ⟨rfl, rfl⟩

theorem Served.initial (init : Database) : Served [] { db := init } where
  length := rfl
  progress _ _ h := nomatch h
  logged _ h := nomatch h

theorem Served.after_exec (c : Codec) (init : Database) (run : List Act) :
    Served (calls run) (exec c init run) := by
  have hrun : ∀ history sys, Served history sys → Serialized c init sys →
      Served (history ++ calls run) (run.foldl (step c) sys) := by
    induction run with
    | nil =>
        intro history sys h _
        rw [calls, List.filterMap_nil, List.append_nil]
        exact h
    | cons a rest ih =>
        intro history sys h hser
        rw [calls_cons, ← List.append_assoc]
        exact ih _ _ (h.after_step hser a) (hser.after_step a)
  exact hrun [] _ (Served.initial init) (Serialized.initial c init)

end Progress

section Turns

variable {c : Codec} {sys : State} {i : ℕ} {s : Session} {e : SyncEntry}
  {rest : List SyncEntry} {now : Int}

/-- The four statements of one entry. -/
def turn (i : ℕ) (now : Int) : List Act :=
  [.move i (.start now), .move i .claim, .move i .write, .move i .commit]

/-- A session makes the statements of `n` entries without being interrupted. -/
def turns (i : ℕ) : (ℕ → Int) → ℕ → List Act
  | _, 0 => []
  | now, n + 1 => turn i (now 0) ++ turns i (now ∘ Nat.succ) n

/-- Nobody makes the session wait at this entry. -/
def Unhindered (sys : State) (i : ℕ) (e : SyncEntry) : Prop :=
  e.id ∈ sys.db.appliedEntries ∨
    ∀ t ∈ sys.sessions.eraseIdx i, t.holds = none ∧ t.pending = none

def State.put (sys : State) (i : ℕ) (s : Session) : State :=
  { sys with sessions := sys.sessions.set i s }

theorem step_put (hi : i < sys.sessions.length) (herr : s.error = none)
    (htodo : s.todo = e :: rest) (m : Move) :
    step c (sys.put i s) (.move i m) =
      match react c sys.db (sys.sessions.eraseIdx i) s e rest m with
      | .stay => sys.put i s
      | .become s' => sys.put i s'
      | .commit now row =>
          State.put
            { db := commitEntry sys.db e.id row
              sessions := sys.sessions
              log := sys.log ++ [⟨i, e, s.plantId, now⟩] } i (s.advance rest) := by
  have hs : (sys.put i s).sessions[i]? = some s := List.getElem?_set_self hi
  have hothers : (sys.put i s).sessions.eraseIdx i = sys.sessions.eraseIdx i :=
    List.eraseIdx_set_eq
  have hset : ∀ s', (sys.put i s).sessions.set i s' = sys.sessions.set i s' :=
    fun _ => List.set_set _
  rw [step, hs]
  dsimp only
  rw [herr, htodo]
  dsimp only
  rw [hothers]
  simp only [hset]
  rfl

theorem step_failed (hs : sys.sessions[i]? = some s) (herr : s.error ≠ none) (m : Move) :
    step c sys (.move i m) = sys := by
  rw [step, hs]
  dsimp only
  cases h : s.error with
  | none => exact absurd h herr
  | some err => rfl

/-- Where no other transaction has written a row, no upsert waits. -/
theorem blocked_eq_false {db : Database} {others : List Session}
    (h : ∀ t ∈ others, t.pending = none) : blocked c db others e = false := by
  unfold blocked
  cases entryOrder c e with
  | none => rfl
  | some wo =>
      apply List.any_eq_false.mpr
      intro t ht
      simp [h t ht]

/-- An unhindered session does to its entry what `apply_entry` does. -/
theorem turn_eq (hi : i < sys.sessions.length) (hphase : s.phase = .idle) (herr : s.error = none)
    (htodo : s.todo = e :: rest) (hfree : Unhindered sys i e) (now : Int) :
    (turn i now).foldl (step c) (sys.put i s) =
      match applyEntry c sys.db now e s.plantId with
      | .error err => sys.put i (s.fail err)
      | .ok (_, false) => sys.put i (s.skip rest)
      | .ok (db, true) =>
          State.put
            { db
              sessions := sys.sessions
              log := sys.log ++ [⟨i, e, s.plantId, now⟩] } i (s.advance rest) := by
  have hstart : step c (sys.put i s) (.move i (.start now)) =
      sys.put i { s with phase := .begun now } := by
    rw [step_put hi herr htodo]
    simp only [react, hphase]
  simp only [turn, List.foldl, hstart]
  by_cases hmem : e.id ∈ sys.db.appliedEntries
  · rw [applyEntry_of_mem hmem]
    rw [step_put hi (s := { s with phase := .begun now }) herr htodo]
    simp only [react, hmem, if_true]
    rw [step_put hi (s := { s with phase := .duplicate }) herr htodo]
    simp only [react]
    rw [step_put hi (s := { s with phase := .duplicate }) herr htodo]
    rfl
  · have hothers := hfree.resolve_left hmem
    have hclaim : ((sys.sessions.eraseIdx i).any fun t => t.holds = some e.id) = false := by
      rw [List.any_eq_false]
      intro t ht
      simp [(hothers t ht).1]
    have hblocked : blocked c sys.db (sys.sessions.eraseIdx i) e = false :=
      blocked_eq_false fun t ht => (hothers t ht).2
    rw [step_put hi (s := { s with phase := .begun now }) herr htodo]
    simp only [react, hmem, if_false, hclaim, Bool.false_eq_true]
    rw [step_put hi (s := { s with phase := .claimed now }) herr htodo]
    simp only [react, hblocked, Bool.false_eq_true, if_false]
    rw [applyEntry_of_notMem hmem]
    cases hw : entryWrite c sys.db now e s.plantId with
    | error err =>
        dsimp only
        exact step_failed (s := s.fail err) (List.getElem?_set_self hi) (by simp [Session.fail]) _
    | ok row =>
        dsimp only
        rw [step_put hi (s := { s with phase := .written now row }) herr htodo]
        rfl

theorem turns_failed (hs : sys.sessions[i]? = some s) (herr : s.error ≠ none) (clock : ℕ → Int)
    (n : ℕ) : (turns i clock n).foldl (step c) sys = sys := by
  induction n generalizing clock with
  | zero => rfl
  | succ n ih =>
      rw [turns, List.foldl_append]
      simp only [turn, List.foldl, step_failed hs herr]
      exact ih _

theorem Unhindered.put {sys' : State} (h : Unhindered sys i e)
    (hsessions : sys'.sessions = sys.sessions)
    (hledger : sys.db.appliedEntries ⊆ sys'.db.appliedEntries) (s : Session) :
    Unhindered (sys'.put i s) i e := by
  rcases h with hmem | hothers
  · exact Or.inl (hledger hmem)
  · refine Or.inr ?_
    rw [State.put, List.eraseIdx_set_eq, hsessions]
    exact hothers

/-- An unhindered call returns what `apply_batch` returns and leaves its state. -/
theorem turns_eq_applyBatchLoop (clock : ℕ → Int) (hs : sys.sessions[i]? = some s)
    (hphase : s.phase = .idle) (herr : s.error = none)
    (hfree : ∀ e ∈ s.todo, Unhindered sys i e) :
    ((turns i clock s.todo.length).foldl (step c) sys).db =
        (applyBatchLoop c s.plantId clock sys.db s.todo s.applied s.skipped).1 ∧
      ∃ s', ((turns i clock s.todo.length).foldl (step c) sys).sessions[i]? = some s' ∧
        s'.result =
          some (applyBatchLoop c s.plantId clock sys.db s.todo s.applied s.skipped).2 := by
  induction htodo : s.todo generalizing sys s clock with
  | nil => exact ⟨rfl, s, hs, by rw [Session.result, herr, htodo]; rfl⟩
  | cons e rest ih =>
      obtain ⟨hi, hget⟩ := List.getElem?_eq_some_iff.mp hs
      have hput : sys.put i s = sys := by
        rw [State.put, ← hget, List.set_getElem_self]
      have hself : ∀ sys' : State, sys'.sessions = sys.sessions → ∀ s',
          (sys'.put i s').sessions[i]? = some s' := by
        intro sys' heq s'
        exact List.getElem?_set_self (heq ▸ hi)
      have hrest : ∀ e' ∈ rest, Unhindered sys i e' :=
        fun e' he' => hfree e' (htodo ▸ List.mem_cons_of_mem _ he')
      have hturn := turn_eq (c := c) hi hphase herr htodo
        (hfree e (htodo ▸ List.mem_cons_self)) (clock 0)
      rw [hput] at hturn
      rw [List.length_cons, turns, List.foldl_append, hturn, applyBatchLoop]
      cases happ : applyEntry c sys.db (clock 0) e s.plantId with
      | error err =>
          dsimp only
          have hfail := hself sys rfl (s.fail err)
          rw [turns_failed hfail (by simp [Session.fail])]
          exact ⟨rfl, _, hfail, rfl⟩
      | ok res =>
          obtain ⟨db, b⟩ := res
          cases b with
          | true =>
              obtain ⟨-, row, -, rfl⟩ := applyEntry_true happ
              let next : State :=
                { db := commitEntry sys.db e.id row
                  sessions := sys.sessions
                  log := sys.log ++ [⟨i, e, s.plantId, clock 0⟩] }
              refine ih _ (hself next rfl (s.advance rest)) rfl herr ?_ rfl
              intro e' he'
              exact (hrest e' he').put (rfl : next.sessions = sys.sessions)
                (Finset.subset_insert _ _) _
          | false =>
              obtain rfl := applyEntry_false happ
              refine ih _ (hself sys rfl (s.skip rest)) rfl herr ?_ rfl
              intro e' he'
              exact (hrest e' he').put rfl (Finset.Subset.refl _) _

end Turns

section Replays

variable {c : Codec} {init : Database} {sys : State} {i : ℕ} {s : Session}

/-- A call that has applied nothing and whose entries are all in the ledger. -/
structure Replaying (sys : State) (i : ℕ) (s : Session) : Prop where
  session : sys.sessions[i]? = some s
  applied : s.applied = 0
  ledger : ∀ e ∈ s.todo, e.id ∈ sys.db.appliedEntries

/-- A replaying call goes on replaying, and only the loss of its connection can
make it fail. -/
theorem Replaying.after_step (h : Replaying sys i s) (hser : Serialized c init sys) (a : Act) :
    ∃ s', Replaying (step c sys a) i s' ∧
      (s.error = none → s'.error = none ∨ ∃ err, a = .move i (.abort err)) := by
  have hi : i < sys.sessions.length := (List.getElem?_eq_some_iff.mp h.session).1
  rcases step_cases c sys a with ⟨j, m, -, heq⟩ | ⟨batch, plantId, -, heq⟩ |
      ⟨j, m, t, e, rest, rfl, ht, herr, htodo, ⟨t', hb, heq⟩ | ⟨now, row, hphase, heq⟩⟩
  · rw [heq]
    exact ⟨s, h, Or.inl⟩
  · rw [heq]
    refine ⟨s, ⟨?_, h.applied, h.ledger⟩, Or.inl⟩
    exact (List.getElem?_append_left hi).trans h.session
  · rw [heq]
    by_cases hj : j = i
    · subst hj
      cases h.session.symm.trans ht
      have hself : (sys.sessions.set j t')[j]? = some t' := List.getElem?_set_self hi
      have hhead : e.id ∈ sys.db.appliedEntries := h.ledger e (htodo ▸ List.mem_cons_self)
      refine ⟨t', ?_, ?_⟩
      · cases hb with
        | skipped hphase =>
            refine ⟨hself, h.applied, ?_⟩
            intro e' he'
            exact h.ledger e' (htodo ▸ List.mem_cons_of_mem _ he')
        | _ => exact ⟨hself, h.applied, h.ledger⟩
      · intro _
        cases hb with
        | refused now err hphase =>
            -- a claim is not in the ledger, but the entry is
            have hnot := (hser.ok j s ht).unclaimed _ (Session.holds_of_claimed hphase htodo)
            exact absurd hhead hnot
        | lost err hm => exact Or.inr ⟨err, by rw [hm]⟩
        | _ => exact Or.inl herr
    · refine ⟨s, ⟨?_, h.applied, h.ledger⟩, Or.inl⟩
      exact (List.getElem?_set_ne hj).trans h.session
  · rw [heq]
    by_cases hj : j = i
    · subst hj
      cases h.session.symm.trans ht
      have hnot := (hser.ok j s ht).unclaimed _ (Session.holds_of_written hphase htodo)
      exact absurd (h.ledger e (htodo ▸ List.mem_cons_self)) hnot
    · refine ⟨s, ⟨?_, h.applied, ?_⟩, Or.inl⟩
      · exact (List.getElem?_set_ne hj).trans h.session
      · intro e' he'
        exact Finset.mem_insert_of_mem (h.ledger e' he')

theorem Replaying.after_run (h : Replaying sys i s) (hser : Serialized c init sys)
    (run : List Act) :
    ∃ s', Replaying (run.foldl (step c) sys) i s' ∧
      (s.error = none → s'.error = none ∨ ∃ err, .move i (.abort err) ∈ run) := by
  induction run generalizing sys s with
  | nil => exact ⟨s, h, Or.inl⟩
  | cons a rest ih =>
      obtain ⟨mid, hmid, hstep⟩ := h.after_step hser a
      obtain ⟨s', hlast, hrest⟩ := ih hmid (hser.after_step a)
      refine ⟨s', hlast, ?_⟩
      intro herr
      rcases hstep herr with hnone | ⟨err, rfl⟩
      · rcases hrest hnone with hnone | ⟨err, hmem⟩
        · exact Or.inl hnone
        · exact Or.inr ⟨err, List.mem_cons_of_mem _ hmem⟩
      · exact Or.inr ⟨err, List.mem_cons_self⟩

theorem applyBatchLoop_replay {db : Database} {plantId : Option String} {batch : List SyncEntry}
    (h : ∀ e ∈ batch, e.id ∈ db.appliedEntries) (clock : ℕ → Int) (applied skipped : ℕ) :
    applyBatchLoop c plantId clock db batch applied skipped =
      (db, .ok (applied, skipped + batch.length)) := by
  induction batch generalizing clock skipped with
  | nil => rfl
  | cons e rest ih =>
      rw [applyBatchLoop, applyEntry_of_mem (h e List.mem_cons_self)]
      dsimp only
      rw [ih (fun e' he' => h e' (List.mem_cons_of_mem _ he')), List.length_cons,
        Nat.add_right_comm, Nat.add_assoc]

end Replays

section Reached

variable {c : Codec} {init : Database} {run : List Act} {i : ℕ} {s t : Session}

/-- Every logged entry comes from the batch of the call that committed it. -/
theorem logged_of_call {x : LogItem} (hx : x ∈ (exec c init run).log) :
    ∃ batch, (calls run)[x.session]? = some (batch, x.plantId) ∧ x.entry ∈ batch := by
  have hserved := Served.after_exec c init run
  obtain ⟨s, hs, hplant⟩ := hserved.logged x hx
  obtain ⟨done, hdone⟩ := hserved.progress _ s hs
  refine ⟨done ++ s.todo, hplant ▸ hdone.batch, List.mem_append_left _ ?_⟩
  apply hdone.committed.subset
  exact List.mem_map_of_mem (List.mem_filter.mpr ⟨hx, decide_eq_true rfl⟩)

/-- A step after which a call has failed takes its claim and its row back. -/
theorem failed_takes_back (a : Act) (hs : (exec c init run).sessions[i]? = some s)
    (herr : s.error = none) (ht : (step c (exec c init run) a).sessions[i]? = some t)
    (hfail : t.error ≠ none) :
    (step c (exec c init run) a).db = (exec c init run).db ∧
      (step c (exec c init run) a).log = (exec c init run).log ∧
      t.holds = none ∧ t.pending = none ∧
      ∀ id, s.holds = some id → id ∉ (step c (exec c init run) a).db.appliedEntries := by
  have hser := Serialized.after_exec c init run
  have hidle : t.phase = .idle := ((hser.after_step a).ok i t ht).closed hfail
  have hdb : (step c (exec c init run) a).db = (exec c init run).db ∧
      (step c (exec c init run) a).log = (exec c init run).log := by
    rcases step_cases c (exec c init run) a with ⟨j, m, -, heq⟩ | ⟨batch, plantId, -, heq⟩ |
        ⟨j, m, u, e, rest, -, hu, huerr, htodo, ⟨u', hb, heq⟩ | ⟨now, row, hphase, heq⟩⟩
    · exact ⟨by rw [heq], by rw [heq]⟩
    · exact ⟨by rw [heq], by rw [heq]⟩
    · exact ⟨by rw [heq], by rw [heq]⟩
    · -- a commit leaves the error of every session as it was
      rw [heq] at ht
      rcases getElem?_set_cases ht with ⟨rfl, rfl⟩ | ⟨-, ht⟩
      · exact absurd huerr hfail
      · cases hs.symm.trans ht
        exact absurd herr hfail
  refine ⟨hdb.1, hdb.2, Session.holds_of_idle hidle, Session.pending_of_idle hidle, ?_⟩
  intro id hid
  rw [hdb.1]
  exact (hser.ok i s hs).unclaimed id hid

variable {batch : List SyncEntry} {plantId : Option String}

theorem replaying_call (plantId : Option String)
    (h : ∀ e ∈ batch, e.id ∈ (exec c init run).db.appliedEntries) :
    Replaying (step c (exec c init run) (.call batch plantId)) (exec c init run).sessions.length
      { plantId, todo := batch } where
  session := List.getElem?_concat_length
  applied := rfl
  ledger := h

theorem exec_call (more : List Act) :
    exec c init (run ++ .call batch plantId :: more) =
      more.foldl (step c) (step c (exec c init run) (.call batch plantId)) := by
  rw [exec, List.foldl_append]
  rfl

theorem calls_at_call (more : List Act) :
    (calls (run ++ .call batch plantId :: more))[(exec c init run).sessions.length]? =
      some (batch, plantId) := by
  rw [(Served.after_exec c init run).length, calls, List.filterMap_append]
  change (calls run ++ (batch, plantId) :: calls more)[(calls run).length]? = _
  rw [List.getElem?_append_right le_rfl, Nat.sub_self, List.getElem?_cons_zero]

/-- Pushed again, a batch commits nothing and is counted as skipped. -/
theorem repush_skips (h : ∀ e ∈ batch, e.id ∈ (exec c init run).db.appliedEntries)
    (more : List Act) :
    ∃ s, (exec c init (run ++ .call batch plantId :: more)).sessions[
          (exec c init run).sessions.length]? = some s ∧
      commits (exec c init (run ++ .call batch plantId :: more)).log
        (exec c init run).sessions.length = [] ∧
      (s.result = none ∨ s.result = some (.ok (0, batch.length)) ∨
        ∃ err, .move (exec c init run).sessions.length (.abort err) ∈ more) := by
  have hser := Serialized.after_exec c init run
  obtain ⟨s, hs, herr⟩ :=
    (replaying_call plantId h).after_run (hser.after_step _) more
  rw [← exec_call] at hs
  obtain ⟨done, hdone⟩ := (Served.after_exec c init _).progress _ s hs.session
  refine ⟨s, hs.session, ?_, ?_⟩
  · exact List.length_eq_zero_iff.mp (hdone.applied.trans hs.applied)
  · have hbatch : done ++ s.todo = batch := by
      have hcall := (calls_at_call more).symm.trans hdone.batch
      injection hcall with hcall
      injection hcall with hcall
      exact hcall.symm
    rcases herr rfl with herr | habort
    · rw [Session.result, herr]
      cases htodo : s.todo with
      | cons e rest => exact Or.inl rfl
      | nil =>
          have hcount := hdone.counted
          rw [htodo, List.append_nil] at hbatch
          rw [hs.applied, Nat.zero_add, hbatch] at hcount
          rw [hs.applied, hcount]
          exact Or.inr (Or.inl rfl)
    · exact Or.inr (Or.inr habort)

/-- Nothing makes it wait, so it returns. -/
theorem repush_returns (h : ∀ e ∈ batch, e.id ∈ (exec c init run).db.appliedEntries)
    (clock : ℕ → Int) :
    ∃ s, (exec c init (run ++ .call batch plantId ::
          turns (exec c init run).sessions.length clock batch.length)).db =
        (exec c init run).db ∧
      (exec c init (run ++ .call batch plantId ::
          turns (exec c init run).sessions.length clock batch.length)).sessions[
          (exec c init run).sessions.length]? = some s ∧
      s.result = some (.ok (0, batch.length)) := by
  have hreplay : applyBatchLoop c plantId clock (exec c init run).db batch 0 0 =
      ((exec c init run).db, .ok (0, batch.length)) := by
    rw [applyBatchLoop_replay h, Nat.zero_add]
  obtain ⟨hdb, s, hs, hresult⟩ := turns_eq_applyBatchLoop (c := c) clock
    (replaying_call plantId h).session rfl rfl (fun e he => Or.inl (h e he))
  refine ⟨s, ?_, ?_, ?_⟩
  · rw [exec_call]
    exact hdb.trans (congrArg Prod.fst hreplay)
  · rw [exec_call]
    exact hs
  · exact hresult.trans (congrArg (fun res => some res.2) hreplay)

end Reached

/-- Every schedule of calls leaves the database that applying the claimed
entries one by one, in the order their claims were committed, leaves. Each id of
the ledger is one of them once or was there before, every one comes from a call,
and every call has worked off a part of its batch. A call that fails takes its
claim and its row back. A call whose entries are all in the ledger commits
nothing and, unless its connection is lost, returns that it skipped them. -/
theorem exactly_once (c : Codec) (init : Database) (run : List Act) :
    let sys := exec c init run
    let next := sys.sessions.length
    (serialApply c init sys.log = some sys.db ∧
      (sys.log.map fun x => x.entry.id).Nodup ∧
      (∀ id, id ∈ sys.db.appliedEntries ↔
        id ∈ init.appliedEntries ∨ ∃ x ∈ sys.log, x.entry.id = id) ∧
      (∀ x ∈ sys.log, x.entry.id ∉ init.appliedEntries ∧
        ∃ batch, (calls run)[x.session]? = some (batch, x.plantId) ∧ x.entry ∈ batch) ∧
      ∀ (i : ℕ) s, sys.sessions[i]? = some s → ∃ done, Progress (calls run) sys i s done) ∧
    (∀ a (i : ℕ) s t, sys.sessions[i]? = some s → s.error = none →
      (step c sys a).sessions[i]? = some t → t.error ≠ none →
        (step c sys a).db = sys.db ∧ (step c sys a).log = sys.log ∧
          t.holds = none ∧ t.pending = none ∧
          ∀ id, s.holds = some id → id ∉ (step c sys a).db.appliedEntries) ∧
    ∀ batch plantId, (∀ e ∈ batch, e.id ∈ sys.db.appliedEntries) →
      (∀ clock, applyBatch c sys.db clock batch plantId = (sys.db, .ok (0, batch.length))) ∧
      (∀ more, ∃ s,
        (exec c init (run ++ .call batch plantId :: more)).sessions[next]? = some s ∧
          commits (exec c init (run ++ .call batch plantId :: more)).log next = [] ∧
          (s.result = none ∨ s.result = some (.ok (0, batch.length)) ∨
            ∃ err, .move next (.abort err) ∈ more)) ∧
      ∀ clock, ∃ s,
        (exec c init (run ++ .call batch plantId :: turns next clock batch.length)).db = sys.db ∧
          (exec c init (run ++ .call batch plantId ::
            turns next clock batch.length)).sessions[next]? = some s ∧
          s.result = some (.ok (0, batch.length)) := by
  intro sys next
  have hser := Serialized.after_exec c init run
  obtain ⟨hnodup, hfresh, hledger⟩ := serialApply_ids hser.replay
  refine ⟨⟨hser.replay, hnodup, hledger, ?_, (Served.after_exec c init run).progress⟩, ?_, ?_⟩
  · exact fun x hx => ⟨hfresh x hx, logged_of_call hx⟩
  · intro a i s t hs herr ht hfail
    exact failed_takes_back a hs herr ht hfail
  · intro batch plantId h
    refine ⟨?_, fun more => repush_skips h more, fun clock => repush_returns h clock⟩
    intro clock
    rw [applyBatch, applyBatchLoop_replay h, Nat.zero_add]

section Sample

/-- Two pushes of one entry: the second waits for the claim of the first. -/
def raceRun : List Act :=
  [.call [sampleEntry "entry" "wo" "WO-1"] (some "a"),
    .call [sampleEntry "entry" "wo" "WO-1"] (some "a"),
    .move 0 (.start 1), .move 1 (.start 2), .move 0 .claim, .move 1 .claim, .move 0 .write,
    .move 0 .commit, .move 1 .claim, .move 1 .commit]

/-- The entry is logged once, and a third push of it returns that it was skipped. -/
theorem race_applies_once :
    (exec Codec.sample sampleCloud raceRun).log.length = 1 ∧
    ∃ s, (exec Codec.sample sampleCloud (raceRun ++ .call [sampleEntry "entry" "wo" "WO-1"]
        (some "a") :: turns 2 (fun _ => 3) 1)).sessions[2]? = some s ∧
      s.result = some (.ok (0, 1)) := by
  have hledger : ∀ e ∈ [sampleEntry "entry" "wo" "WO-1"],
      e.id ∈ (exec Codec.sample sampleCloud raceRun).db.appliedEntries := by decide +kernel
  obtain ⟨-, -, hrepush⟩ := exactly_once Codec.sample sampleCloud raceRun
  obtain ⟨-, -, hreturn⟩ := hrepush _ (some "a") hledger
  obtain ⟨s, -, hs, hresult⟩ := hreturn fun _ => 3
  have hlength : (exec Codec.sample sampleCloud raceRun).sessions.length = 2 := by
    decide +kernel
  rw [hlength] at hs
  exact ⟨by decide +kernel, s, hs, hresult⟩

end Sample

end ElectronixMes.Sync.Concurrent
