import ElectronixMes.Maintenance.Procurement

/-!
# What procurement exports deliver

An export lists the requests, posts them and marks them. As long as no export takes a request
that another one has listed and not marked yet, and no mark fails, a request is in at most one
post that the ERP has answered with success. Whatever the interleaving, a request becomes
`sent_to_erp` only after such a post.
-/

namespace ElectronixMes.Maintenance.Procurement

open Db ElectronixMes.Core Edge Relational Serde Transition

section Once

/-- The requests a session has listed and not marked yet. -/
def Phase.carries : Phase → List String
  | .post _ p => p.requests
  | .mark _ p _ => p.requests
  | _ => []

/-- A listing takes no request that another export carries, and a mark does not fail. -/
def Phase.TakesAlone (input : Input) (s : State) : Phase → Prop
  | .listRecords req _ _ =>
      req.entity = "procurement_request" →
        ∀ u ∈ s.threads, ∀ r ∈ requestedOnly s.store.db, r.id ∉ u.carries
  | .mark _ _ _ => input.lost = false
  | _ => True

instance decidableTakesAlone (input : Input) (s : State) :
    (ph : Phase) → Decidable (ph.TakesAlone input s)
  | .listRecords req _ _ => inferInstanceAs (Decidable (req.entity = "procurement_request" →
      ∀ u ∈ s.threads, ∀ r ∈ requestedOnly s.store.db, r.id ∉ u.carries))
  | .mark .. => inferInstanceAs (Decidable (input.lost = false))
  | .readThresholds .. | .insertTxn .. | .sumStock .. | .raiseRequest .. | .commit ..
  | .insertManual .. | .readConnection .. | .post .. | .logSuccess .. | .logFailure ..
  | .ended .. => inferInstanceAs (Decidable True)

/-- The statement a move runs takes its requests alone. -/
def TakesAlone (s : State) : Move Request Input → Prop
  | .call _ => True
  | .advance who input => ∀ ph ∈ s.threads[who]?, ph.TakesAlone input s

instance (s : State) : (m : Move Request Input) → Decidable (TakesAlone s m)
  | .call _ => inferInstanceAs (Decidable True)
  | .advance who input =>
      inferInstanceAs (Decidable (∀ ph ∈ s.threads[who]?, ph.TakesAlone input s))

/-- The posts hold no request in common. -/
def PostsDisjoint (posts : List Post) : Prop :=
  posts.Pairwise fun p q => ∀ id ∈ p.requests, id ∉ q.requests

instance (posts : List Post) : Decidable (PostsDisjoint posts) :=
  inferInstanceAs (Decidable (posts.Pairwise fun p q => ∀ id ∈ p.requests, id ∉ q.requests))

/-- What holds of the requests, the posts and the exports under way. -/
structure Once (s : State) : Prop where
  stored : ∀ (i : ℕ) (ph : Phase), s.threads[i]? = some ph → ∀ id ∈ ph.carries,
    ∃ r ∈ s.store.db.procurementRequests, r.id = id
  apart : ∀ (i j : ℕ) (ph u : Phase), s.threads[i]? = some ph → s.threads[j]? = some u →
    i ≠ j → ∀ id ∈ ph.carries, id ∉ u.carries
  fresh : ∀ (i : ℕ) (req : ErpExportRequest) (p : Post), s.threads[i]? = some (.post req p) →
    ∀ q ∈ s.store.posts, ∀ id ∈ q.requests, id ∉ p.requests
  settled : ∀ q ∈ s.store.posts, ∀ id ∈ q.requests,
    (∃ (i : ℕ) (req : ErpExportRequest) (p : Post) (resp : Json),
        s.threads[i]? = some (.mark req p resp) ∧ id ∈ p.requests) ∨
      ∃ r ∈ s.store.db.procurementRequests, r.id = id ∧ r.status ≠ "requested"
  disjoint : PostsDisjoint s.store.posts

variable {s s' : State} {st : Store} {threads : List Phase} {who : ℕ} {input : Input}
  {ph : Phase} {res : Store × Phase}

/-- What one statement can do to the requests and the posts. -/
inductive Exports (input : Input) (st : Store) : Phase → Store × Phase → Prop
  | quiet {ph : Phase} {res : Store × Phase} (nothing : res.2.carries = [])
      (posts : res.1.posts = st.posts) (cause : ph.marks = true → input.lost = true)
      (keeps : ∀ r ∈ st.db.procurementRequests, r ∈ res.1.db.procurementRequests) :
      Exports input st ph res
  | listed {req : ErpExportRequest} {conn : ErpConnectionRow} {mapping : FieldMapping} {p : Post}
      (taken : ∀ id ∈ p.requests, req.entity = "procurement_request" ∧
        ∃ r ∈ requestedOnly st.db, r.id = id) :
      Exports input st (.listRecords req conn mapping) (st, .post req p)
  | posted (req : ErpExportRequest) (p : Post) (resp : Json) :
      Exports input st (.post req p) ({ st with posts := st.posts ++ [p] }, .mark req p resp)
  | marked (req : ErpExportRequest) (p : Post) (resp : Json) :
      Exports input st (.mark req p resp)
        ({ st with db := markPosted st.db input.now p resp }, .logSuccess req p)

theorem Ran.exports (h : Ran who input st ph res) : Exports input st ph res := by
  have hother (h : false = true) : input.lost = true := absurd h Bool.false_ne_true
  cases h with
  | refused e cause =>
      have hrelease : (st.release ph.raised?).db = st.db ∧
          (st.release ph.raised?).posts = st.posts := by
        cases ph.raised? <;> exact ⟨rfl, rfl⟩
      refine .quiet rfl hrelease.2 cause ?_
      rw [hrelease.1]
      exact fun _ => id
  | looked | inserted | breached | passed | waited | found | raised | moved | connected
  | rejected | logged | loggedFailure | ended => exact .quiet rfl rfl hother fun _ => id
  | reordered stock insert insertRequest =>
      exact .quiet rfl rfl hother fun r hr => (Table.mem_insert? insertRequest).mpr (Or.inl hr)
  | byHand insertRequest status reason =>
      exact .quiet rfl rfl hother fun r hr => (Table.mem_insert? insertRequest).mpr (Or.inl hr)
  | listed taken => exact .listed taken
  | posted req p resp => exact .posted req p resp
  | marked req p resp => exact .marked req p resp

/-- No request is deleted, and each stays or moves along its lifecycle. -/
def RequestsMove (db db' : CmmsDatabase) : Prop :=
  ∀ r ∈ db.procurementRequests, ∃ r' ∈ db'.procurementRequests, r'.id = r.id ∧
    Moves ProcurementStatus.parse ProcurementStatus.asStr ProcurementStatus.canTransition
      (some r.status) (some r'.status)

theorem requestsMove_refl (db : CmmsDatabase) : RequestsMove db db :=
  fun r hr => ⟨r, hr, rfl, Or.inl rfl⟩

theorem Ran.requestsMove (h : Ran who input st ph res) : RequestsMove st.db res.1.db := by
  cases h.exports with
  | quiet nothing posts cause keeps => exact fun r hr => ⟨r, keeps r hr, rfl, Or.inl rfl⟩
  | listed taken => exact requestsMove_refl st.db
  | posted req p resp => exact requestsMove_refl st.db
  | marked req p resp =>
      intro r hr
      refine ⟨_, mem_markProcurementSent.mpr ⟨r, hr, rfl⟩, r.sent_id _ _ _, ?_⟩
      rcases r.sent_cases p.requests input.now (erpReference resp) with hsame | ⟨-, hold, hnew⟩
      · rw [hsame]
        exact Or.inl rfl
      · rw [hold, hnew]
        exact Or.inr ⟨.requested, .sentToErp, rfl, rfl, rfl⟩

/-- Sessions that come to carry nothing, and further requests, change nothing. -/
theorem Once.of_quiet (h : Once s)
    (hthreads : ∀ (i : ℕ) (u : Phase), s'.threads[i]? = some u →
      s.threads[i]? = some u ∨ u.carries = [])
    (hmarks : ∀ (i : ℕ) (req : ErpExportRequest) (p : Post) (resp : Json),
      s.threads[i]? = some (.mark req p resp) → s'.threads[i]? = some (.mark req p resp))
    (hposts : s'.store.posts = s.store.posts)
    (hkeeps : ∀ r ∈ s.store.db.procurementRequests, r ∈ s'.store.db.procurementRequests) :
    Once s' := by
  refine ⟨?_, ?_, ?_, ?_, ?_⟩
  · intro i ph hph id hid
    rcases hthreads i ph hph with hph | hnil
    · obtain ⟨r, hr, hrid⟩ := h.stored i ph hph id hid
      exact ⟨r, hkeeps r hr, hrid⟩
    · rw [hnil] at hid
      exact absurd hid List.not_mem_nil
  · intro i j ph u hph hu hij id hid hid'
    rcases hthreads i ph hph with hph | hnil
    · rcases hthreads j u hu with hu | hnil
      · exact h.apart i j ph u hph hu hij id hid hid'
      · rw [hnil] at hid'
        exact absurd hid' List.not_mem_nil
    · rw [hnil] at hid
      exact absurd hid List.not_mem_nil
  · intro i req p hp q hq id hid hid'
    rw [hposts] at hq
    rcases hthreads i _ hp with hp | hnil
    · exact h.fresh i req p hp q hq id hid hid'
    · rw [Phase.carries] at hnil
      rw [hnil] at hid'
      exact absurd hid' List.not_mem_nil
  · intro q hq id hid
    rw [hposts] at hq
    rcases h.settled q hq id hid with ⟨i, req, p, resp, hi, hp⟩ | ⟨r, hr, hrid⟩
    · exact Or.inl ⟨i, req, p, resp, hmarks i req p resp hi, hp⟩
    · exact Or.inr ⟨r, hkeeps r hr, hrid⟩
  · rw [hposts]
    exact h.disjoint

/-- A listing takes requests that no post holds and no other export carries. -/
theorem Once.listed (h : Once ⟨st, threads⟩) {req : ErpExportRequest} {conn : ErpConnectionRow}
    {mapping : FieldMapping} {p : Post}
    (hwho : threads[who]? = some (.listRecords req conn mapping))
    (halone : (Phase.listRecords req conn mapping).TakesAlone input ⟨st, threads⟩)
    (taken : ∀ id ∈ p.requests, req.entity = "procurement_request" ∧
      ∃ r ∈ requestedOnly st.db, r.id = id) : Once ⟨st, threads.set who (.post req p)⟩ := by
  have hstored (id : String) (hid : id ∈ p.requests) :
      ∃ r ∈ st.db.procurementRequests, r.id = id ∧ r.status = "requested" := by
    obtain ⟨-, r, hr, hrid⟩ := taken id hid
    exact ⟨r, (mem_requestedOnly.mp hr).1, hrid, (mem_requestedOnly.mp hr).2⟩
  have hfree (i : ℕ) (u : Phase) (hu : threads[i]? = some u) (id : String)
      (hid : id ∈ p.requests) : id ∉ u.carries := by
    obtain ⟨hentity, r, hr, rfl⟩ := taken id hid
    exact halone hentity u (List.mem_of_getElem? hu) r hr
  refine ⟨?_, ?_, ?_, ?_, h.disjoint⟩
  · intro i ph hph id hid
    rcases Sessions.set_cases hph with ⟨rfl, rfl⟩ | ⟨-, hph⟩
    · obtain ⟨r, hr, hrid, -⟩ := hstored id hid
      exact ⟨r, hr, hrid⟩
    · exact h.stored i ph hph id hid
  · intro i j ph u hph hu hij id hid hid'
    rcases Sessions.set_cases hph with ⟨rfl, rfl⟩ | ⟨-, hold⟩
    · rcases Sessions.set_cases hu with ⟨rfl, -⟩ | ⟨-, hold'⟩
      · exact hij rfl
      · exact hfree j u hold' id hid hid'
    · rcases Sessions.set_cases hu with ⟨rfl, rfl⟩ | ⟨-, hold'⟩
      · exact hfree i ph hold id hid' hid
      · exact h.apart i j ph u hold hold' hij id hid hid'
  · intro i req' p' hp q hq id hid hid'
    rcases Sessions.set_cases hp with ⟨rfl, heq⟩ | ⟨-, hold⟩
    · cases heq
      -- the request is still `requested`, so a post that holds it is not marked yet
      rcases h.settled q hq id hid with ⟨j, req', p', resp, hj, hin⟩ | ⟨r, hr, hrid, hstatus⟩
      · exact hfree j _ hj id hid' hin
      · obtain ⟨r', hr', hrid', hstatus'⟩ := hstored id hid'
        obtain rfl : r = r' := Table.eq_of_key_eq hr hr' (hrid.trans hrid'.symm)
        exact hstatus hstatus'
    · exact h.fresh i req' p' hold q hq id hid hid'
  · intro q hq id hid
    rcases h.settled q hq id hid with ⟨j, req', p', resp, hj, hin⟩ | hmarked
    · refine Or.inl ⟨j, req', p', resp, ?_, hin⟩
      refine Sessions.getElem?_set_of_ne ?_ hj
      rintro rfl
      rw [hwho] at hj
      cases hj
    · exact Or.inr hmarked

/-- A post holds requests that no earlier post held. -/
theorem Once.posted (h : Once ⟨st, threads⟩) {req : ErpExportRequest} {p : Post} (resp : Json)
    (hwho : threads[who]? = some (.post req p)) :
    Once ⟨{ st with posts := st.posts ++ [p] }, threads.set who (.mark req p resp)⟩ := by
  have hthreads (i : ℕ) (u : Phase) (hu : (threads.set who (.mark req p resp))[i]? = some u) :
      ∃ u', threads[i]? = some u' ∧ u'.carries = u.carries := by
    rcases Sessions.set_cases hu with ⟨rfl, rfl⟩ | ⟨-, hu⟩
    · exact ⟨_, hwho, rfl⟩
    · exact ⟨u, hu, rfl⟩
  refine ⟨?_, ?_, ?_, ?_, ?_⟩
  · intro i ph hph id hid
    obtain ⟨ph', hph', hcarries⟩ := hthreads i ph hph
    exact h.stored i ph' hph' id (hcarries ▸ hid)
  · intro i j ph u hph hu hij id hid hid'
    obtain ⟨ph', hph', hcarries⟩ := hthreads i ph hph
    obtain ⟨u', hu', hcarries'⟩ := hthreads j u hu
    exact h.apart i j ph' u' hph' hu' hij id (hcarries ▸ hid) (hcarries' ▸ hid')
  · intro i req' p' hp q hq id hid hid'
    rcases Sessions.set_cases hp with ⟨-, heq⟩ | ⟨hi, hold⟩
    · cases heq
    · rcases List.mem_append.mp hq with hq | hq
      · exact h.fresh i req' p' hold q hq id hid hid'
      · obtain rfl := List.mem_singleton.mp hq
        exact h.apart i who _ _ hold hwho hi id hid' hid
  · intro q hq id hid
    have hmark : (threads.set who (.mark req p resp))[who]? = some (.mark req p resp) :=
      List.getElem?_set_self (List.getElem?_eq_some_iff.mp hwho).1
    rcases List.mem_append.mp hq with hq | hq
    · rcases h.settled q hq id hid with ⟨j, req', p', resp', hj, hin⟩ | hmarked
      · refine Or.inl ⟨j, req', p', resp', ?_, hin⟩
        refine Sessions.getElem?_set_of_ne ?_ hj
        rintro rfl
        rw [hwho] at hj
        cases hj
      · exact Or.inr hmarked
    · obtain rfl := List.mem_singleton.mp hq
      exact Or.inl ⟨who, req, q, resp, hmark, hid⟩
  · refine List.pairwise_append.mpr ⟨h.disjoint, List.pairwise_singleton _ _, ?_⟩
    intro q hq p' hp'
    obtain rfl := List.mem_singleton.mp hp'
    exact fun id hid => h.fresh who req p' hwho q hq id hid

/-- A mark settles the requests of its post. -/
theorem Once.marked (h : Once ⟨st, threads⟩) {req : ErpExportRequest} {p : Post} {resp : Json}
    (now : Int) (hwho : threads[who]? = some (.mark req p resp)) :
    Once ⟨{ st with db := markPosted st.db now p resp },
      threads.set who (.logSuccess req p)⟩ := by
  have hthreads (i : ℕ) (u : Phase) (hu : (threads.set who (.logSuccess req p))[i]? = some u)
      (id : String) (hid : id ∈ u.carries) : threads[i]? = some u := by
    rcases Sessions.set_cases hu with ⟨-, rfl⟩ | ⟨-, hu⟩
    · exact absurd hid List.not_mem_nil
    · exact hu
  refine ⟨?_, ?_, ?_, ?_, h.disjoint⟩
  · intro i ph hph id hid
    obtain ⟨r, hr, hrid⟩ := h.stored i ph (hthreads i ph hph id hid) id hid
    refine ⟨_, mem_markProcurementSent.mpr ⟨r, hr, rfl⟩, ?_⟩
    rw [ProcurementRow.sent_id]
    exact hrid
  · intro i j ph u hph hu hij id hid hid'
    exact h.apart i j ph u (hthreads i ph hph id hid) (hthreads j u hu id hid') hij id hid hid'
  · intro i req' p' hp q hq id hid hid'
    exact h.fresh i req' p' (hthreads i _ hp id hid') q hq id hid hid'
  · intro q hq id hid
    have hsent {r : ProcurementRow} (hr : r ∈ st.db.procurementRequests) (hrid : r.id = id)
        (hstatus : (r.sent p.requests now (erpReference resp)).status ≠ "requested") :
        ∃ r ∈ (markPosted st.db now p resp).procurementRequests,
          r.id = id ∧ r.status ≠ "requested" := by
      refine ⟨_, mem_markProcurementSent.mpr ⟨r, hr, rfl⟩, ?_, hstatus⟩
      rw [ProcurementRow.sent_id]
      exact hrid
    rcases h.settled q hq id hid with ⟨j, req', p', resp', hj, hin⟩ | ⟨r, hr, hrid, hstatus⟩
    · by_cases hji : j = who
      · subst hji
        rw [hwho] at hj
        cases hj
        obtain ⟨r, hr, hrid⟩ := h.stored j _ hwho id hin
        exact Or.inr (hsent hr hrid (ProcurementRow.sent_status_ne (hrid ▸ hin)))
      · exact Or.inl ⟨j, req', p', resp', Sessions.getElem?_set_of_ne hji hj, hin⟩
    · refine Or.inr (hsent hr hrid ?_)
      rcases r.sent_cases p.requests now (erpReference resp) with hsame | ⟨-, hrequested, -⟩
      · rw [hsame]
        exact hstatus
      · exact absurd hrequested hstatus

variable {c : Codec} {stockToJson : ℚ → Json} {decrypt : String → Option String}

theorem carries_phase (req : Request) : req.phase.carries = [] := by
  cases req with
  | movement sparePartId maintenanceWoId txnType qty userId =>
      simp only [Request.phase]
      split <;> rfl
  | manual => rfl
  | push => rfl

theorem Once.step (h : Once s) {m : Move Request Input} (hm : TakesAlone s m) :
    Once (step c stockToJson decrypt s m) := by
  unfold Procurement.step
  rcases Sessions.step_cases Request.phase (exec c stockToJson decrypt) s m with
    ⟨req, rfl, heq⟩ | heq | ⟨who, input, ph, rfl, hph, heq⟩
  · refine h.of_quiet ?_ ?_ ?_ ?_
    · intro i u hu
      rcases Sessions.thread_cases _ _ s _ hu with hu | ⟨req', hreq, rfl⟩ | ⟨_, _, hmove, -⟩
      · exact Or.inl hu
      · exact Or.inr (carries_phase req')
      · cases hmove
    · intro i req' p resp hi
      refine Sessions.thread_stays _ _ s hi fun input hinput => ?_
      cases hinput
    · rw [heq]
    · rw [heq]
      exact fun _ => id
  · rw [heq]
    exact h
  · rw [heq]
    have halone := hm ph hph
    have hran : Ran who input s.store ph (exec c stockToJson decrypt who input s.store ph) :=
      ran_exec who input s.store ph
    revert hran
    generalize exec c stockToJson decrypt who input s.store ph = res
    intro hran
    cases hran.exports with
    | quiet nothing posts cause keeps =>
        refine h.of_quiet ?_ ?_ posts keeps
        · intro i u hu
          rcases Sessions.set_cases hu with ⟨-, rfl⟩ | ⟨-, hu⟩
          · exact Or.inr nothing
          · exact Or.inl hu
        · intro i req p resp hi
          refine Sessions.getElem?_set_of_ne ?_ hi
          rintro rfl
          rw [hph, Option.some.injEq] at hi
          subst hi
          exact absurd ((cause rfl).symm.trans halone) (by decide)
    | listed taken => exact h.listed hph halone taken
    | posted req p resp => exact h.posted resp hph
    | marked req p resp => exact h.marked input.now hph

theorem once_opened (db : CmmsDatabase) : Once (opened db) := by
  refine ⟨?_, ?_, ?_, ?_, List.Pairwise.nil⟩
  · intro i ph hph
    cases hph
  · intro i j ph u hph
    cases hph
  · intro i req p hp
    cases hp
  · intro q hq
    cases hq

end Once

section Delivered

/-- A request that is `sent_to_erp` was so at the start, or is in a post. -/
def Delivered (db : CmmsDatabase) (st : Store) : Prop :=
  ∀ r ∈ st.db.procurementRequests, r.status = "sent_to_erp" →
    (∃ r₀ ∈ db.procurementRequests, r₀.id = r.id ∧ r₀.status = "sent_to_erp") ∨
      ∃ p ∈ st.posts, r.id ∈ p.requests

/-- What a session marks was posted, and what it inserts is new. -/
def Posted (st : Store) (_ : ℕ) : Phase → Prop
  | .mark _ p _ => p ∈ st.posts
  | .commit _ _ (some r) => r.status = "requested"
  | _ => True

variable {db : CmmsDatabase} {st st' : Store} {who : ℕ} {input : Input} {ph u : Phase}
  {res : Store × Phase}

/-- Posts and requests that are not `sent_to_erp` may be added. -/
theorem Delivered.of_grows (h : Delivered db st)
    (hposts : ∀ p ∈ st.posts, p ∈ st'.posts)
    (hgrows : ∀ r ∈ st'.db.procurementRequests,
      r ∈ st.db.procurementRequests ∨ r.status = "requested") : Delivered db st' := by
  intro r hr hsent
  rcases hgrows r hr with hold | hnew
  · refine (h r hold hsent).imp id ?_
    rintro ⟨p, hp, hin⟩
    exact ⟨p, hposts p hp, hin⟩
  · exact absurd (hnew.symm.trans hsent) (by decide)

theorem Delivered.insert {r : ProcurementRow} {requests : Table ProcurementRow}
    (h : Delivered db st) (hins : st.db.procurementRequests.insert? r = some requests)
    (hdb : st'.db.procurementRequests = requests) (hposts : st'.posts = st.posts)
    (hnew : r.status = "requested") : Delivered db st' := by
  refine h.of_grows (fun p hp => hposts ▸ hp) ?_
  intro r' hr'
  rw [hdb, Table.mem_insert? hins] at hr'
  rcases hr' with hold | rfl
  · exact Or.inl hold
  · exact Or.inr hnew

theorem Delivered.marked {p : Post} (h : Delivered db st) (hp : p ∈ st.posts) (now : Int)
    (resp : Json) : Delivered db { st with db := markPosted st.db now p resp } := by
  intro r hr hsent
  obtain ⟨s, hs, rfl⟩ := mem_markProcurementSent.mp hr
  rcases s.sent_cases p.requests now (erpReference resp) with hsame | ⟨hin, -, -⟩
  · rw [hsame] at hsent ⊢
    exact h s hs hsent
  · rw [ProcurementRow.sent_id]
    exact Or.inr ⟨p, hp, hin⟩

theorem Ran.delivered (h : Ran who input st ph res) (hdelivered : Delivered db st)
    (hown : Posted st who ph) : Delivered db res.1 ∧ Posted res.1 who res.2 := by
  have hsame (r : ProcurementRow) (hr : r ∈ st.db.procurementRequests) :
      r ∈ st.db.procurementRequests ∨ r.status = "requested" := Or.inl hr
  cases h with
  | refused e cause =>
      have hrelease : (st.release ph.raised?).db = st.db ∧
          (st.release ph.raised?).posts = st.posts := by
        cases ph.raised? <;> exact ⟨rfl, rfl⟩
      refine ⟨hdelivered.of_grows ?_ ?_, trivial⟩
      · rw [hrelease.2]
        exact fun _ => id
      · rw [hrelease.1]
        exact hsame
  | looked | inserted | breached | passed | waited | found | connected | listed | rejected
  | ended => exact ⟨hdelivered, trivial⟩
  | moved | logged | loggedFailure => exact ⟨hdelivered.of_grows (fun _ => id) hsame, trivial⟩
  | raised part stock grants noneOpen spare isOpen =>
      exact ⟨hdelivered.of_grows (fun _ => id) hsame, isOpen.1⟩
  | reordered stock insert insertRequest =>
      exact ⟨hdelivered.insert insertRequest rfl rfl hown, trivial⟩
  | byHand insertRequest status reason =>
      exact ⟨hdelivered.insert insertRequest rfl rfl status, trivial⟩
  | posted req p resp =>
      exact ⟨hdelivered.of_grows (fun q hq => List.mem_append_left _ hq) hsame,
        List.mem_append_right _ (List.mem_singleton_self p)⟩
  | marked req p resp => exact ⟨hdelivered.marked hown input.now resp, trivial⟩

/-- No statement takes a post back. -/
theorem Ran.posts_subset (h : Ran who input st ph res) : ∀ p ∈ st.posts, p ∈ res.1.posts := by
  cases h.exports with
  | quiet nothing posts cause keeps =>
      rw [posts]
      exact fun _ => id
  | listed taken => exact fun _ => id
  | posted req p resp => exact fun q hq => List.mem_append_left _ hq
  | marked req p resp => exact fun _ => id

theorem Ran.posted_of_ne (h : Ran who input st ph res) {i : ℕ} (hu : Posted st i u) :
    Posted res.1 i u := by
  cases u with
  | mark req p resp => exact h.posts_subset p hu
  | commit row stock raised => cases raised <;> exact hu
  | readThresholds | insertTxn | sumStock | raiseRequest | insertManual | readConnection
  | listRecords | post | logSuccess | logFailure | ended => trivial

theorem posted_phase (st : Store) (who : ℕ) (req : Request) : Posted st who req.phase := by
  cases req with
  | movement sparePartId maintenanceWoId txnType qty userId =>
      simp only [Request.phase]
      split <;> trivial
  | manual => trivial
  | push => trivial

variable {c : Codec} {stockToJson : ℚ → Json} {decrypt : String → Option String}

theorem delivered_run (db : CmmsDatabase) (moves : Schedule) :
    Sessions.Inv (Delivered db) Posted
      (moves.foldl (step c stockToJson decrypt) (opened db)) := by
  have hinit : Sessions.Inv (Delivered db) Posted (opened db) :=
    Sessions.inv_nil fun r hr hsent => Or.inl ⟨r, hr, rfl, hsent⟩
  refine hinit.run (fun st i req _ => posted_phase st i req) ?_ ?_ moves
  · intro who input st ph hdelivered hown
    exact (ran_exec who input st ph).delivered hdelivered hown
  · intro who input st ph i u _ _ _ hu
    exact (ran_exec who input st ph).posted_of_ne hu

/-- Whatever the interleaving, a request is never deleted and moves along its lifecycle. -/
theorem requests_move (db : CmmsDatabase) (moves : Schedule) (k : ℕ) :
    RequestsMove (stateAt c stockToJson decrypt db moves k).store.db
      (stateAt c stockToJson decrypt db moves (k + 1)).store.db := by
  rcases foldl_take_succ (step c stockToJson decrypt) (opened db) moves k with
    hsame | ⟨m, -, hstep⟩
  · rw [stateAt, stateAt, hsame]
    exact requestsMove_refl _
  · rw [stateAt, stateAt, hstep]
    refine Sessions.store_step (R := fun st st' : Store => RequestsMove st.db st'.db) _ _ _ m
      (requestsMove_refl _) ?_
    exact fun who input ph _ => (ran_exec who input _ ph).requestsMove

/-- Of every run: where each export takes its requests alone, no request is in two posts that
the ERP has answered with success; and a request that has become `sent_to_erp` is in one. -/
theorem requests_reach_erp_once (c : Codec) (stockToJson : ℚ → Json)
    (decrypt : String → Option String) (db : CmmsDatabase) (moves : Schedule) :
    (Along (step c stockToJson decrypt) TakesAlone (opened db) moves →
        ∀ k, PostsDisjoint (stateAt c stockToJson decrypt db moves k).store.posts) ∧
      ∀ k, ∀ r ∈ (stateAt c stockToJson decrypt db moves k).store.db.procurementRequests,
        r.status = "sent_to_erp" →
          (∃ r₀ ∈ db.procurementRequests, r₀.id = r.id ∧ r₀.status = "sent_to_erp") ∨
            ∃ p ∈ (stateAt c stockToJson decrypt db moves k).store.posts, r.id ∈ p.requests := by
  refine ⟨?_, fun k => (delivered_run db (moves.take k)).1⟩
  intro halong k
  have honce := (halong.take k).invariant (fun s m h hm => h.step hm) (once_opened db)
  exact honce.disjoint

/-- A request for a belt, and a connection that takes it. -/
def beltRequest : CmmsDatabase where
  spareParts := ⟨[⟨"belt", "V-1", "Belt", ⟨5, 0⟩, ⟨20, 0⟩⟩], List.nodup_singleton _⟩
  procurementRequests := ⟨[newProcurement 0 "r1" "belt" ⟨20, 0⟩ .manual], List.nodup_singleton _⟩
  erpConnections := ⟨[⟨"erp", "erp.local", none, .obj [("request_id", .str "Ref")], "export",
    true⟩], List.nodup_singleton _⟩

def pushRequests : Request := .push ⟨"erp", "procurement_request"⟩

/-- An export, then a second one. -/
def exportTwice : Schedule :=
  [.call pushRequests, .advance 0 ⟨1, "", .ok .null, false⟩, .advance 0 ⟨1, "", .ok .null, false⟩,
    .advance 0 ⟨2, "", .ok .null, false⟩, .advance 0 ⟨3, "", .ok .null, false⟩,
    .call pushRequests, .advance 1 ⟨4, "", .ok .null, false⟩,
    .advance 1 ⟨4, "", .ok .null, false⟩, .advance 1 ⟨5, "", .ok .null, false⟩]

theorem exportTwice_once :
    let s := stateAt Codec.sample (fun _ => .null) some beltRequest exportTwice 9
    s.store.posts.map Post.requests = [["r1"], []] ∧ PostsDisjoint s.store.posts ∧
      ∀ r ∈ s.store.db.procurementRequests, r.status = "sent_to_erp" →
        (∃ r₀ ∈ beltRequest.procurementRequests, r₀.id = r.id ∧ r₀.status = "sent_to_erp") ∨
          ∃ p ∈ s.store.posts, r.id ∈ p.requests := by
  obtain ⟨honce, hdelivered⟩ :=
    requests_reach_erp_once Codec.sample (fun _ => .null) some beltRequest exportTwice
  exact ⟨by decide +kernel, honce (by decide +kernel) 9, hdelivered 9⟩

/-- Two exports at once: both list the request before either has marked it. -/
def exportAtOnce : Schedule :=
  [.call pushRequests, .call pushRequests,
    .advance 0 ⟨1, "", .ok .null, false⟩, .advance 1 ⟨1, "", .ok .null, false⟩,
    .advance 0 ⟨1, "", .ok .null, false⟩, .advance 1 ⟨1, "", .ok .null, false⟩,
    .advance 0 ⟨2, "", .ok .null, false⟩, .advance 1 ⟨2, "", .ok .null, false⟩]

theorem exportAtOnce_twice :
    (stateAt Codec.sample (fun _ => .null) some beltRequest exportAtOnce 8).store.posts.map
        Post.requests = [["r1"], ["r1"]] ∧
      ¬ PostsDisjoint
        (stateAt Codec.sample (fun _ => .null) some beltRequest exportAtOnce 8).store.posts := by
  decide +kernel

end Delivered

end ElectronixMes.Maintenance.Procurement
