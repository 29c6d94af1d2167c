import ElectronixMes.Access.Requests

/-!
# Who wrote, and by what right

A token is only as good as its signature: along a run nobody presents a token that reads as
claims unless a login of the run has answered it. Then behind every accepted write stands an
earlier login of an active user who showed the secret or the badge, whose role still is the one
that may write, and not longer ago than a token lives. The audit log tells all of it: one entry
for each login and each accepted write, in order, as long as its insert does not fail.
-/

namespace ElectronixMes.Access

open Relational Db.Master Edge Edge.Master ElectronixMes.Core
open Db (ApiErr RepoError repoErr)

/-- Nobody makes up a token: one that reads as claims was answered by a login. -/
def Unforged (cfg : AuthConfig) (s : Server) (a : Event) : Prop :=
  ∀ header token claims, a.1.authorization = some header → stripBearer header = some token →
    cfg.decode token = some claims → ∃ r ∈ s.issued, r.token = token

variable {cfg : AuthConfig} {s : Server} {run : List Event}

/-! ## The login behind an answer -/

theorem map_loggedIn_ok {x : Except ApiErr LoginResponse} {r : LoginResponse}
    (h : x.map Reply.loggedIn = .ok (.loggedIn r)) : x = .ok r := by
  obtain ⟨r', hx, heq⟩ := map_eq_ok.mp h
  rw [hx, Reply.loggedIn.inj heq]

theorem Outcome.of_ok {m : MasterData} {call : Call} {method : String} {P : UserRow → Prop}
    {result : MasterData × Except ApiErr LoginResponse} {r : LoginResponse}
    (hout : Outcome cfg m call method P result) (hok : result.2 = .ok r) :
    ∃ u ∈ m.users, u.active = true ∧ P u ∧ Answered cfg call.now u r ∧
      result.1 = auditLogin m call u method := by
  rcases hout with ⟨e, rfl⟩ | ⟨u, hu, hactive, hP, r', hanswered, rfl⟩
  · cases hok
  · cases hok
    exact ⟨u, hu, hactive, hP, hanswered, rfl⟩

/-- A request that is answered with a token is a login by an active user who showed enough. -/
theorem serve_loggedIn {m : MasterData} {call : Call} {req : Request} {r : LoginResponse}
    (h : (serve cfg m call req).2 = .ok (.loggedIn r)) :
    ∃ u ∈ m.users, u.active = true ∧ Shows cfg u req ∧ Answered cfg call.now u r ∧
      (serve cfg m call req).1 = auditLogin m call u (loginMethod req) := by
  cases req with
  | login body => exact (login_outcome body).of_ok (map_loggedIn_ok h)
  | pinLogin body => exact (pinLogin_outcome body).of_ok (map_loggedIn_ok h)
  | write w =>
      obtain ⟨_, -, heq⟩ := map_eq_ok.mp h
      cases heq
  | hold r => cases h
  | release r => cases h

theorem mem_loginOf {answer : Except ApiErr Reply} {r : LoginResponse} (h : r ∈ loginOf answer) :
    answer = .ok (.loggedIn r) := by
  unfold loginOf at h
  split at h
  · rw [List.mem_singleton.mp h]
  · exact absurd h List.not_mem_nil

/-- The event of a run that answered with a token, and the user it answered. -/
def Origin (cfg : AuthConfig) (s : Server) (run : List Event) (k : ℕ) (r : LoginResponse) :
    Prop :=
  ∃ j call req u, j < k ∧ run[j]? = some (call, req) ∧ u ∈ (stateAt cfg s run j).master.users ∧
    u.active = true ∧ Shows cfg u req ∧ Answered cfg call.now u r ∧
    (serve cfg (stateAt cfg s run j).master call req).2 = .ok (.loggedIn r)

/-- By induction along the run: every token that was issued has its login. -/
theorem issued_origin (hstart : s.issued = []) (k : ℕ) :
    ∀ r ∈ (stateAt cfg s run k).issued, Origin cfg s run k r := by
  induction k with
  | zero =>
      intro r hr
      rw [stateAt, List.take_zero, List.foldl_nil, hstart] at hr
      exact absurd hr List.not_mem_nil
  | succ k ih =>
      intro r hr
      have hweaken : Origin cfg s run k r → Origin cfg s run (k + 1) r := by
        rintro ⟨j, call, req, u, hj, hrest⟩
        exact ⟨j, call, req, u, Nat.lt_succ_of_lt hj, hrest⟩
      rcases Transition.foldl_take_succ (step cfg) s run k with hsame | ⟨a, ha, -⟩
      · rw [stateAt, hsame] at hr
        exact hweaken (ih r hr)
      · rw [stateAt_succ cfg s ha] at hr
        rcases List.mem_append.mp hr with hr | hr
        · exact hweaken (ih r hr)
        · have hanswer := mem_loginOf hr
          obtain ⟨u, hu, hactive, hshows, hanswered, -⟩ := serve_loggedIn hanswer
          exact ⟨k, a.1, a.2, u, Nat.lt_succ_self k, ha, hu, hactive, hshows, hanswered, hanswer⟩

/-! ## The writer behind a write -/

theorem authUser_ok {now : Int} {authorization : Option String} {user : AuthUser}
    (h : authUser cfg now authorization = .ok user) :
    ∃ header token claims, authorization = some header ∧ stripBearer header = some token ∧
      cfg.decode token = some claims ∧ now - leeway ≤ claims.exp ∧
      user = ⟨claims.sub, claims.role⟩ := by
  unfold authUser at h
  split at h
  · cases h
  · rename_i header
    split at h
    · cases h
    · rename_i token htoken
      split at h
      · cases h
      · rename_i claims hclaims
        cases h
        obtain ⟨found, hdecode, hgate⟩ := Option.bind_eq_some_iff.mp hclaims
        split at hgate
        · rename_i hexp
          cases hgate
          exact ⟨header, token, claims, rfl, htoken, hdecode, hexp.2, rfl⟩
        · cases hgate

theorem masterWriter_ok {now : Int} {authorization : Option String} {user : AuthUser}
    (h : masterWriter cfg now authorization = .ok user) :
    authUser cfg now authorization = .ok user ∧ canWriteMaster user.role = true := by
  unfold masterWriter at h
  split at h
  · cases h
  · rename_i found hfound
    split at h
    · rename_i hrole
      cases h
      exact ⟨hfound, hrole⟩
    · cases h

/-- Behind every accepted write stands an earlier login of the run: of a user who was and still
is active, showed enough to log in, has a role that may write, and got the token that the write
carries less than its life time and the allowed difference of clocks before. -/
theorem write_authorized (hround : ∀ c t, cfg.encode c = some t → cfg.decode t = some c)
    (hstart : s.issued = []) (hunforged : Transition.Along (step cfg) (Unforged cfg) s run)
    {k : ℕ} {call : Call} {w : MasterWrite} {out : Written} (hk : run[k]? = some (call, .write w))
    (hok : (handleWrite cfg (stateAt cfg s run k).master call w).2 = .ok out) :
    ∃ j login req u r, j < k ∧ run[j]? = some (login, req) ∧
      (serve cfg (stateAt cfg s run j).master login req).2 = .ok (.loggedIn r) ∧
      u ∈ (stateAt cfg s run j).master.users ∧ Shows cfg u req ∧ r.userId = u.id ∧
      u ∈ (stateAt cfg s run k).master.users ∧ u.active = true ∧
      canWriteMaster u.roleCode = true ∧
      call.authorization.bind stripBearer = some r.token ∧
      call.now ≤ login.now + cfg.ttlSecs + leeway := by
  rcases handleWrite_cases cfg (stateAt cfg s run k).master call w with
    ⟨e, heq⟩ | ⟨actor, m', written, hactor, -, -⟩
  · rw [heq] at hok
    cases hok
  · obtain ⟨huser, hrole⟩ := masterWriter_ok hactor
    obtain ⟨header, token, claims, hheader, htoken, hdecode, hexp, rfl⟩ := authUser_ok huser
    -- the token was issued before, so it reads as the claims that its login signed
    obtain ⟨r, hr, rfl⟩ := hunforged.getElem? hk header token claims hheader htoken hdecode
    obtain ⟨j, login, req, u, hj, hevent, hu, hactive, hshows, hanswered, hanswer⟩ :=
      issued_origin hstart k r hr
    have hclaims : claims = ⟨u.id, u.roleCode, login.now, login.now + cfg.ttlSecs⟩ := by
      have hsigned := hround _ _ hanswered.token
      rw [hdecode] at hsigned
      exact Option.some.inj hsigned
    refine ⟨j, login, req, u, r, hj, hevent, hanswer, hu, hshows, hanswered.userId,
      users_last cfg s run hj.le hu, hactive, ?_, ?_, ?_⟩
    · rw [hclaims] at hrole
      exact hrole
    · rw [hheader]
      exact htoken
    · have hend : claims.exp = login.now + cfg.ttlSecs := by rw [hclaims]
      rw [hend] at hexp
      omega

section Sample

/-- A configuration that signs one administrator's claims, and keeps secrets in the clear. -/
def sampleConfig : AuthConfig where
  ttlSecs := 3600
  encode c := if c = ⟨"u1", "Admin", 100, 3700⟩ then some "signed" else none
  decode t := if t = "signed" then some ⟨"u1", "Admin", 100, 3700⟩ else none
  hash _ plain := some plain
  verify plain phc := plain = phc

theorem sampleConfig_round (c : Claims) (t : String) (h : sampleConfig.encode c = some t) :
    sampleConfig.decode t = some c := by
  simp only [sampleConfig, Option.ite_none_right_eq_some, Option.some.injEq] at h ⊢
  obtain ⟨rfl, rfl⟩ := h
  simp

def sampleAdmin : UserRow :=
  ⟨"u1", "ada", "Ada", "Admin", some "secret", none, none, true, 0, 0⟩

def sampleServer : Server := ⟨{ users := ⟨[sampleAdmin], List.nodup_singleton _⟩ }, []⟩

def sampleLogin : Event :=
  ({ now := 100, auditId := "a1" }, .login ⟨"ada", "secret"⟩)

/-- The administrator creates a site half an hour later. -/
def sampleWrite : Event :=
  ({ now := 1900, authorization := some "Bearer signed", id := "s1", auditId := "a2" },
    .write (.createSite ⟨"S1", "Site 1", none⟩))

theorem sample_unforged :
    Transition.Along (step sampleConfig) (Unforged sampleConfig) sampleServer
      [sampleLogin, sampleWrite] := by
  refine ⟨?_, ?_, trivial⟩
  · intro header token claims hheader
    cases hheader
  · intro header token claims hheader htoken _
    cases hheader
    have hsigned : stripBearer "Bearer signed" = some "signed" := by decide
    rw [hsigned] at htoken
    cases htoken
    exact ⟨⟨"signed", "u1", "ada", "Admin", 3700⟩, by decide, rfl⟩

/-- The site was created by the user of the login before. -/
theorem sample_write_authorized :
    ∃ j login req u r, j < 1 ∧ [sampleLogin, sampleWrite][j]? = some (login, req) ∧
      (serve sampleConfig (stateAt sampleConfig sampleServer [sampleLogin, sampleWrite] j).master
        login req).2 = .ok (.loggedIn r) ∧
      u ∈ (stateAt sampleConfig sampleServer [sampleLogin, sampleWrite] j).master.users ∧
      Shows sampleConfig u req ∧ r.userId = u.id ∧
      u ∈ (stateAt sampleConfig sampleServer [sampleLogin, sampleWrite] 1).master.users ∧
      u.active = true ∧ canWriteMaster u.roleCode = true ∧
      sampleWrite.1.authorization.bind stripBearer = some r.token ∧
      sampleWrite.1.now ≤ login.now + sampleConfig.ttlSecs + leeway := by
  have hok : (handleWrite sampleConfig
      (stateAt sampleConfig sampleServer [sampleLogin, sampleWrite] 1).master sampleWrite.1
        (.createSite ⟨"S1", "Site 1", none⟩)).2 =
      .ok ⟨201, .site ⟨"s1", "S1", "Site 1", "Asia/Kolkata", 1900, 1900⟩, "s1"⟩ := by decide
  exact write_authorized sampleConfig_round rfl sample_unforged rfl hok

end Sample

/-! ## The audit log -/

/-- The audit entry that an event is to leave, if it succeeds. -/
def entries (cfg : AuthConfig) (m : MasterData) (a : Event) : List AuditRow :=
  if a.1.auditFails then []
  else
    match (serve cfg m a.1 a.2).2, a.2 with
    | .ok (.loggedIn r), req =>
        [⟨a.1.auditId, some r.userId, "login", "user", some r.userId,
          some (.obj [("method", .str (loginMethod req))]), a.1.now⟩]
    | .ok (.written out), .write w =>
        match masterWriter cfg a.1.now a.1.authorization with
        | .ok actor =>
            [⟨a.1.auditId, some actor.userId, w.subject.1, w.subject.2, some out.entityId, none,
              a.1.now⟩]
        | .error _ => []
    | _, _ => []

/-- The audit entries of a run, in order. -/
def trace (cfg : AuthConfig) : Server → List Event → List AuditRow
  | _, [] => []
  | s, a :: rest => entries cfg s.master a ++ trace cfg (step cfg s a) rest

/-- The tokens that are around are those of users. -/
def Vouched (cfg : AuthConfig) (s : Server) : Prop :=
  ∀ r ∈ s.issued, ∃ u ∈ s.master.users, ∃ iat exp,
    cfg.decode r.token = some ⟨u.id, u.roleCode, iat, exp⟩

/-- No forged token, and an id for the audit entry that is not taken. -/
def Orderly (cfg : AuthConfig) (s : Server) (a : Event) : Prop :=
  Unforged cfg s a ∧ ∀ e ∈ s.master.auditLog, e.id ≠ a.1.auditId

/-- An entry with a free id whose actor is a user is appended, unless the insert fails. -/
theorem rows_audit {m : MasterData} {call : Call} {actorId : String} {action entity : String}
    {entityId : Option String} {detail : Option Serde.Json} (hactor : m.users.Has actorId)
    (hfresh : ∀ e ∈ m.auditLog, e.id ≠ call.auditId) :
    (audit m call (some actorId) action entity entityId detail).auditLog.rows =
      m.auditLog.rows ++ if call.auditFails then [] else
        [⟨call.auditId, some actorId, action, entity, entityId, detail, call.now⟩] := by
  unfold audit
  split
  · exact (List.append_nil _).symm
  · obtain ⟨auditLog, hins⟩ := Table.exists_insert? (t := m.auditLog)
      (r := ⟨call.auditId, some actorId, action, entity, entityId, detail, call.now⟩) hfresh
    have href := @Db.optionalRef_some (fun id => (m.users.lookup id).isSome) "audit_log"
      "audit_log_actor_id_fkey" actorId (Table.isSome_lookup.mpr hactor)
    simp only [insertAudit, hins, href]
    exact Table.rows_insert? hins

theorem Outcome.rows {m : MasterData} {call : Call} {req : Request} {P : UserRow → Prop}
    {result : MasterData × Except ApiErr LoginResponse}
    (hout : Outcome cfg m call (loginMethod req) P result)
    (hfresh : ∀ e ∈ m.auditLog, e.id ≠ call.auditId)
    (hserve : serve cfg m call req = (result.1, result.2.map .loggedIn)) :
    (serve cfg m call req).1.auditLog.rows =
      m.auditLog.rows ++ entries cfg m (call, req) := by
  rcases hout with ⟨e, rfl⟩ | ⟨u, hu, -, -, r, hanswered, rfl⟩
  · simp [entries, hserve, Except.map]
  · have hpresent : m.users.Has u.id := ⟨u, hu, rfl⟩
    rw [hserve]
    dsimp only
    rw [auditLogin, rows_audit hpresent hfresh]
    simp [entries, hserve, Except.map, hanswered.userId]

/-- One event adds its entries to the log. -/
theorem rows_step (hvouched : Vouched cfg s) {a : Event} (h : Orderly cfg s a) :
    (step cfg s a).master.auditLog.rows = s.master.auditLog.rows ++ entries cfg s.master a := by
  obtain ⟨call, req⟩ := a
  obtain ⟨hunforged, hfresh⟩ := h
  cases req with
  | login body => exact (login_outcome body).rows hfresh rfl
  | pinLogin body => exact (pinLogin_outcome body).rows hfresh rfl
  | write w =>
      change (handleWrite cfg s.master call w).1.auditLog.rows = _
      rcases handleWrite_cases cfg s.master call w with
        ⟨e, heq⟩ | ⟨actor, m', out, hactor, hperform, heq⟩
      · simp [entries, serve, heq, Except.map]
      · have hlasts := perform_lasts hperform
        have hpresent : m'.users.Has actor.userId := by
          obtain ⟨header, token, claims, hheader, htoken, hdecode, -, rfl⟩ :=
            authUser_ok (masterWriter_ok hactor).1
          obtain ⟨r, hr, rfl⟩ := hunforged header token claims hheader htoken hdecode
          obtain ⟨u, hu, iat, exp, hsigned⟩ := hvouched r hr
          obtain rfl := Option.some.inj (hdecode.symm.trans hsigned)
          exact ⟨u, hlasts.users u hu, rfl⟩
        rw [heq]
        dsimp only
        rw [rows_audit hpresent (by rw [hlasts.auditLog]; exact hfresh), hlasts.auditLog]
        simp [entries, serve, heq, Except.map, hactor]
  | hold r =>
      change (r.hold s.master).auditLog.rows = _
      rw [(hold_lasts s.master r).2]
      simp [entries, serve]
  | release r => cases r <;> simp [entries, serve, step, Reference.release]

theorem Vouched.step (hround : ∀ c t, cfg.encode c = some t → cfg.decode t = some c)
    (h : Vouched cfg s) (a : Event) : Vouched cfg (step cfg s a) := by
  intro r hr
  rcases List.mem_append.mp hr with hr | hr
  · obtain ⟨u, hu, hsigned⟩ := h r hr
    exact ⟨u, serve_users hu a.2, hsigned⟩
  · obtain ⟨u, hu, -, -, hanswered, -⟩ := serve_loggedIn (mem_loginOf hr)
    exact ⟨u, serve_users hu a.2, _, _, hround _ _ hanswered.token⟩

theorem rows_run (hround : ∀ c t, cfg.encode c = some t → cfg.decode t = some c)
    (hvouched : Vouched cfg s) (h : Transition.Along (step cfg) (Orderly cfg) s run) :
    (run.foldl (step cfg) s).master.auditLog.rows =
      s.master.auditLog.rows ++ trace cfg s run := by
  induction run generalizing s with
  | nil => exact (List.append_nil _).symm
  | cons a rest ih =>
      rw [List.foldl_cons, ih (hvouched.step hround a) h.2, rows_step hvouched h.1, trace,
        List.append_assoc]

/-- The log grows by exactly one entry for each login and each accepted write of a run, in
order, under the name of the user behind it; nothing else enters it and nothing leaves it. -/
theorem audit_complete (hround : ∀ c t, cfg.encode c = some t → cfg.decode t = some c)
    (hstart : s.issued = []) (h : Transition.Along (step cfg) (Orderly cfg) s run) :
    (run.foldl (step cfg) s).master.auditLog.rows =
      s.master.auditLog.rows ++ trace cfg s run := by
  have hvouched : Vouched cfg s := by
    intro r hr
    rw [hstart] at hr
    exact absurd hr List.not_mem_nil
  exact rows_run hround hvouched h

/-- The log of the sample run: the login and the new site, both under the administrator. -/
theorem sample_audit_complete :
    ((([sampleLogin, sampleWrite].foldl (step sampleConfig) sampleServer).master.auditLog.rows).map
      fun e => (e.id, e.actorId, e.action, e.entity, e.entityId)) =
      [("a1", some "u1", "login", "user", some "u1"),
        ("a2", some "u1", "create", "site", some "s1")] := by
  have horderly : Transition.Along (step sampleConfig) (Orderly sampleConfig) sampleServer
      [sampleLogin, sampleWrite] := by
    obtain ⟨hfirst, hsecond, -⟩ := sample_unforged
    refine ⟨⟨hfirst, ?_⟩, ⟨hsecond, ?_⟩, trivial⟩
    · exact fun e he => absurd he List.not_mem_nil
    · intro e he
      obtain rfl := List.mem_singleton.mp he
      decide
  rw [audit_complete sampleConfig_round rfl horderly]
  decide

end ElectronixMes.Access
