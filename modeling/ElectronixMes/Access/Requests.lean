import ElectronixMes.Access.Integrity
import ElectronixMes.Transition.Run

/-!
# Runs of requests

An edge takes logins and writes from anyone, with whatever header they send, while elsewhere
in the database operations and orders come to name rows or stop to. Next to the master data
the run keeps what the logins have answered. Users and audit entries only ever come to be.
-/

namespace ElectronixMes.Access

open Relational Db.Master Edge Edge.Master
open Db (ApiErr RepoError repoErr)

/-- What a row elsewhere names. -/
inductive Reference where
  | routing (workCenterId : String)
  | operation (workCenterId : String)
  | order (partId : String)
  deriving DecidableEq

/-- A reference comes to be; the row that it names must be there. -/
def Reference.hold (m : MasterData) : Reference → MasterData
  | routing id =>
      if (m.workCenters.lookup id).isSome then
        { m with routedWorkCenters := insert id m.routedWorkCenters }
      else m
  | operation id =>
      if (m.workCenters.lookup id).isSome then
        { m with operationWorkCenters := insert id m.operationWorkCenters }
      else m
  | order id =>
      if (m.parts.lookup id).isSome then { m with orderedParts := insert id m.orderedParts } else m

/-- A reference is gone. -/
def Reference.release (m : MasterData) : Reference → MasterData
  | routing id => { m with routedWorkCenters := m.routedWorkCenters.erase id }
  | operation id => { m with operationWorkCenters := m.operationWorkCenters.erase id }
  | order id => { m with orderedParts := m.orderedParts.erase id }

inductive Request where
  | login (body : LoginRequest)
  | pinLogin (body : PinLoginRequest)
  | write (w : MasterWrite)
  | hold (r : Reference)
  | release (r : Reference)

/-- A successful answer. -/
inductive Reply where
  | loggedIn (r : LoginResponse)
  | written (w : Written)
  | nothing
  deriving DecidableEq

def serve (cfg : AuthConfig) (m : MasterData) (call : Call) :
    Request → MasterData × Except ApiErr Reply
  | .login body => ((login cfg m call body).1, (login cfg m call body).2.map .loggedIn)
  | .pinLogin body => ((pinLogin cfg m call body).1, (pinLogin cfg m call body).2.map .loggedIn)
  | .write w => ((handleWrite cfg m call w).1, (handleWrite cfg m call w).2.map .written)
  | .hold r => (r.hold m, .ok .nothing)
  | .release r => (r.release m, .ok .nothing)

/-- An edge with the answers its logins have given. -/
structure Server where
  master : MasterData
  issued : List LoginResponse

abbrev Event := Call × Request

/-- The login that an answer carries. -/
def loginOf : Except ApiErr Reply → List LoginResponse
  | .ok (.loggedIn r) => [r]
  | _ => []

def step (cfg : AuthConfig) (s : Server) (a : Event) : Server :=
  ⟨(serve cfg s.master a.1 a.2).1, s.issued ++ loginOf (serve cfg s.master a.1 a.2).2⟩

/-! ## Logins -/

section Logins

variable {cfg : AuthConfig} {m : MasterData} {call : Call}

/-- The request shows what the user logs in with: a name with a secret that verifies against
the user's hash, or the user's badge. -/
def Shows (cfg : AuthConfig) (u : UserRow) : Request → Prop
  | .login body => body.username = u.username ∧ secretMatches cfg body.password u.passwordHash
  | .pinLogin body =>
      (∃ badge, badge ≠ "" ∧ body.badgeId = some badge ∧ u.badgeId = some badge) ∨
        body.username = some u.username ∧ ∃ pin, body.pin = some pin ∧
          secretMatches cfg pin u.pinHash
  | _ => False

/-- The way of a login, as its audit entry names it. -/
def loginMethod : Request → String
  | .pinLogin body =>
      match body.badgeId.filter (· ≠ "") with
      | some _ => "badge"
      | none => "pin"
  | _ => "password"

/-- The token and the answer that a login gives a user. -/
structure Answered (cfg : AuthConfig) (now : Int) (u : UserRow) (r : LoginResponse) : Prop where
  token : cfg.encode ⟨u.id, u.roleCode, now, now + cfg.ttlSecs⟩ = some r.token
  userId : r.userId = u.id
  username : r.username = u.username
  roleCode : r.roleCode = u.roleCode
  expiresAt : r.expiresAt = now + cfg.ttlSecs

/-- The state behind a login by a user. -/
def auditLogin (m : MasterData) (call : Call) (u : UserRow) (method : String) : MasterData :=
  audit m call (some u.id) "login" "user" (some u.id) (some (.obj [("method", .str method)]))

theorem finishLogin_ok {u : UserRow} {method : String} {r : LoginResponse}
    (h : (finishLogin cfg m call u method).2 = .ok r) :
    Answered cfg call.now u r ∧
      (finishLogin cfg m call u method).1 = auditLogin m call u method := by
  unfold finishLogin issueToken at h ⊢
  cases htoken : cfg.encode ⟨u.id, u.roleCode, call.now, call.now + cfg.ttlSecs⟩ with
  | none =>
      simp only [htoken, Option.map_none] at h
      cases h
  | some token =>
      simp only [htoken, Option.map_some] at h ⊢
      cases h
      exact ⟨⟨htoken, rfl, rfl, rfl, rfl⟩, rfl⟩

theorem finishLogin_error {u : UserRow} {method : String} {e : ApiErr}
    (h : (finishLogin cfg m call u method).2 = .error e) :
    (finishLogin cfg m call u method).1 = m := by
  unfold finishLogin at h ⊢
  split at h
  · rfl
  · cases h

theorem findAuthByUsername_ok {username : String} {u : UserRow}
    (h : findAuthByUsername m username = .ok u) : u ∈ m.users ∧ u.username = username := by
  unfold findAuthByUsername at h
  split at h
  · cases h
  · rename_i hfind
    cases h
    exact ⟨List.mem_of_find?_eq_some hfind, by simpa using List.find?_some hfind⟩

theorem findAuthByBadge_ok {badge : String} {u : UserRow}
    (h : findAuthByBadge m badge = .ok u) : u ∈ m.users ∧ u.badgeId = some badge := by
  unfold findAuthByBadge at h
  split at h
  · cases h
  · rename_i hfind
    cases h
    exact ⟨List.mem_of_find?_eq_some hfind, by simpa using List.find?_some hfind⟩

/-- The outcome of a login: the state is left alone, or an active user that some condition
holds of gets an answer and the login an audit entry. -/
def Outcome (cfg : AuthConfig) (m : MasterData) (call : Call) (method : String)
    (P : UserRow → Prop) (result : MasterData × Except ApiErr LoginResponse) : Prop :=
  (∃ e, result = (m, .error e)) ∨
    ∃ u ∈ m.users, u.active = true ∧ P u ∧ ∃ r, Answered cfg call.now u r ∧
      result = (auditLogin m call u method, .ok r)

theorem Outcome.mono {P Q : UserRow → Prop} {method : String}
    {result : MasterData × Except ApiErr LoginResponse} (h : Outcome cfg m call method P result)
    (hPQ : ∀ u ∈ m.users, P u → Q u) : Outcome cfg m call method Q result := by
  rcases h with h | ⟨u, hu, hactive, hP, hrest⟩
  · exact Or.inl h
  · exact Or.inr ⟨u, hu, hactive, hPQ u hu hP, hrest⟩

theorem finishLogin_outcome {P : UserRow → Prop} {u : UserRow} (hu : u ∈ m.users)
    (hactive : u.active = true) (hP : P u) (method : String) :
    Outcome cfg m call method P (finishLogin cfg m call u method) := by
  cases hresult : (finishLogin cfg m call u method).2 with
  | error e => exact Or.inl ⟨e, Prod.ext (finishLogin_error hresult) hresult⟩
  | ok r =>
      obtain ⟨hanswered, hstate⟩ := finishLogin_ok hresult
      exact Or.inr ⟨u, hu, hactive, hP, r, hanswered, Prod.ext hstate hresult⟩

theorem secretLogin_outcome (username plain : String) (stored : UserRow → Option String)
    (method : String) :
    Outcome cfg m call method
      (fun u => u.username = username ∧ secretMatches cfg plain (stored u))
      (secretLogin cfg m call username plain stored method) := by
  unfold secretLogin
  split
  · exact Or.inl ⟨_, rfl⟩
  · exact Or.inl ⟨_, rfl⟩
  · rename_i u hfind
    obtain ⟨hu, hname⟩ := findAuthByUsername_ok hfind
    split
    · rename_i hgate
      obtain ⟨hactive, hsecret⟩ := (Bool.and_eq_true _ _).mp hgate
      exact finishLogin_outcome hu hactive ⟨hname, hsecret⟩ method
    · exact Or.inl ⟨_, rfl⟩

theorem badgeLogin_outcome (badge : String) :
    Outcome cfg m call "badge" (fun u => u.badgeId = some badge)
      (badgeLogin cfg m call badge) := by
  unfold badgeLogin
  split
  · exact Or.inl ⟨_, rfl⟩
  · exact Or.inl ⟨_, rfl⟩
  · rename_i u hfind
    obtain ⟨hu, hbadge⟩ := findAuthByBadge_ok hfind
    split
    · rename_i hactive
      exact finishLogin_outcome hu hactive hbadge "badge"
    · exact Or.inl ⟨_, rfl⟩

theorem login_outcome (body : LoginRequest) :
    Outcome cfg m call (loginMethod (.login body)) (fun u => Shows cfg u (.login body))
      (login cfg m call body) :=
  (secretLogin_outcome _ _ _ _).mono fun _ _ h => ⟨h.1.symm, h.2⟩

theorem pinLogin_outcome (body : PinLoginRequest) :
    Outcome cfg m call (loginMethod (.pinLogin body)) (fun u => Shows cfg u (.pinLogin body))
      (pinLogin cfg m call body) := by
  cases hbadge : body.badgeId.filter (· ≠ "") with
  | some badge =>
      obtain ⟨hgiven, hne⟩ := Option.filter_eq_some_iff.mp hbadge
      simp only [pinLogin, loginMethod, hbadge]
      refine (badgeLogin_outcome badge).mono ?_
      intro u _ hu
      exact Or.inl ⟨badge, by simpa using hne, hgiven, hu⟩
  | none =>
      simp only [pinLogin, loginMethod, hbadge]
      split
      · rename_i username pin husername hpin
        split
        · refine (secretLogin_outcome _ _ _ _).mono ?_
          rintro u - ⟨hname, hsecret⟩
          exact Or.inr ⟨by rw [hname]; exact husername, pin, hpin, hsecret⟩
        · exact Or.inl ⟨_, rfl⟩
      · exact Or.inl ⟨_, rfl⟩

end Logins

/-! ## Writes -/

section Writes

variable {cfg : AuthConfig} {m m' : MasterData} {call : Call} {out : Written}

theorem mapError_eq_ok {ε ε' α : Type} {x : Except ε α} {f : ε → ε'} {a : α} :
    x.mapError f = .ok a ↔ x = .ok a := by
  cases x <;> simp [Except.mapError]

theorem created_ok {ρ : Type} {result : Except RepoError (MasterData × ρ)} {body : ρ → Body}
    {id : ρ → String} (h : created result body id = .ok (m', out)) :
    ∃ row, result = .ok (m', row) ∧ out = ⟨201, body row, id row⟩ := by
  obtain ⟨⟨mid, row⟩, hresult, heq⟩ := map_eq_ok.mp h
  cases heq
  exact ⟨row, mapError_eq_ok.mp hresult, rfl⟩

theorem updated_ok {ρ : Type} {result : Except RepoError (MasterData × ρ)} {body : ρ → Body}
    {id : String} (h : updated result body id = .ok (m', out)) :
    ∃ row, result = .ok (m', row) ∧ out = ⟨200, body row, id⟩ := by
  obtain ⟨⟨mid, row⟩, hresult, heq⟩ := map_eq_ok.mp h
  cases heq
  exact ⟨row, mapError_eq_ok.mp hresult, rfl⟩

theorem deleted_ok {result : Except RepoError MasterData} {id : String}
    (h : deleted result id = .ok (m', out)) : result = .ok m' ∧ out = ⟨204, .noContent, id⟩ := by
  obtain ⟨mid, hresult, heq⟩ := map_eq_ok.mp h
  cases heq
  exact ⟨mapError_eq_ok.mp hresult, rfl⟩

/-- A new user is created with the hashes of the secrets that were given. -/
theorem performCreateUser_ok {input : UserInput}
    (h : MasterWrite.perform cfg m call (.createUser input) = .ok (m', out)) :
    ∃ passwordHash pinHash row, hashGiven cfg call.passwordSalt input.password = .ok passwordHash ∧
      hashGiven cfg call.pinSalt input.pin = .ok pinHash ∧
      Db.Master.createUser m call.now call.id input.username input.displayName input.roleCode
        passwordHash pinHash (input.badgeId.filter (· ≠ "")) = .ok (m', row) ∧
      out = ⟨201, .user (User.ofRow row), row.id⟩ := by
  obtain ⟨passwordHash, hpassword, h⟩ := Db.bind_eq_ok.mp h
  obtain ⟨pinHash, hpin, h⟩ := Db.bind_eq_ok.mp h
  obtain ⟨row, hrow, hout⟩ := created_ok h
  exact ⟨passwordHash, pinHash, row, hpassword, hpin, hrow, hout⟩

theorem Sound.perform (h : Sound m) {w : MasterWrite}
    (hok : w.perform cfg m call = .ok (m', out)) : Sound m' := by
  cases w with
  | createSite input => exact h.createSite (created_ok hok).choose_spec.1
  | updateSite id input => exact h.updateSite (updated_ok hok).choose_spec.1
  | deleteSite id => exact h.deleteSite (deleted_ok hok).1
  | createArea input => exact h.createArea (created_ok hok).choose_spec.1
  | updateArea id input => exact h.updateArea (updated_ok hok).choose_spec.1
  | deleteArea id => exact h.deleteArea (deleted_ok hok).1
  | createWorkCenter input => exact h.createWorkCenter (created_ok hok).choose_spec.1
  | updateWorkCenter id input => exact h.updateWorkCenter (updated_ok hok).choose_spec.1
  | deleteWorkCenter id => exact h.deleteWorkCenter (deleted_ok hok).1
  | createPart input => exact h.createPart (created_ok hok).choose_spec.1
  | updatePart id input => exact h.updatePart (updated_ok hok).choose_spec.1
  | deletePart id => exact h.deletePart (deleted_ok hok).1
  | createUser input =>
      obtain ⟨_, _, _, -, -, hrow, -⟩ := performCreateUser_ok hok
      exact h.createUser hrow

/-- What no write touches: users and audit entries that are there stay as they are. -/
structure Lasts (m m' : MasterData) : Prop where
  users : ∀ u ∈ m.users, u ∈ m'.users
  auditLog : m'.auditLog = m.auditLog

theorem Lasts.refl (m : MasterData) : Lasts m m := ⟨fun _ hu => hu, rfl⟩

theorem lasts_map {α β : Type} {x : Except RepoError α} {f : α → MasterData × β} {b : β}
    (h : x.map f = .ok (m', b))
    (hf : ∀ a, (f a).1.users = m.users ∧ (f a).1.auditLog = m.auditLog) : Lasts m m' := by
  obtain ⟨a, -, heq⟩ := map_eq_ok.mp h
  obtain ⟨husers, hlog⟩ := hf a
  rw [heq] at husers hlog
  exact ⟨fun u hu => by rw [husers]; exact hu, hlog⟩

theorem lasts_dropWorkCenters {gone : WorkCenterRow → Bool}
    (h : dropWorkCenters m gone = .ok m') : Lasts m m' := by
  obtain ⟨rfl, -⟩ := dropWorkCenters_ok h
  exact ⟨fun _ hu => hu, rfl⟩

theorem perform_lasts {w : MasterWrite} (hok : w.perform cfg m call = .ok (m', out)) :
    Lasts m m' := by
  cases w with
  | createSite input => exact lasts_map (created_ok hok).choose_spec.1 fun _ => ⟨rfl, rfl⟩
  | updateSite id input => exact lasts_map (updated_ok hok).choose_spec.1 fun _ => ⟨rfl, rfl⟩
  | deleteSite id =>
      obtain ⟨mid, hdrop, rfl⟩ := deleteSite_ok (deleted_ok hok).1
      exact ⟨(lasts_dropWorkCenters hdrop).users, (lasts_dropWorkCenters hdrop).auditLog⟩
  | createArea input =>
      obtain ⟨-, -, areas, -, rfl⟩ := createArea_ok (created_ok hok).choose_spec.1
      exact ⟨fun _ hu => hu, rfl⟩
  | updateArea id input => exact lasts_map (updated_ok hok).choose_spec.1 fun _ => ⟨rfl, rfl⟩
  | deleteArea id =>
      obtain ⟨mid, hdrop, rfl⟩ := deleteArea_ok (deleted_ok hok).1
      exact ⟨(lasts_dropWorkCenters hdrop).users, (lasts_dropWorkCenters hdrop).auditLog⟩
  | createWorkCenter input =>
      obtain ⟨-, -, workCenters, -, rfl⟩ := createWorkCenter_ok (created_ok hok).choose_spec.1
      exact ⟨fun _ hu => hu, rfl⟩
  | updateWorkCenter id input =>
      exact lasts_map (updated_ok hok).choose_spec.1 fun _ => ⟨rfl, rfl⟩
  | deleteWorkCenter id => exact lasts_dropWorkCenters (deleteWorkCenter_ok (deleted_ok hok).1)
  | createPart input => exact lasts_map (created_ok hok).choose_spec.1 fun _ => ⟨rfl, rfl⟩
  | updatePart id input => exact lasts_map (updated_ok hok).choose_spec.1 fun _ => ⟨rfl, rfl⟩
  | deletePart id =>
      obtain ⟨-, rfl⟩ := deletePart_ok (deleted_ok hok).1
      exact ⟨fun _ hu => hu, rfl⟩
  | createUser input =>
      obtain ⟨_, _, _, -, -, hrow, -⟩ := performCreateUser_ok hok
      obtain ⟨-, -, users, hins, rfl⟩ := createUser_ok hrow
      exact ⟨fun u hu => (Table.mem_insert? (insertRow_ok hins).1).mpr (Or.inl hu), rfl⟩

/-- A handled write leaves the state alone, or a writer's statement runs and is audited. -/
theorem handleWrite_cases (cfg : AuthConfig) (m : MasterData) (call : Call) (w : MasterWrite) :
    (∃ e, handleWrite cfg m call w = (m, .error e)) ∨
      ∃ actor m' out, masterWriter cfg call.now call.authorization = .ok actor ∧
        w.perform cfg m call = .ok (m', out) ∧
        handleWrite cfg m call w =
          (audit m' call (some actor.userId) w.subject.1 w.subject.2 (some out.entityId) none,
            .ok out) := by
  unfold handleWrite
  cases hactor : masterWriter cfg call.now call.authorization with
  | error e => exact Or.inl ⟨e, rfl⟩
  | ok actor =>
      dsimp only
      cases hperform : w.perform cfg m call with
      | error e => exact Or.inl ⟨e, rfl⟩
      | ok result => exact Or.inr ⟨actor, result.1, result.2, rfl, rfl, rfl⟩

end Writes

/-! ## Steps -/

section Steps

variable {cfg : AuthConfig} {m : MasterData} {call : Call}

theorem audit_users (m : MasterData) (call : Call) (actorId : Option String)
    (action entity : String) (entityId : Option String) (detail : Option Serde.Json) :
    (audit m call actorId action entity entityId detail).users = m.users := by
  unfold audit
  split
  · rfl
  · split
    · rfl
    · rename_i hok
      obtain ⟨-, auditLog, -, rfl⟩ := insertAudit_ok hok
      rfl

theorem hold_lasts (m : MasterData) (r : Reference) :
    (r.hold m).users = m.users ∧ (r.hold m).auditLog = m.auditLog := by
  cases r <;> rw [Reference.hold] <;> split <;> exact ⟨rfl, rfl⟩

theorem Sound.hold (h : Sound m) (r : Reference) : Sound (r.hold m) := by
  cases r with
  | routing id =>
      rw [Reference.hold]
      split
      · rename_i hthere
        exact { h with
          routed := by
            intro k hk
            rcases Finset.mem_insert.mp hk with rfl | hk
            · exact Table.isSome_lookup.mp hthere
            · exact h.routed k hk }
      · exact h
  | operation id =>
      rw [Reference.hold]
      split
      · rename_i hthere
        exact { h with
          operated := by
            intro k hk
            rcases Finset.mem_insert.mp hk with rfl | hk
            · exact Table.isSome_lookup.mp hthere
            · exact h.operated k hk }
      · exact h
  | order id =>
      rw [Reference.hold]
      split
      · rename_i hthere
        exact { h with
          ordered := by
            intro k hk
            rcases Finset.mem_insert.mp hk with rfl | hk
            · exact Table.isSome_lookup.mp hthere
            · exact h.ordered k hk }
      · exact h

theorem Sound.release (h : Sound m) (r : Reference) : Sound (r.release m) := by
  cases r with
  | routing id => exact { h with routed := fun k hk => h.routed k (Finset.mem_of_mem_erase hk) }
  | operation id =>
      exact { h with operated := fun k hk => h.operated k (Finset.mem_of_mem_erase hk) }
  | order id => exact { h with ordered := fun k hk => h.ordered k (Finset.mem_of_mem_erase hk) }

/-- What a login does to the state, whatever the condition on its user. -/
theorem Outcome.sound {method : String} {P : UserRow → Prop}
    {result : MasterData × Except ApiErr LoginResponse} (h : Sound m)
    (hout : Outcome cfg m call method P result) : Sound result.1 := by
  rcases hout with ⟨e, rfl⟩ | ⟨u, -, -, -, r, -, rfl⟩
  · exact h
  · exact h.audit call _ _ _ _ _

theorem Sound.serve (h : Sound m) (req : Request) : Sound (serve cfg m call req).1 := by
  cases req with
  | login body => exact (login_outcome body).sound h
  | pinLogin body => exact (pinLogin_outcome body).sound h
  | write w =>
      change Sound (handleWrite cfg m call w).1
      rcases handleWrite_cases cfg m call w with ⟨e, heq⟩ | ⟨actor, m', out, -, hperform, heq⟩
      · rw [heq]
        exact h
      · rw [heq]
        exact (h.perform hperform).audit call _ _ _ _ _
  | hold r => exact h.hold r
  | release r => exact h.release r

theorem Outcome.users {method : String} {P : UserRow → Prop}
    {result : MasterData × Except ApiErr LoginResponse}
    (hout : Outcome cfg m call method P result) : result.1.users = m.users := by
  rcases hout with ⟨e, rfl⟩ | ⟨u, -, -, -, r, -, rfl⟩
  · rfl
  · exact audit_users m call _ _ _ _ _

/-- No request changes or removes a user. -/
theorem serve_users {u : UserRow} (hu : u ∈ m.users) (req : Request) :
    u ∈ (serve cfg m call req).1.users := by
  cases req with
  | login body =>
      change u ∈ (login cfg m call body).1.users
      rw [(login_outcome body).users]
      exact hu
  | pinLogin body =>
      change u ∈ (pinLogin cfg m call body).1.users
      rw [(pinLogin_outcome body).users]
      exact hu
  | write w =>
      change u ∈ (handleWrite cfg m call w).1.users
      rcases handleWrite_cases cfg m call w with ⟨e, heq⟩ | ⟨actor, m', out, -, hperform, heq⟩
      · rw [heq]
        exact hu
      · rw [heq, audit_users]
        exact (perform_lasts hperform).users u hu
  | hold r =>
      change u ∈ (r.hold m).users
      rw [(hold_lasts m r).1]
      exact hu
  | release r => cases r <;> exact hu

end Steps

/-- The state in front of the `k`-th event of a run. -/
def stateAt (cfg : AuthConfig) (s : Server) (run : List Event) (k : ℕ) : Server :=
  (run.take k).foldl (step cfg) s

theorem stateAt_succ (cfg : AuthConfig) (s : Server) {run : List Event} {k : ℕ} {a : Event}
    (ha : run[k]? = some a) : stateAt cfg s run (k + 1) = step cfg (stateAt cfg s run k) a := by
  rw [stateAt, stateAt, List.take_add_one, ha]
  simp

/-- Users last: who is there at one point of a run is there unchanged at every later one. -/
theorem users_last (cfg : AuthConfig) (s : Server) (run : List Event) {j k : ℕ} (hjk : j ≤ k)
    {u : UserRow} (hu : u ∈ (stateAt cfg s run j).master.users) :
    u ∈ (stateAt cfg s run k).master.users := by
  induction hjk with
  | refl => exact hu
  | @step k _ ih =>
      rcases Transition.foldl_take_succ (step cfg) s run k with hsame | ⟨a, -, heq⟩
      · rw [stateAt, hsame]
        exact ih
      · rw [stateAt, heq]
        exact serve_users ih a.2

end ElectronixMes.Access
