import ElectronixMes.Access.Requests

/-!
# Credentials over a run

Names and badges tell users apart in every state that a run reaches, and nothing changes a user.
So a user who was created once logs in ever after with what the creation gave, and not otherwise.
-/

namespace ElectronixMes.Access

open Relational Db.Master Edge Edge.Master
open Db (ApiErr RepoError repoErr)

variable {cfg : AuthConfig} {s : Server} {run : List Event}

/-- No request of any run breaks the integrity of the master data. -/
theorem sound_stateAt (h : Sound s.master) (k : ℕ) : Sound (stateAt cfg s run k).master := by
  induction k with
  | zero => simpa [stateAt] using h
  | succ k ih =>
      rcases Transition.foldl_take_succ (step cfg) s run k with hsame | ⟨a, -, heq⟩
      · rw [stateAt, hsame]
        exact ih
      · rw [stateAt, heq]
        exact ih.serve a.2

section Finding

variable {m : MasterData} {u v : UserRow}

theorem eq_of_username (h : Sound m) (hu : u ∈ m.users) (hv : v ∈ m.users)
    (hname : u.username = v.username) : u = v := by
  apply Table.eq_of_key_eq hu hv
  refine h.users _ List.mem_cons_self u hu v hv ?_
  exact decide_eq_true hname

theorem eq_of_badge (h : Sound m) (hu : u ∈ m.users) (hv : v ∈ m.users) {badge : String}
    (hub : u.badgeId = some badge) (hvb : v.badgeId = some badge) : u = v := by
  apply Table.eq_of_key_eq hu hv
  refine h.users _ (List.mem_cons_of_mem _ List.mem_cons_self) u hu v hv ?_
  simp [uniqueNullable, hub, hvb]

/-- A name finds its user. -/
theorem findAuthByUsername_of_mem (h : Sound m) (hu : u ∈ m.users) :
    findAuthByUsername m u.username = .ok u := by
  cases hfind : findAuthByUsername m u.username with
  | error e =>
      unfold findAuthByUsername at hfind
      split at hfind
      · rename_i hnone
        have hno := List.find?_eq_none.mp hnone u hu
        simp at hno
      · cases hfind
  | ok v =>
      obtain ⟨hv, hname⟩ := findAuthByUsername_ok hfind
      rw [eq_of_username h hv hu hname]

/-- A badge finds its bearer, and one that nobody bears finds nobody. -/
theorem findAuthByBadge_of_mem (h : Sound m) (hu : u ∈ m.users) {badge : String}
    (hbadge : u.badgeId = some badge) : findAuthByBadge m badge = .ok u := by
  cases hfind : findAuthByBadge m badge with
  | error e =>
      unfold findAuthByBadge at hfind
      split at hfind
      · rename_i hnone
        have hno := List.find?_eq_none.mp hnone u hu
        simp [hbadge] at hno
      · cases hfind
  | ok v =>
      obtain ⟨hv, hvb⟩ := findAuthByBadge_ok hfind
      rw [eq_of_badge h hv hu hvb hbadge]

end Finding

section Logins

variable {m : MasterData} {call : Call} {u : UserRow}

/-- Signing always succeeds. -/
def AlwaysSigns (cfg : AuthConfig) : Prop := ∀ c, ∃ token, cfg.encode c = some token

theorem finishLogin_of_signs (hsign : AlwaysSigns cfg) (method : String) :
    ∃ r, (finishLogin cfg m call u method).2 = .ok r ∧ r.userId = u.id := by
  obtain ⟨token, htoken⟩ := hsign ⟨u.id, u.roleCode, call.now, call.now + cfg.ttlSecs⟩
  refine ⟨⟨token, u.id, u.username, u.roleCode, call.now + cfg.ttlSecs⟩, ?_, rfl⟩
  simp only [finishLogin, issueToken, htoken, Option.map_some]

/-- A login by the name of an active user succeeds exactly when the secret verifies. -/
theorem secretLogin_isOk (hsign : AlwaysSigns cfg) (h : Sound m) (hu : u ∈ m.users)
    (hactive : u.active = true) {plain : String} {stored : UserRow → Option String}
    {method : String} :
    (∃ r, (secretLogin cfg m call u.username plain stored method).2 = .ok r) ↔
      secretMatches cfg plain (stored u) = true := by
  unfold secretLogin
  rw [findAuthByUsername_of_mem h hu]
  dsimp only
  rw [hactive, Bool.true_and]
  constructor
  · rintro ⟨r, hr⟩
    split at hr
    · assumption
    · cases hr
  · intro hsecret
    rw [if_pos hsecret]
    obtain ⟨r, hr, -⟩ := finishLogin_of_signs (m := m) (u := u) hsign method
    exact ⟨r, hr⟩

/-- A scanned badge logs in its bearer alone. -/
theorem badgeLogin_isOk (hsign : AlwaysSigns cfg) (h : Sound m) (hu : u ∈ m.users)
    (hactive : u.active = true) {badge : String} :
    (∃ r, (badgeLogin cfg m call badge).2 = .ok r ∧ r.userId = u.id) ↔
      u.badgeId = some badge := by
  constructor
  · rintro ⟨r, hr, hid⟩
    rcases @badgeLogin_outcome cfg m call badge with
      ⟨e, heq⟩ | ⟨v, hv, -, hbadge, r', hanswered, heq⟩
    · rw [heq] at hr
      cases hr
    · rw [heq] at hr
      cases hr
      have hsame : v = u := Table.eq_of_key_eq hv hu (hanswered.userId.symm.trans hid)
      rw [← hsame]
      exact hbadge
  · intro hbadge
    unfold badgeLogin
    rw [findAuthByBadge_of_mem h hu hbadge]
    dsimp only
    rw [if_pos hactive]
    exact finishLogin_of_signs hsign "badge"

end Logins

/-! ## From the creation on -/

/-- A secret verifies against the hash of the one that was given, if that one is not empty. -/
def VerifiesGiven (cfg : AuthConfig) (salt : String) (given : Option String) (q : String) : Prop :=
  ∃ p phc, given = some p ∧ p ≠ "" ∧ cfg.hash salt p = some phc ∧ cfg.verify q phc = true

theorem secretMatches_hashGiven {salt : String} {given stored : Option String}
    (h : hashGiven cfg salt given = .ok stored) (q : String) :
    secretMatches cfg q stored = true ↔ VerifiesGiven cfg salt given q := by
  unfold hashGiven at h
  split at h
  · rename_i hnone
    cases h
    rw [Option.filter_eq_none_iff] at hnone
    constructor
    · intro hmatch
      cases hmatch
    · rintro ⟨p, phc, rfl, hne, -⟩
      exact absurd (hnone p rfl) (by simpa using hne)
  · rename_i p hsome
    obtain ⟨rfl, hne⟩ := Option.filter_eq_some_iff.mp hsome
    split at h
    · cases h
    · rename_i phc hphc
      cases h
      rw [secretMatches, Option.any_some]
      constructor
      · intro hverify
        exact ⟨p, phc, rfl, by simpa using hne, hphc, hverify⟩
      · rintro ⟨p', phc', hp, -, hphc', hverify⟩
        obtain rfl := Option.some.inj hp
        obtain rfl := Option.some.inj (hphc.symm.trans hphc')
        exact hverify

/-- The row that an accepted creation leaves. -/
theorem createUser_row {m : MasterData} {call : Call} {input : UserInput} {out : Written}
    (hok : (handleWrite cfg m call (.createUser input)).2 = .ok out) :
    ∃ u ∈ (handleWrite cfg m call (.createUser input)).1.users, u.id = out.entityId ∧
      u.active = true ∧ u.username = input.username ∧ u.roleCode = input.roleCode ∧
      u.badgeId = input.badgeId.filter (· ≠ "") ∧
      hashGiven cfg call.passwordSalt input.password = .ok u.passwordHash ∧
      hashGiven cfg call.pinSalt input.pin = .ok u.pinHash := by
  rcases handleWrite_cases cfg m call (.createUser input) with
    ⟨e, heq⟩ | ⟨actor, m', written, -, hperform, heq⟩
  · rw [heq] at hok
    cases hok
  · rw [heq] at hok
    cases hok
    obtain ⟨passwordHash, pinHash, row, hpassword, hpin, hcreate, hout⟩ :=
      performCreateUser_ok hperform
    obtain ⟨hrow, -, users, hins, rfl⟩ := createUser_ok hcreate
    have hmem : row ∈ users := (Table.mem_insert? (insertRow_ok hins).1).mpr (Or.inr rfl)
    refine ⟨row, ?_, ?_, ?_⟩
    · rw [heq, audit_users]
      exact hmem
    · rw [hout]
    · rw [hrow]
      exact ⟨rfl, rfl, rfl, rfl, hpassword, hpin⟩

/-- From its creation on, whatever else is asked of the edge, a user logs in with exactly the
passwords and PINs that verify against the hashes of those that the creation gave, each only if
it was not empty, and the badge of the creation logs in this user alone. -/
theorem credentials_last (hsign : AlwaysSigns cfg) (hsound : Sound s.master) {k : ℕ}
    {call : Call} {input : UserInput} {out : Written}
    (hk : run[k]? = some (call, .write (.createUser input)))
    (hok : (handleWrite cfg (stateAt cfg s run k).master call (.createUser input)).2 = .ok out)
    {l : ℕ} (hl : k < l) (later : Call) :
    (∀ q, (∃ r, (login cfg (stateAt cfg s run l).master later ⟨input.username, q⟩).2 = .ok r) ↔
      VerifiesGiven cfg call.passwordSalt input.password q) ∧
    (∀ q, (∃ r, (pinLogin cfg (stateAt cfg s run l).master later
        ⟨some input.username, some q, none⟩).2 = .ok r) ↔
      input.username ≠ "" ∧ q ≠ "" ∧ VerifiesGiven cfg call.pinSalt input.pin q) ∧
    (∀ badge username pin, badge ≠ "" →
      ((∃ r, (pinLogin cfg (stateAt cfg s run l).master later
          ⟨username, pin, some badge⟩).2 = .ok r ∧ r.userId = out.entityId) ↔
        input.badgeId = some badge)) := by
  obtain ⟨u, hu, hid, hactive, hname, -, hbadge, hpassword, hpin⟩ := createUser_row hok
  have hnext : u ∈ (stateAt cfg s run (k + 1)).master.users := by
    rw [stateAt_succ cfg s hk]
    exact hu
  have hlater := users_last cfg s run hl hnext
  have hsoundl : Sound (stateAt cfg s run l).master := sound_stateAt hsound l
  refine ⟨?_, ?_, ?_⟩
  · intro q
    rw [← secretMatches_hashGiven hpassword q, ← hname]
    exact secretLogin_isOk hsign hsoundl hlater hactive
  · intro q
    rw [← secretMatches_hashGiven hpin q, ← hname]
    have hnobadge : ((none : Option String).filter fun b => decide (b ≠ "")) = none := rfl
    simp only [pinLogin, hnobadge]
    by_cases hgate : u.username ≠ "" ∧ q ≠ ""
    · rw [if_pos hgate, secretLogin_isOk hsign hsoundl hlater hactive, and_iff_right hgate.1,
        and_iff_right hgate.2]
    · rw [if_neg hgate]
      constructor
      · rintro ⟨r, hr⟩
        cases hr
      · rintro ⟨hname, hq, -⟩
        exact absurd ⟨hname, hq⟩ hgate
  · intro badge username pin hne
    have hgiven : ((some badge).filter fun b => decide (b ≠ "")) = some badge := by
      simp [hne]
    simp only [pinLogin, hgiven]
    rw [← hid, badgeLogin_isOk hsign hsoundl hlater hactive, hbadge, Option.filter_eq_some_iff]
    simp [hne]

section Sample

/-- An administrator with a token; a secret is hashed by its salt in front of it. -/
def enrolConfig : AuthConfig where
  ttlSecs := 600
  encode _ := some "badge office"
  decode t := if t = "badge office" then some ⟨"u0", "Admin", 0, 600⟩ else none
  hash salt plain := some (salt ++ plain)
  verify plain phc := phc = "p-salt" ++ plain || phc = "n-salt" ++ plain

def enrolCall : Call where
  now := 60
  authorization := some "Bearer badge office"
  id := "u1"
  auditId := "e1"
  passwordSalt := "p-salt"
  pinSalt := "n-salt"

def newOperator : UserInput := ⟨"omar", "Omar", "Operator", none, some "4711", some "B-17"⟩

/-- The new operator logs in with the PIN of the creation, not with another one, and a user
without a password logs in with none. -/
theorem enrolled_credentials_last :
    let after :=
      (stateAt enrolConfig ⟨{}, []⟩ [(enrolCall, .write (.createUser newOperator))] 1).master
    (∃ r, (pinLogin enrolConfig after enrolCall ⟨some "omar", some "4711", none⟩).2 = .ok r) ∧
    (¬ ∃ r, (pinLogin enrolConfig after enrolCall ⟨some "omar", some "4712", none⟩).2 = .ok r) ∧
    ∀ q, ¬ ∃ r, (login enrolConfig after enrolCall ⟨"omar", q⟩).2 = .ok r := by
  have hsound : Sound (Server.mk {} []).master := by
    constructor <;> decide
  have hcreated : (handleWrite enrolConfig (stateAt enrolConfig ⟨{}, []⟩
      [(enrolCall, .write (.createUser newOperator))] 0).master enrolCall
        (.createUser newOperator)).2 =
      .ok ⟨201, .user ⟨"u1", "omar", "Omar", "Operator", true, 60, 60⟩, "u1"⟩ := by
    decide
  obtain ⟨hpassword, hpin, -⟩ := credentials_last (s := ⟨{}, []⟩) (fun _ => ⟨_, rfl⟩) hsound rfl
    hcreated Nat.zero_lt_one enrolCall
  refine ⟨(hpin "4711").mpr ⟨by decide, by decide, "4711", _, rfl, by decide, rfl, by decide⟩,
    ?_, ?_⟩
  · intro hlogin
    obtain ⟨-, -, p, phc, hgiven, -, hhash, hverify⟩ := (hpin "4712").mp hlogin
    cases hgiven
    cases hhash
    exact absurd hverify (by decide)
  · intro q hlogin
    obtain ⟨p, phc, hgiven, -⟩ := (hpassword q).mp hlogin
    cases hgiven

end Sample

end ElectronixMes.Access
