import ElectronixMes.Integration.Requests

/-!
# Connections in the plain

What the connections are for: each has an endpoint and the token that was last given for it. Such
an account can be kept of the requests and their answers alone. The stored rows, with their tokens
decrypted, are this account after every run, so a push goes to the endpoint that was written last
and bears the token that was given last.
-/

namespace ElectronixMes.Integration

open Relational Serde Edge Erp Transition
open Db (ApiErr RepoError repoErr ConnRow ConnFields ErpConnection)

/-- A connection in the plain. -/
structure Conn where
  siteId : Option String
  name : String
  endpointUrl : String
  token : Option String
  fieldMapping : Json
  direction : String
  enabled : Bool
  createdAt : Int
  updatedAt : Int

/-- What a client may see of it. -/
def Conn.public (c : Conn) (id : String) : ErpConnection :=
  ⟨id, c.siteId, c.name, c.endpointUrl, c.token.isSome, c.fieldMapping, c.direction, c.enabled,
    c.createdAt, c.updatedAt⟩

/-- The connections by their ids. -/
abbrev Vault := String → Option Conn

/-- The token that an input gives. -/
def given (input : ErpConnectionInput) : Option String := input.authToken.filter (· ≠ "")

/-- The connection that an input writes over one with a token. -/
def written (input : ErpConnectionInput) (now createdAt : Int) (kept : Option String) : Conn where
  siteId := input.siteId
  name := input.name
  endpointUrl := input.endpointUrl
  token := given input <|> kept
  fieldMapping := fieldMappingOrDefault input.fieldMapping
  direction := input.direction.getD "both"
  enabled := input.enabled.getD true
  createdAt := createdAt
  updatedAt := now

/-- What an answered request means for the account. -/
def Vault.note (v : Vault) (a : Event) : Except ApiErr Reply → Vault
  | .error _ => v
  | .ok _ =>
      match a.2 with
      | .create input => Function.update v a.1.id (some (written input a.1.now a.1.now none))
      | .update id input =>
          Function.update v id
            ((v id).map fun c => written input a.1.now c.createdAt c.token)
      | .delete id => Function.update v id none
      | .master (.deleteSite id) => fun k => (v k).filter fun c => c.siteId ≠ some id
      | _ => v

section Opening

variable (cfg : ErpConfig)

/-- A row with its token decrypted. -/
def opened (r : ConnRow) : Conn :=
  ⟨r.siteId, r.name, r.endpointUrl, r.authTokenEnc.bind (decryptToken cfg), r.fieldMapping,
    r.direction, r.enabled, r.createdAt, r.updatedAt⟩

/-- The stored connections in the plain. -/
def plain (s : ErpServer) : Vault := fun id => (s.data.connections.lookup id).map (opened cfg)

/-- Every stored token decrypts. -/
def Sealed (s : ErpServer) : Prop :=
  ∀ r ∈ s.data.connections, ∀ enc ∈ r.authTokenEnc, (decryptToken cfg enc).isSome = true

variable {cfg} {s : ErpServer} {call : ErpCall}

theorem Sealed.of_connections {s' : ErpServer} (h : Sealed cfg s)
    (hsub : ∀ r ∈ s'.data.connections, r ∈ s.data.connections) : Sealed cfg s' :=
  fun r hr => h r (hsub r hr)

theorem plain_of_connections {s' : ErpServer} (h : s'.data.connections = s.data.connections) :
    plain cfg s' = plain cfg s := by
  unfold plain
  rw [h]

/-- A token is stored such that it decrypts to what was given. -/
theorem encryptToken_ok (hp : cfg.primitives.Lawful) {plaintext enc : Option String}
    (h : encryptToken cfg call plaintext = .ok enc) :
    enc.bind (decryptToken cfg) = plaintext.filter (· ≠ "") ∧
      ∀ e ∈ enc, (decryptToken cfg e).isSome = true := by
  unfold encryptToken at h
  split at h
  · rename_i hnone
    cases h
    exact ⟨hnone.symm, fun e he => absurd he (Option.not_mem_none e)⟩
  · rename_i t hsome
    split at h
    · cases h
    · rename_i e hencrypt
      cases h
      have hdecrypt : decryptToken cfg e = some t := by
        rw [decryptToken, Crypto.decrypt_of_encrypt hp hencrypt]
        rfl
      refine ⟨hdecrypt.trans hsome.symm, ?_⟩
      intro e' he'
      obtain rfl := Option.mem_some_iff.mp he'
      rw [hdecrypt]
      rfl

/-- The columns that an input gives, its token in the plain. -/
theorem connFields_ok (hp : cfg.primitives.Lawful) {input : ErpConnectionInput} {f : ConnFields}
    (h : connFields cfg call input = .ok f) :
    f.siteId = input.siteId ∧ f.name = input.name ∧ f.endpointUrl = input.endpointUrl ∧
      f.fieldMapping = fieldMappingOrDefault input.fieldMapping ∧
      f.direction = input.direction.getD "both" ∧ f.enabled = input.enabled.getD true ∧
      f.authTokenEnc.bind (decryptToken cfg) = given input ∧
      ∀ e ∈ f.authTokenEnc, (decryptToken cfg e).isSome = true := by
  obtain ⟨direction, hdirection, h⟩ := Db.bind_eq_ok.mp h
  obtain ⟨enc, henc, h⟩ := Db.bind_eq_ok.mp h
  cases h
  obtain ⟨hopen, hsealed⟩ := encryptToken_ok hp henc
  refine ⟨rfl, rfl, rfl, rfl, ?_, rfl, hopen, hsealed⟩
  unfold normalizeDirection at hdirection
  split at hdirection
  · cases hdirection
    rfl
  · cases hdirection

theorem opened_row (hp : cfg.primitives.Lawful) {input : ErpConnectionInput} {f : ConnFields}
    (h : connFields cfg call input = .ok f) (id : String) (now : Int) :
    opened cfg (f.row id now) = written input now now none := by
  obtain ⟨hsite, hname, hurl, hmapping, hdirection, henabled, htoken, -⟩ := connFields_ok hp h
  simp only [opened, ConnFields.row, written, hsite, hname, hurl, hmapping, hdirection, henabled,
    htoken, Option.orElse_eq_orElse, Option.orElse_eq_or, Option.or_none]

/-- A token that is given takes the place of the stored one, which otherwise stays. -/
theorem opened_set (hp : cfg.primitives.Lawful) {input : ErpConnectionInput} {f : ConnFields}
    (h : connFields cfg call input = .ok f) (now : Int) (r : ConnRow) :
    opened cfg (f.set now r) =
      written input now (opened cfg r).createdAt (opened cfg r).token := by
  obtain ⟨hsite, hname, hurl, hmapping, hdirection, henabled, htoken, hsealed⟩ :=
    connFields_ok hp h
  have hkept : (f.authTokenEnc <|> r.authTokenEnc).bind (decryptToken cfg) =
      (given input <|> r.authTokenEnc.bind (decryptToken cfg)) := by
    rw [← htoken]
    cases henc : f.authTokenEnc with
    | none => rfl
    | some e =>
        obtain ⟨t, ht⟩ := Option.isSome_iff_exists.mp (hsealed e henc)
        simp [ht]
  simp only [opened, ConnFields.set, written, hsite, hname, hurl, hmapping, hdirection, henabled,
    hkept]

end Opening

section Steps

variable {cfg : ErpConfig} {s : ErpServer}

/-- What a request does to the connections, with its answer and what that means for an account. -/
inductive Effect (cfg : ErpConfig) (s : ErpServer) (a : Event) (s' : ErpServer)
    (reply : Except ApiErr Reply) : Prop where
  | kept (hrows : s'.data.connections = s.data.connections)
      (hnote : ∀ v : Vault, v.note a reply = v)
  | created {input : ErpConnectionInput} {f : ConnFields} (hf : connFields cfg a.1 input = .ok f)
      (hrows : s.data.connections.insert? (f.row a.1.id a.1.now) = some s'.data.connections)
      (hnote : ∀ v : Vault, v.note a reply =
        Function.update v a.1.id (some (written input a.1.now a.1.now none)))
  | updated {id : String} {input : ErpConnectionInput} {f : ConnFields} {r : ConnRow}
      (hf : connFields cfg a.1 input = .ok f) (hr : s.data.connections.lookup id = some r)
      (hrows : s'.data.connections = s.data.connections.put (f.set a.1.now r))
      (hnote : ∀ v : Vault, v.note a reply = Function.update v id
        ((v id).map fun c => written input a.1.now c.createdAt c.token))
  | deleted {id : String}
      (hrows : s'.data.connections = s.data.connections.delete fun r => r.id = id)
      (hnote : ∀ v : Vault, v.note a reply = Function.update v id none)
  | siteDeleted {id : String}
      (hrows : s'.data.connections = s.data.connections.delete fun r => r.siteId = some id)
      (hnote : ∀ v : Vault, v.note a reply = fun k => (v k).filter fun c => c.siteId ≠ some id)

/-- A handler that only reads leaves the server alone. -/
theorem behindWriter_read {α : Type} {call : ErpCall} (answer : Except ApiErr α) :
    (behindWriter cfg s call fun _ => (s, answer)).1 = s := by
  rcases behindWriter_cases cfg s call (fun _ => (s, answer)) with
    ⟨e, -, heq⟩ | ⟨actor, -, heq⟩ <;> rw [heq]

theorem note_error (a : Event) (e : ApiErr) (v : Vault) : v.note a (.error e) = v := rfl

/-- What an account makes of a request that is neither a write to a connection nor the deletion
of a site. -/
theorem note_other {a : Event} {reply : Except ApiErr Reply} (v : Vault)
    (h : ∀ r, v.note a (.ok r) = v) : v.note a reply = v := by
  cases reply with
  | error e => exact note_error a e v
  | ok r => exact h r

theorem master_effect (call : ErpCall) (w : Master.MasterWrite) :
    Effect cfg s (call, .master w) (writeMaster cfg s call w).1
      ((writeMaster cfg s call w).2.map .written) := by
  have hrows := writeMaster_connections cfg s call w
  cases hreply : (writeMaster cfg s call w).2 with
  | error e =>
      rw [hreply] at hrows
      refine Effect.kept ?_ fun v => rfl
      cases w <;> exact hrows
  | ok out =>
      rw [hreply] at hrows
      cases w with
      | deleteSite id => exact Effect.siteDeleted hrows fun v => rfl
      | _ => exact Effect.kept hrows fun v => rfl

theorem serve_effect (cfg : ErpConfig) (s : ErpServer) (a : Event) :
    Effect cfg s a (serve cfg s a).1 (serve cfg s a).2 := by
  obtain ⟨call, req⟩ := a
  cases req with
  | create input =>
      simp only [serve, replied]
      rcases createConnection_cases cfg s call input with
        ⟨e, heq⟩ | ⟨f, connections, s', hf, hins, hs', heq⟩
      · rw [heq]
        exact Effect.kept rfl (note_error _ e)
      · rw [heq]
        exact Effect.created hf (hins.trans (congrArg some hs'.symm)) fun v => rfl
  | update id input =>
      simp only [serve, replied]
      rcases updateConnection_cases cfg s call id input with
        ⟨e, heq⟩ | ⟨f, row, s', hf, hrow, hs', heq⟩
      · rw [heq]
        exact Effect.kept rfl (note_error _ e)
      · rw [heq]
        exact Effect.updated hf hrow hs' fun v => rfl
  | delete id =>
      simp only [serve, replied]
      rcases deleteConnection_cases cfg s call id with
        ⟨e, heq⟩ | ⟨s', hs', heq⟩
      · rw [heq]
        exact Effect.kept rfl (note_error _ e)
      · rw [heq]
        exact Effect.deleted hs' fun v => rfl
  | master w => exact master_effect call w
  | importFrom req =>
      exact Effect.kept (importFrom_connections cfg s call req) fun v => note_other v fun r => rfl
  | exportTo req =>
      exact Effect.kept (exportTo_connections cfg s call req) fun v => note_other v fun r => rfl
  | list =>
      refine Effect.kept ?_ fun v => note_other v fun r => rfl
      exact congrArg (fun s => s.data.connections) (behindWriter_read _)
  | get id =>
      refine Effect.kept ?_ fun v => note_other v fun r => rfl
      exact congrArg (fun s => s.data.connections) (behindWriter_read _)
  | syncLog connectionId =>
      refine Effect.kept ?_ fun v => note_other v fun r => rfl
      exact congrArg (fun s => s.data.connections) (behindWriter_read _)
  | elsewhere db cmms => exact Effect.kept rfl fun v => rfl

variable (hp : cfg.primitives.Lawful)
include hp

/-- No request stores a token that does not decrypt. -/
theorem Sealed.serve (h : Sealed cfg s) (a : Event) : Sealed cfg (serve cfg s a).1 := by
  cases serve_effect cfg s a with
  | kept hrows hnote => exact h.of_connections fun r hr => hrows ▸ hr
  | created hf hrows hnote =>
      intro r hr
      rcases (Table.mem_insert? hrows).mp hr with hr | rfl
      · exact h r hr
      · exact (connFields_ok hp hf).2.2.2.2.2.2.2
  | updated hf hrow hrows hnote =>
      intro r hr
      rw [hrows] at hr
      rcases Table.mem_put.mp hr with rfl | ⟨hr, -⟩
      · intro e he
        rw [ConnFields.set_token] at he
        rcases Option.or_eq_some_iff.mp he with hgiven | ⟨-, hkept⟩
        · exact (connFields_ok hp hf).2.2.2.2.2.2.2 e hgiven
        · exact h _ (Table.lookup_eq_some.mp hrow).1 e hkept
      · exact h r hr
  | deleted hrows hnote =>
      exact h.of_connections fun r hr => (Table.mem_delete.mp (hrows ▸ hr)).1
  | siteDeleted hrows hnote =>
      exact h.of_connections fun r hr => (Table.mem_delete.mp (hrows ▸ hr)).1

/-- A step of the server is a step of the account. -/
theorem plain_serve (a : Event) :
    plain cfg (Integration.serve cfg s a).1 =
      (plain cfg s).note a (Integration.serve cfg s a).2 := by
  cases serve_effect cfg s a with
  | kept hrows hnote => rw [hnote, plain_of_connections hrows]
  | @created input f hf hrows hnote =>
      rw [hnote]
      funext k
      rw [plain, Table.lookup_insert? hrows, ConnFields.key_row]
      by_cases hk : k = a.1.id
      · subst hk
        rw [if_pos rfl, Function.update_self, Option.map_some, opened_row hp hf]
      · rw [if_neg hk, Function.update_of_ne hk, plain]
  | @updated id input f r hf hrow hrows hnote =>
      have hid : r.id = id := (Table.lookup_eq_some.mp hrow).2
      rw [hnote]
      funext k
      rw [plain, hrows, Table.lookup_put, ConnFields.key_set]
      by_cases hk : k = id
      · subst hk
        rw [if_pos hid.symm, Function.update_self, plain, hrow, Option.map_some, Option.map_some,
          Option.map_some, opened_set hp hf]
      · rw [if_neg fun h => hk (h.trans hid), Function.update_of_ne hk, plain]
  | @deleted id hrows hnote =>
      rw [hnote]
      funext k
      rw [plain, hrows, Table.lookup_delete]
      by_cases hk : k = id
      · subst hk
        rw [Function.update_self, Option.map_eq_none_iff, Option.filter_eq_none_iff]
        intro r hr
        simpa using (Table.lookup_eq_some.mp hr).2
      · rw [Function.update_of_ne hk, plain]
        cases hlookup : s.data.connections.lookup k with
        | none => rfl
        | some r =>
            have hne : r.id ≠ id := fun h => hk ((Table.lookup_eq_some.mp hlookup).2.symm.trans h)
            rw [Option.filter_some, if_pos (by simpa using hne)]
  | siteDeleted hrows hnote =>
      rw [hnote]
      funext k
      rw [plain, hrows, Table.lookup_delete, plain]
      cases s.data.connections.lookup k with
      | none => rfl
      | some r => simp [Option.filter, opened, apply_ite]

end Steps

section Readings

variable {cfg : ErpConfig} {s : ErpServer}

/-- What a client sees of a row is what it may see of the connection. -/
theorem public_opened (h : Sealed cfg s) {r : ConnRow} (hr : r ∈ s.data.connections) :
    (opened cfg r).public r.id = r.intoPublic := by
  have htoken : (r.authTokenEnc.bind (decryptToken cfg)).isSome = r.authTokenEnc.isSome := by
    cases henc : r.authTokenEnc with
    | none => rfl
    | some enc => exact h r hr enc henc
  simp only [Conn.public, opened, ConnRow.intoPublic, htoken]

theorem getConnection_plain (h : Sealed cfg s) {call : ErpCall} {actor : Core.AuthUser}
    (hwriter : masterWriter cfg.auth call.now call.authorization = .ok actor) (id : String) :
    (getConnection cfg s call id).2 =
      ((plain cfg s id).map (Conn.public · id)).elim
        (.error ⟨404, "not_found", "resource not found"⟩) .ok := by
  unfold getConnection behindWriter Db.getConnection Db.Master.getRow plain
  rw [hwriter]
  cases hlookup : s.data.connections.lookup id with
  | none => rfl
  | some r =>
      obtain ⟨hr, hid⟩ := Table.lookup_eq_some.mp hlookup
      have hpublic := public_opened h hr
      rw [Db.key_conn] at hid
      rw [hid] at hpublic
      exact congrArg Except.ok hpublic.symm

/-- The post of an export goes where its connection says and bears the token in the plain. -/
theorem preparePost_ok {decrypt : String → Option String} {conn : Db.ErpConnectionRow}
    {mapping : FieldMapping} {canonical : List Json} {ids : List String} {post : Post}
    (h : preparePost decrypt conn mapping canonical ids = .ok post) :
    post.url = conn.endpointUrl ∧ post.token = conn.authTokenEnc.bind decrypt := by
  unfold preparePost at h
  dsimp only at h
  split at h
  · rename_i hnone
    cases h
    rw [hnone]
    exact ⟨rfl, rfl⟩
  · rename_i enc henc
    split at h
    · cases h
    · rename_i token htoken
      cases h
      rw [henc]
      exact ⟨rfl, htoken.symm⟩

/-- What an export's post is made of. -/
theorem postNow_ok {req : ErpExportRequest} {post : Post} (h : postNow cfg s req = .ok post) :
    ∃ c, plain cfg s req.connectionId = some c ∧ post.url = c.endpointUrl ∧
      post.token = c.token := by
  unfold postNow exportPost at h
  rw [Db.getConnectionSecret_tables] at h
  unfold Db.Master.getRow at h
  cases hlookup : s.data.connections.lookup req.connectionId with
  | none =>
      rw [hlookup] at h
      cases h
  | some r =>
      rw [hlookup] at h
      refine ⟨opened cfg r, by rw [plain, hlookup, Option.map_some], ?_⟩
      simp only [Except.map] at h
      split at h
      · cases h
      · split at h
        · cases h
        · exact preparePost_ok h

theorem preparePost_error {decrypt : String → Option String} {conn : Db.ErpConnectionRow}
    {mapping : FieldMapping} {canonical : List Json} {ids : List String} {e : ApiErr}
    (h : preparePost decrypt conn mapping canonical ids = .error e) :
    ∃ enc ∈ conn.authTokenEnc, decrypt enc = none := by
  unfold preparePost at h
  dsimp only at h
  split at h
  · cases h
  · rename_i enc henc
    split at h
    · rename_i hnone
      exact ⟨enc, henc, hnone⟩
    · cases h

theorem exportMapping_error {conn : Db.ErpConnectionRow} {e : ApiErr}
    (h : exportMapping conn = .error e) : e.status ≠ 500 := by
  unfold exportMapping at h
  split at h
  · cases h
    simp
  · split at h
    · cases h
      simp
    · split at h
      · cases h
        simp
      · cases h

/-- An export that makes no post fails at its connection, the connection's checks or the entity. -/
theorem postNow_error (hs : Sealed cfg s) {req : ErpExportRequest} {e : ApiErr}
    (h : postNow cfg s req = .error e) : e.status ≠ 500 := by
  unfold postNow exportPost at h
  rw [Db.getConnectionSecret_tables] at h
  unfold Db.Master.getRow at h
  cases hlookup : s.data.connections.lookup req.connectionId with
  | none =>
      rw [hlookup] at h
      cases h
      decide
  | some r =>
      rw [hlookup] at h
      simp only [Except.map] at h
      split at h
      · rename_i hmapping
        cases h
        exact exportMapping_error hmapping
      · split at h
        · rename_i hrecords
          cases h
          unfold exportRecords at hrecords
          split at hrecords
          · cases hrecords
          · cases hrecords
          · cases hrecords
            simp
        · obtain ⟨enc, henc, hnone⟩ := preparePost_error h
          have hsome := hs r (Table.lookup_eq_some.mp hlookup).1 enc henc
          rw [hnone] at hsome
          cases hsome

end Readings

/-- The stored connections are the account that is kept of the requests and their answers, with
the tokens as they were given: after every run a read of a connection answers with what may be
seen of it, a post goes to the endpoint that was written last with the token that was given last,
and no export fails at its token. -/
theorem vault_kept {cfg : ErpConfig} (hp : cfg.primitives.Lawful) {s : ErpServer}
    (hs : Sealed cfg s) (run : List Event) :
    let now := followed (serve cfg) Vault.note s (plain cfg s) run
    (∀ call actor id, masterWriter cfg.auth call.now call.authorization = .ok actor →
      (getConnection cfg now.1 call id).2 =
        ((now.2 id).map (Conn.public · id)).elim (.error ⟨404, "not_found", "resource not found"⟩)
          .ok) ∧
    (∀ req post, postNow cfg now.1 req = .ok post →
      ∃ c, now.2 req.connectionId = some c ∧ post.url = c.endpointUrl ∧ post.token = c.token) ∧
    ∀ req e, postNow cfg now.1 req = .error e → e.status ≠ 500 := by
  intro now
  have hinv : Sealed cfg now.1 ∧ plain cfg now.1 = now.2 := by
    apply followed_invariant (T := fun s v => Sealed cfg s ∧ plain cfg s = v) _ ⟨hs, rfl⟩ run
    rintro s v a ⟨hsealed, rfl⟩
    exact ⟨hsealed.serve hp a, plain_serve hp a⟩
  obtain ⟨hsealed, hplain⟩ := hinv
  refine ⟨?_, ?_, ?_⟩
  · intro call actor id hwriter
    rw [← hplain]
    exact getConnection_plain hsealed hwriter id
  · intro req post hpost
    rw [← hplain]
    exact postNow_ok hpost
  · intro req e he
    exact postNow_error hsealed he

section Sample

/-- An edge with one administrator's token, and the cipher at the secret `server-secret`. -/
def office : ErpConfig where
  auth :=
    { ttlSecs := 600
      encode := fun _ => none
      decode := fun t => if t = "badge office" then some ⟨"u0", "Admin", 0, 600⟩ else none
      hash := fun _ _ => none
      verify := fun _ _ => false }
  primitives := Crypto.sample
  erpKey := Crypto.serverKey
  codec := Codec.sample
  stockToJson := .float
  debug := fun _ => ""

def officeCall : ErpCall where
  now := 60
  authorization := some "Bearer badge office"
  id := "c1"
  auditId := "e1"
  nonce := some Crypto.countingNonce

/-- A connection is created with a token, and its endpoint is changed without giving one. -/
def moved : List Event :=
  [(officeCall, .create ⟨none, "ERP", "https://erp/a", some "tok", .null, none, none⟩),
    (officeCall, .update "c1" ⟨none, "ERP", "https://erp/b", some "", .null, some "export", none⟩)]

/-- The connection has the new endpoint and still its token. -/
theorem vault_kept_moved :
    let now := followed (serve office) Vault.note {} (plain office {}) moved
    (getConnection office now.1 officeCall "c1").2 =
      .ok ⟨"c1", none, "ERP", "https://erp/b", true, .obj [], "export", true, 60, 60⟩ ∧
    ∃ post, postNow office now.1 ⟨"c1", "stock_level"⟩ = .ok post ∧
      post.url = "https://erp/b" ∧ post.token = some "tok" := by
  intro now
  have hempty : Sealed office {} := fun r hr => absurd hr (Table.notMem_empty r)
  obtain ⟨hget, hpost, -⟩ := vault_kept Crypto.sample_lawful hempty moved
  have hnow : now.2 "c1" = some ⟨none, "ERP", "https://erp/b", some "tok", .obj [], "export", true,
      60, 60⟩ := by
    rfl
  refine ⟨?_, ?_⟩
  · rw [hget officeCall ⟨"u0", "Admin"⟩ "c1" rfl, hnow]
    rfl
  · obtain ⟨post, hmade⟩ : ∃ post, postNow office now.1 ⟨"c1", "stock_level"⟩ = .ok post :=
      ⟨_, rfl⟩
    obtain ⟨c, hc, hurl, htoken⟩ := hpost _ _ hmade
    rw [hnow] at hc
    cases hc
    exact ⟨post, hmade, hurl, htoken⟩

end Sample

end ElectronixMes.Integration
