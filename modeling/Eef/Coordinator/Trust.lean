import Eef.Coordinator.Credentials

/-!
# Who moves trust

A coordinator on one saved configuration: credential commands, enrollments under any applied
policy, restarts and handshakes, in any order. The policy that counts is the one the file holds
(`Environment.policyOf`); a handshake uses the one the process was started with. From what one
edit does to the policy (`edit_ok`, `enroll_ok`) follows what a run keeps of it (`run_kept`).
-/

namespace Eef.Coordinator.Trust

open Eef.Lib Eef.Node
open Eef.Coordinator.Config
open Eef.Coordinator.Credentials
open Eef.Node.Authentication
open Eef.Node.Handshake

section Moves

variable [Tls] [Code] [Sha256] {Key : Type} [NodeCrypto Key]

variable (Key) in
/-- The file with each key once, the network key of the environment, and the process: the
configuration it was started with and its gateway. -/
structure State where
  file : Option Json
  shaped : ∀ f, file = some f → Shaped f
  secret : Option String
  config : Json
  server : Server Key

/-- What happens to the coordinator. -/
inductive Op where
  | command (request : CredentialCommand) (fresh : Fresh) (write : Result Unit)
  | prepare (applied : AuthenticationPolicy) (request : PrepareRequest) (fresh : Fresh)
      (write : Result Unit)
  | restart (secret : Option String)
  | connect (clock : Clock) (incoming : Incoming)

variable (Key) in
/-- What comes of it. -/
inductive Reply where
  | report (r : Result CredentialReport)
  | prepared (r : Result Prepared)
  | started (r : Result Unit)
  | session (r : Result (Session Key))

/-- `Runtime::initialize`, as far as the node gateway: the configuration and the gateway. -/
def start (env : Environment) (file : Option Json) (secret : Option String) :
    Result (Json × Server Key) := do
  let config ← env.load file
  let psk := secret.getD (networkKey config)
  let policy ← AuthenticationPolicy.parse (authentication config)
  each validateSecret (if policy.allowLegacy then [psk] else [])
  let server ← Server.withAuthentication psk policy
  return (config, server)

/-- `command`. -/
def command (env : Environment) (s : State Key) (request : CredentialCommand) (fresh : Fresh)
    (write : Result Unit) : Option Json × Result CredentialReport :=
  env.editForRestart s.file write
    (commandEdit s.config s.secret s.server.authentication request fresh)

/-- `prepare_enrollment`. -/
def prepareEnrollment (env : Environment) (s : State Key) (applied : AuthenticationPolicy)
    (request : PrepareRequest) (fresh : Fresh) (write : Result Unit) :
    Option Json × Result Prepared :=
  match request.validate with
  | .error e => (s.file, .error e)
  | .ok () => env.editForRestart s.file write (enrollEdit s.config applied request fresh)

/-- What an edit makes of the file: its policy is kept, and a result is about the policy that
the file holds afterwards. -/
structure Edited {α : Type} (env : Environment) (rotated revoked : String → Prop)
    (file after : Option Json) (r : Result α)
    (about : AuthenticationPolicy → AuthenticationPolicy → α → Prop) : Prop where
  shaped : ∀ f, after = some f → Shaped f
  refused : ∀ e, r = .error e → after = file
  kept : ∀ f p, file = some f → env.policyOf f = .ok p →
    ∃ g q, after = some g ∧ env.policyOf g = .ok q ∧ Kept rotated revoked p q
  result : ∀ a, r = .ok a → ∃ f g p q, file = some f ∧ after = some g ∧ env.policyOf f = .ok p ∧
    env.policyOf g = .ok q ∧ about p q a ∧ (q = p → after = file)

omit [Code] [Sha256] in
/-- Step: one edit of the file. -/
theorem edited {α : Type} {env : Environment} {rotated revoked : String → Prop}
    {file : Option Json} {write : Result Unit} {edit : Json → Result (α × Json × Bool)}
    {about : AuthenticationPolicy → AuthenticationPolicy → α → Prop}
    (hs : ∀ f, file = some f → Shaped f)
    (hedit : ∀ value value' a changed, edit value = .ok (a, value', changed) →
      ∃ before saved, Edits rotated revoked value value' changed before saved ∧
        about before saved a) :
    Edited env rotated revoked file (env.editForRestart file write edit).1
      (env.editForRestart file write edit).2 about := by
  generalize hout : env.editForRestart file write edit = out
  obtain ⟨after, r⟩ := out
  rcases editForRestart_ok hout with
    ⟨rfl, hresult⟩ | ⟨f, value, value', a, hf, hload, hok, rfl, rfl⟩
  · refine ⟨hs, fun _ _ => rfl, fun f p hf hp => ⟨f, p, hf, hp, Kept.refl p⟩, fun a ha => ?_⟩
    obtain ⟨f, value, value', hf, hload, hok⟩ := hresult a ha
    obtain ⟨before, saved, h, habout⟩ := hedit _ _ _ _ hok
    obtain ⟨-, hread⟩ := load_ok (hs f hf) hload
    rw [h.read] at hread
    have hsame : saved = before := by simpa using h.changes
    rw [hsame] at habout
    exact ⟨f, f, before, before, hf, hf, hread.symm, hread.symm, habout, fun _ => rfl⟩
  · obtain ⟨before, saved, h, habout⟩ := hedit _ _ _ _ hok
    obtain ⟨hshaped, hread⟩ := load_ok (hs f hf) hload
    rw [h.read] at hread
    obtain ⟨hshaped', hsaved⟩ := policyOf_saved env hshaped h.valid (h.stored rfl)
    refine ⟨fun g hg => ?_, fun e he => ?_, fun g p hg hp => ?_, fun b hb => ?_⟩
    · cases hg
      exact hshaped'
    · cases he
    · rw [hf] at hg
      cases hg
      have hp' : p = before := Except.ok.inj (hp.symm.trans hread.symm)
      subst hp'
      exact ⟨value', saved, rfl, hsaved, h.kept⟩
    · cases hb
      refine ⟨f, value', before, saved, hf, rfl, hread.symm, hsaved, habout, fun hsame => ?_⟩
      -- an edit that saves has changed the policy
      have hchanged := h.changes
      rw [hsame] at hchanged
      simp at hchanged

/-- What a credential report says of the policies before and after. -/
structure Reported (request : CredentialCommand) (p q : AuthenticationPolicy)
    (report : CredentialReport) : Prop where
  edit : ∃ fresh, request.edit fresh p = .ok (q, report.code)
  code : ∀ c, report.code = some c → ∃ node, request.target = some node ∧ Carries q node c

/-- What a prepared enrollment says of them. -/
structure PreparedFor (request : PrepareRequest) (p q : AuthenticationPolicy)
    (report : Prepared) : Prop where
  code : Carries q request.nodeId report.code
  provisioned : (p.credentials.get? request.nodeId).isSome → q = p

omit [Sha256] [NodeCrypto Key] in
theorem command_edited (env : Environment) (s : State Key) (request : CredentialCommand)
    (fresh : Fresh) (write : Result Unit) :
    Edited env (request.rotates ·) (request.revokes ·) s.file
      (command env s request fresh write).1 (command env s request fresh write).2
      (Reported request) := by
  refine edited s.shaped fun value value' report changed h => ?_
  obtain ⟨before, saved, hedits, hedit⟩ := commandEdit_ok h
  exact ⟨before, saved, hedits, ⟨fresh, hedit⟩, (edit_ok hedit).2⟩

omit [NodeCrypto Key] in
theorem prepareEnrollment_edited (env : Environment) (s : State Key)
    (applied : AuthenticationPolicy) (request : PrepareRequest) (fresh : Fresh)
    (write : Result Unit) :
    Edited env (fun _ => False) (fun _ => False) s.file
      (prepareEnrollment env s applied request fresh write).1
      (prepareEnrollment env s applied request fresh write).2 (PreparedFor request) := by
  unfold prepareEnrollment
  split
  · exact ⟨s.shaped, fun _ _ => rfl, fun f p hf hp => ⟨f, p, hf, hp, Kept.refl p⟩,
      fun a ha => by cases ha⟩
  · refine edited s.shaped fun value value' report changed h => ?_
    obtain ⟨before, saved, hedits, hcode, hknown⟩ := enrollEdit_ok h
    exact ⟨before, saved, hedits, hcode, hknown⟩

/-- One thing that happens. A process that cannot start leaves everything as it was. -/
def State.apply (env : Environment) (s : State Key) : Op → State Key × Reply Key
  | .command request fresh write =>
    ({ s with
        file := (command env s request fresh write).1
        shaped := (command_edited env s request fresh write).shaped },
      .report (command env s request fresh write).2)
  | .prepare applied request fresh write =>
    ({ s with
        file := (prepareEnrollment env s applied request fresh write).1
        shaped := (prepareEnrollment_edited env s applied request fresh write).shaped },
      .prepared (prepareEnrollment env s applied request fresh write).2)
  | .restart secret =>
    match start env s.file secret with
    | .ok (config, server) => ({ s with secret, config, server }, .started (.ok ()))
    | .error e => (s, .started (.error e))
  | .connect clock incoming =>
    ({ s with server := (s.server.handleConnection clock incoming).1 },
      .session (s.server.handleConnection clock incoming).2)

/-- A run. -/
def run (env : Environment) (s : State Key) (ops : List Op) : State Key :=
  ops.foldl (fun s op => (s.apply env op).1) s

/-- `Provision` with `rotate`, and `Revoke`. -/
def Op.rotates (id : String) : Op → Prop
  | .command request _ _ => request.rotates id
  | _ => False

@[inherit_doc Op.rotates]
def Op.revokes (id : String) : Op → Prop
  | .command request _ _ => request.revokes id
  | _ => False

/-- Step: what one of them keeps of the saved policy. -/
theorem apply_kept (env : Environment) (s : State Key) (op : Op) {f : Json}
    {p : AuthenticationPolicy} (hf : s.file = some f) (hp : env.policyOf f = .ok p) :
    ∃ g q, (s.apply env op).1.file = some g ∧ env.policyOf g = .ok q ∧
      Kept (op.rotates ·) (op.revokes ·) p q := by
  cases op with
  | command request fresh write => exact (command_edited env s request fresh write).kept f p hf hp
  | prepare applied request fresh write =>
    exact (prepareEnrollment_edited env s applied request fresh write).kept f p hf hp
  | restart secret =>
    simp only [State.apply]
    split
    · exact ⟨f, p, hf, hp, Kept.refl p⟩
    · exact ⟨f, p, hf, hp, Kept.refl p⟩
  | connect clock incoming => exact ⟨f, p, hf, hp, Kept.refl p⟩

/-- Run: trust is kept up to the identities that some command of the run rotates or revokes. -/
theorem run_kept (env : Environment) (ops : List Op) :
    ∀ (s : State Key) {f : Json} {p : AuthenticationPolicy}, s.file = some f →
      env.policyOf f = .ok p → ∃ g q, (run env s ops).file = some g ∧ env.policyOf g = .ok q ∧
        Kept (fun id => ∃ op ∈ ops, op.rotates id) (fun id => ∃ op ∈ ops, op.revokes id) p q := by
  induction ops with
  | nil => exact fun s f p hf hp => ⟨f, p, hf, hp, Kept.refl p⟩
  | cons op ops ih =>
    intro s f p hf hp
    obtain ⟨g, q, hg, hq, hfirst⟩ := apply_kept env s op hf hp
    obtain ⟨g', q', hg', hq', hrest⟩ := ih (s.apply env op).1 hg hq
    refine ⟨g', q', hg', hq', Kept.trans (hfirst.mono ?_ ?_) (hrest.mono ?_ ?_)⟩
    · exact fun id h => ⟨op, List.mem_cons_self .., h⟩
    · exact fun id h => ⟨op, List.mem_cons_self .., h⟩
    · exact fun id ⟨o, ho, h⟩ => ⟨o, List.mem_cons_of_mem _ ho, h⟩
    · exact fun id ⟨o, ho, h⟩ => ⟨o, List.mem_cons_of_mem _ ho, h⟩

/-- Requests that leave the saved configuration alone. -/
def Op.quiet (p : AuthenticationPolicy) : Op → Prop
  | .command request _ _ => request = .showPolicy ∨ ∃ node address, request = .exportCode node address
  | .prepare _ request _ _ => (p.credentials.get? request.nodeId).isSome
  | .restart _ => True
  | .connect _ _ => True

/-- A refusal. -/
def Reply.refused : Reply Key → Prop
  | .report r => ∃ e, r = .error e
  | .prepared r => ∃ e, r = .error e
  | .started r => ∃ e, r = .error e
  | .session r => ∃ e, r = .error e

/-- The private code of a reply, with the identity it was asked for. -/
def Reply.code : Op → Reply Key → Option (String × String)
  | .command request _ _, .report (.ok r) => do
    let node ← request.target
    let code ← r.code
    return (node, code)
  | .prepare _ request _ _, .prepared (.ok r) => some (request.nodeId, r.code)
  | _, _ => none

omit [Sha256] in
theorem quiet_command {request : CredentialCommand} {fresh : Fresh}
    {p q : AuthenticationPolicy} {code : Option String}
    (hquiet : request = .showPolicy ∨ ∃ node address, request = .exportCode node address)
    (h : request.edit fresh p = .ok (q, code)) : q = p := by
  rcases hquiet with rfl | ⟨node, address, rfl⟩
  · cases h
    rfl
  · simp only [CredentialCommand.edit, bind_ok, context_ok, pure_ok] at h
    obtain ⟨_, -, _, -, _, -, _, -, heq⟩ := h
    cases heq
    rfl

/-- A quiet request, or one that is refused, leaves the file as it is. -/
theorem apply_quiet (env : Environment) (s : State Key) (op : Op)
    (h : (∃ f p, s.file = some f ∧ env.policyOf f = .ok p ∧ op.quiet p) ∨
      (s.apply env op).2.refused) : (s.apply env op).1.file = s.file := by
  cases op with
  | command request fresh write =>
    have hedit := command_edited env s request fresh write
    cases hr : (command env s request fresh write).2 with
    | error e => exact hedit.refused e hr
    | ok report =>
      rcases h with ⟨f, p, hf, hp, hquiet⟩ | ⟨e, he⟩
      · obtain ⟨f', g, p', q, hf', -, hp', -, habout, hsame⟩ := hedit.result report hr
        obtain ⟨fresh', hcommand⟩ := habout.edit
        exact hsame (quiet_command hquiet hcommand)
      · rw [hr] at he
        cases he
  | prepare applied request fresh write =>
    have hedit := prepareEnrollment_edited env s applied request fresh write
    cases hr : (prepareEnrollment env s applied request fresh write).2 with
    | error e => exact hedit.refused e hr
    | ok report =>
      rcases h with ⟨f, p, hf, hp, hquiet⟩ | ⟨e, he⟩
      · obtain ⟨f', g, p', q, hf', -, hp', -, habout, hsame⟩ := hedit.result report hr
        have hff : f' = f := Option.some.inj (hf'.symm.trans hf)
        subst hff
        have hpp : p' = p := Except.ok.inj (hp'.symm.trans hp)
        subst hpp
        exact hsame (habout.provisioned hquiet)
      · rw [hr] at he
        cases he
  | restart secret =>
    simp only [State.apply]
    split
    · rfl
    · rfl
  | connect clock incoming => rfl

/-- Every code that is handed out carries what the file holds then. -/
theorem apply_code (env : Environment) (s : State Key) (op : Op) {node code : String}
    (h : Reply.code op (s.apply env op).2 = some (node, code)) :
    ∃ g q, (s.apply env op).1.file = some g ∧ env.policyOf g = .ok q ∧ Carries q node code := by
  cases op with
  | command request fresh write =>
    have hedit := command_edited env s request fresh write
    cases hr : (command env s request fresh write).2 with
    | error e =>
      simp only [State.apply, hr, Reply.code] at h
      cases h
    | ok report =>
      simp only [State.apply, hr, Reply.code, Option.bind_eq_bind, Option.bind_eq_some_iff] at h
      obtain ⟨target, htarget, c, hc, heq⟩ := h
      cases heq
      obtain ⟨f, g, p, q, -, hg, -, hq, habout, -⟩ := hedit.result report hr
      obtain ⟨n, hn, hcarries⟩ := habout.code code hc
      rw [htarget] at hn
      cases hn
      exact ⟨g, q, hg, hq, hcarries⟩
  | prepare applied request fresh write =>
    have hedit := prepareEnrollment_edited env s applied request fresh write
    cases hr : (prepareEnrollment env s applied request fresh write).2 with
    | error e =>
      simp only [State.apply, hr, Reply.code] at h
      cases h
    | ok report =>
      simp only [State.apply, hr, Reply.code] at h
      cases h
      obtain ⟨f, g, p, q, -, hg, -, hq, habout, -⟩ := hedit.result report hr
      exact ⟨g, q, hg, hq, habout.code⟩
  | restart secret =>
    simp only [State.apply] at h
    split at h
    · cases h
    · cases h
  | connect clock incoming => cases h

/-- Trust moves by the owner's explicit commands alone. A known identity stays known; a revoked
one comes back, and a secret changes, only by a command of the run that names it; the TLS
identity stays. Secrets differ ignoring case. A quiet or refused request changes nothing, a code
carries what is saved, and a session needs the identity's own secret over TLS or, for an identity
that the applied policy does not know, the network key. -/
theorem trust_moves_by_owner (env : Environment) (s : State Key) (ops : List Op) :
    (∀ f p, s.file = some f → env.policyOf f = .ok p →
      ∃ g q, (run env s ops).file = some g ∧ env.policyOf g = .ok q ∧
        Kept (fun id => ∃ op ∈ ops, op.rotates id) (fun id => ∃ op ∈ ops, op.revokes id) p q)
    ∧ (∀ g q, (run env s ops).file = some g → env.policyOf g = .ok q →
        ∀ id id' key key', q.credentials.get? id = some (some key) →
          q.credentials.get? id' = some (some key') → id ≠ id' → asciiLower key ≠ asciiLower key')
    ∧ (∀ op, ((∃ f p, (run env s ops).file = some f ∧ env.policyOf f = .ok p ∧ op.quiet p) ∨
          ((run env s ops).apply env op).2.refused) →
        ((run env s ops).apply env op).1.file = (run env s ops).file)
    ∧ (∀ op node code, Reply.code op ((run env s ops).apply env op).2 = some (node, code) →
        ∃ g q, ((run env s ops).apply env op).1.file = some g ∧ env.policyOf g = .ok q ∧
          Carries q node code)
    ∧ (∀ clock incoming session,
        ((run env s ops).apply env (.connect clock incoming)).2 = .session (.ok session) →
          Admitted (run env s ops).server incoming session) := by
  refine ⟨fun f p hf hp => run_kept env ops s hf hp, ?_, ?_, ?_, ?_⟩
  · intro g q _ hq id id' key key' hid hid' hne
    have hvalid := AuthenticationPolicy.validate_ok (AuthenticationPolicy.parse_ok hq).2
    exact hvalid.independent id id' key key' hid hid' hne
  · exact fun op h => apply_quiet env _ op h
  · exact fun op node code h => apply_code env _ op h
  · intro clock incoming session h
    have hreply : ((run env s ops).server.handleConnection clock incoming).2 = .ok session :=
      Reply.session.inj h
    exact handleConnection_ok (Prod.ext rfl hreply)

end Moves

/-! ## A sample coordinator -/

section Sample

/-- Any certificate is good, and they all have one fingerprint. -/
@[reducible]
def sampleTls : Tls :=
  ⟨fun _ => .ok (), fun _ => .ok (), fun _ => .ok (String.ofList (List.replicate 64 'f'))⟩

/-- The credential of the hall, its invitation, and the code of that. -/
def hallSecret : String := String.ofList (List.replicate 64 'a')

@[inherit_doc hallSecret]
def hallInvitation : Json :=
  .obj [("schema_version", .nat 2), ("node_id", .str "hall"), ("address", .str "127.0.0.1:51335"),
    ("auth_mode", .str "node_credential"), ("psk", .str hallSecret),
    ("coordinator_certificate", .str "TUlJQg==")]

@[inherit_doc hallSecret]
def hallCode : String :=
  "eyJhZGRyZXNzIjoiMTI3LjAuMC4xOjUxMzM1IiwiYXV0aF9tb2RlIjoibm9kZV9jcmVkZW50aWFsIiwiY29vcmRpbmF0b3JfY2VydGlmaWNhdGUiOiJUVWxKUWc9PSIsIm5vZGVfaWQiOiJoYWxsIiwicHNrIjoiYWFhYWFhYWFhYWFhYWFhYWFhYWFhYWFhYWFhYWFhYWFhYWFhYWFhYWFhYWFhYWFhYWFhYWFhYWFhYWFhYWFhYSIsInNjaGVtYV92ZXJzaW9uIjoyfQ=="

/-- The encoding of that invitation. -/
@[reducible]
def sampleCode : Code :=
  ⟨fun j => if j = hallInvitation then hallCode else "",
    fun s => if s = hallCode then some hallInvitation else none⟩

/-- A hash that knows one digest. -/
@[reducible]
def sampleSha : Sha256 := Sha256.constant (String.ofList (List.replicate 64 'e')) (by decide)

/-- The selector of the hall, the line it sends after it, and the message in that line. -/
def hallSelector : List UInt8 := [0x7b, 0x68]

@[inherit_doc hallSelector]
def hallLine : List UInt8 := [0x51, 0x51]

@[inherit_doc hallSelector]
def hallAuth : Json :=
  .obj [("type", .str "auth"), ("protocol", .nat 1), ("node_id", .str "hall"),
    ("version", .str "1"), ("nonce", .str "n"), ("timestamp", .str "1000"),
    ("signature", .str "c2ln")]

/-- A cipher whose keys are the secrets, for the lines of the hall. -/
@[reducible]
def sampleCrypto : NodeCrypto String where
  new secret := .ok secret
  decodeLine key line :=
    if key = hallSecret ∧ line = hallLine then .ok hallAuth else .error "decryption failed"
  verify key raw signature := key = hallSecret && raw = "n|hall|1|1000" && signature = "c2ln"
  parse line :=
    if line = hallSelector then
      some (.obj [("type", .str "node_credential"), ("schema_version", .nat 2),
        ("node_id", .str "hall")])
    else none

attribute [local instance] sampleTls sampleCode sampleSha sampleCrypto

/-- A coordinator without further sections. -/
def sampleEnv : Environment := ⟨[], by simp, fun _ => .ok (), fun _ => .ok ()⟩

/-- A file that names the network key. -/
def sampleFile : Json := .obj [("node", .obj [("psk", .str "correct horse battery")])]

/-- The process before the hall is known. -/
def sampleState : State String where
  file := some sampleFile
  shaped := by
    intro f hf
    cases hf
    refine ⟨fun fields h => ?_, fun fields h => ?_⟩
    · cases h
      decide
    · cases h
      decide
  secret := none
  config := .obj [("node", .obj [("psk", .str "correct horse battery")])]
  server := ⟨.default, false, some "correct horse battery", [], []⟩

/-- What the random source yields. -/
def sampleFresh : Fresh :=
  ⟨hallSecret, by decide, .ok ⟨"TUlJQg==", "TUlJQw=="⟩⟩

/-- The hall is provisioned, and the process restarted. -/
def sampleOps : List Op :=
  [.command (.provision "hall" "127.0.0.1:51335" false) sampleFresh (.ok ()), .restart none]

/-- The hall connects under its credential. -/
def hallIncoming : Incoming :=
  ⟨.line hallSelector, .ok (), .line hallLine, .ok (), .closed, .ok (), .ok ()⟩

/-- A second after the epoch. -/
def hallClock : Clock := ⟨10 ^ 9, fun _ => 10 ^ 9, 10 ^ 9⟩

/-- The policy after that. -/
def hallPolicy : AuthenticationPolicy :=
  ⟨true, SortedMap.empty.insert "hall" (some hallSecret), some ⟨"TUlJQg==", "TUlJQw=="⟩⟩

@[inherit_doc hallPolicy]
def hallFile : Json :=
  .obj [("node", .obj [("host", .str "0.0.0.0"), ("port", .nat 51335),
    ("psk", .str "correct horse battery"), ("authentication", hallPolicy.toJson)])]

/-- What the run leaves, and what an export and a connection make of it. -/
theorem hall_checked : sampleEnv.policyOf hallFile = .ok hallPolicy
    ∧ (run sampleEnv sampleState sampleOps).file = some hallFile
    ∧ sampleEnv.policyOf sampleFile = .ok .default
    ∧ Reply.code (.command (.exportCode "hall" "127.0.0.1:51335") sampleFresh (.ok ()))
        ((run sampleEnv sampleState sampleOps).apply sampleEnv (.command
          (.exportCode "hall" "127.0.0.1:51335") sampleFresh (.ok ()))).2
      = some ("hall", hallCode)
    ∧ ((run sampleEnv sampleState sampleOps).server.handleConnection hallClock hallIncoming).2
      = .ok ⟨"hall", ⟨hallSecret, some "hall", none⟩, hallAuth⟩ := by
  decide +kernel

theorem run_file : (run sampleEnv sampleState sampleOps).file = some hallFile :=
  hall_checked.2.1

theorem hall_policy : sampleEnv.policyOf hallFile = .ok hallPolicy := hall_checked.1

/-- The hall is provisioned, its code is exported again, and it connects under its secret. -/
theorem trust_moves_by_owner_hall :
    (∃ g q, (run sampleEnv sampleState sampleOps).file = some g ∧ sampleEnv.policyOf g = .ok q ∧
      Kept (fun id => ∃ op ∈ sampleOps, op.rotates id) (fun id => ∃ op ∈ sampleOps, op.revokes id)
        .default q)
    ∧ (∃ g q, (((run sampleEnv sampleState sampleOps).apply sampleEnv (.command
          (.exportCode "hall" "127.0.0.1:51335") sampleFresh (.ok ()))).1.file = some g)
        ∧ sampleEnv.policyOf g = .ok q ∧ Carries q "hall" hallCode)
    ∧ ((run sampleEnv sampleState sampleOps).apply sampleEnv (.command
          (.exportCode "hall" "127.0.0.1:51335") sampleFresh (.ok ()))).1.file
        = (run sampleEnv sampleState sampleOps).file
    ∧ Admitted (run sampleEnv sampleState sampleOps).server hallIncoming
        ⟨"hall", ⟨hallSecret, some "hall", none⟩, hallAuth⟩ := by
  obtain ⟨hkept, -, hquiet, hcode, hsession⟩ :=
    trust_moves_by_owner sampleEnv sampleState sampleOps
  obtain ⟨-, -, hfile, hreply, hopened⟩ := hall_checked
  refine ⟨hkept sampleFile .default rfl hfile, hcode _ "hall" hallCode hreply,
    hquiet _ (Or.inl ⟨hallFile, hallPolicy, run_file, hall_policy, Or.inr ⟨_, _, rfl⟩⟩),
    hsession hallClock hallIncoming _ (congrArg Reply.session hopened)⟩

end Sample

end Eef.Coordinator.Trust
