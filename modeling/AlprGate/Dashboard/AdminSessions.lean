import AlprGate.Dashboard.AllowlistRequests
import AlprGate.Dashboard.Credentials
import AlprGate.Firmware.CommandDecoding
import AlprGate.Library.Transition
import Mathlib.Logic.Encodable.Basic
import Mathlib.Logic.Equiv.List

/-! # Admin sessions

A login exchanges the admin credential for a signed token, and a filter in front of the admin routes
lets a request with such a token through. The backend keeps no list of sessions: whether a token is
good is decided by its signature, its issuer and its dates alone. So a session lasts as long as its
dates and the signing secret do, and what the login asked for is not asked again.
-/
namespace AlprGate.DashApi
open Auth CText JsonValue Transition

/-! ### Tokens -/

/-- The registered claims of a token. The dates are seconds. -/
structure Claims where
  issuer : Option Text := none
  subject : Option Text := none
  issuedAt : Option ℤ := none
  expiresAt : Option ℤ := none
  notBefore : Option ℤ := none
  deriving DecidableEq, Repr

/-- HS256 tokens: the text that is signed with a secret, and the claims of a text that decodes and
whose signature is the one under a secret. -/
structure JwtLibrary where
  sign : Text → Claims → Text
  verify : Text → Text → Option Claims
  verify_sign : ∀ secret claims, verify secret (sign secret claims) = some claims

def kIssuer : Text := ascii "gate-dashboard"

def kNanos : ℤ := 1000000000

/-- A time of the system clock, in nanoseconds, as the date of a claim. -/
def toSeconds (time : ℤ) : ℤ := time.tdiv kNanos

/-- Neither expired nor from the future. Dates that are absent are not looked at. -/
def Claims.current (c : Claims) (now : ℤ) : Bool :=
  (c.expiresAt.all fun date => now ≤ date * kNanos) &&
    (c.issuedAt.all fun date => date * kNanos ≤ now) &&
    (c.notBefore.all fun date => date * kNanos ≤ now)

/-! ### The service -/

structure AuthService extends AuthConfig where
  jwtSecret : Text := []
  tokenTtlMin : BitVec 32 := 480

namespace AuthService
variable (lib : JwtLibrary)

/-- The constructor: an empty secret is replaced by a random one. -/
def construct (random : Vector UInt8 kKeyBytes) (cfg : AuthService) : AuthService :=
  if cfg.jwtSecret = [] then { cfg with jwtSecret := toHex random.toList } else cfg

/-- The date at which what is issued now expires. Times have 64 bits, and the sum is taken to wrap
where the lifetime is too long for them. -/
def expiry (a : AuthService) (now : ℤ) : ℤ :=
  toSeconds ((now + a.tokenTtlMin.toNat * 60 * kNanos).bmod (2 ^ 64))

def claims (a : AuthService) (now : ℤ) (user : Text) : Claims where
  issuer := some kIssuer
  subject := some user
  issuedAt := some (toSeconds now)
  expiresAt := some (a.expiry now)

def issueToken (a : AuthService) (now : ℤ) (user : Text) : Text :=
  lib.sign a.jwtSecret (a.claims now user)

/-- The subject of a token that is accepted. -/
def verifyToken (a : AuthService) (now : ℤ) (token : Text) : Option Text :=
  match lib.verify a.jwtSecret token with
  | none => none
  | some c => if c.current now = true ∧ c.issuer = some kIssuer then c.subject else none

end AuthService

/-! ### Requests -/

/-- How a request ends without a call to the upstream: an exception leaves the handler, or the
handler replies. -/
inductive Refusal where
  | threw
  | jsonError (status : ℕ) (message : Text)
  deriving DecidableEq, Repr

def Refusal.ofFailure : Failure → Refusal
  | .threw => .threw
  | .rejected error => .jsonError 400 (ascii error)

instance throwsRefusal : Throws Refusal := ⟨.threw⟩

def kBearer : Text := ascii "Bearer "

/-- The filter of the admin routes. What it accepts carries the subject of the token; with auth
disabled it accepts everything. -/
def doFilter (lib : JwtLibrary) (a : AuthService) (now : ℤ) (authorization : Text) :
    Except Refusal (Option Text) :=
  if a.enabled = false then .ok none
  else
    let subject := if kBearer.isPrefixOf authorization = true then
      a.verifyToken lib now (authorization.drop kBearer.length) else none
    match subject with
    | some user => .ok (some user)
    | none => .error (.jsonError 401 (ascii "authentication required"))

/-- What a login replies with. -/
structure LoginReply where
  token : Text
  user : Text
  expiresInMin : BitVec 32
  deriving DecidableEq, Repr

section Handlers
variable {ρ : Type} (lib : JwtLibrary) (kdf : Pbkdf2) (D : Doubles ρ)
  (realToInt : ρ → Option (BitVec 32))

def credentialsRequired : Refusal :=
  .jsonError 400 (ascii "body requires string 'username' and 'password'")

/-- The two texts of the body. The password is looked at behind a user name that is a string. -/
def readCredentials (body : Option (Value ρ)) : Except Refusal (Text × Text) :=
  match body with
  | none => .error credentialsRequired
  | some v => do
    let username ← orThrow (v.item "username")
    if username.isString = false then .error credentialsRequired
    else do
      let password ← orThrow (v.item "password")
      if password.isString = false then .error credentialsRequired
      else do
        let user ← orThrow (username.asString D)
        let secret ← orThrow (password.asString D)
        .ok (user,secret)

def login (a : AuthService) (now : ℤ) (body : Option (Value ρ)) : Except Refusal LoginReply :=
  if a.enabled = false then
    .error (.jsonError 503 (ascii "admin auth is not configured on this backend"))
  else
    match readCredentials D body with
    | .error refusal => .error refusal
    | .ok (user,password) =>
      if checkCredentials kdf password a.toAuthConfig user = false then
        .error (.jsonError 401 (ascii "invalid credentials"))
      else .ok ⟨a.issueToken lib now user,user,a.tokenTtlMin⟩

/-- The names of the enumeration, with their numbers. -/
def commandKindNames : List (Text × BitVec 32) :=
  [(ascii "COMMAND_KIND_UNSPECIFIED",0),(ascii "COMMAND_KIND_OPEN_GATE",1),
    (ascii "COMMAND_KIND_CLOSE_GATE",2),(ascii "COMMAND_KIND_PULSE_RELAY",3),
    (ascii "COMMAND_KIND_LATCH_OPEN",4),(ascii "COMMAND_KIND_LATCH_CLOSE",5),
    (ascii "COMMAND_KIND_RELEASE_LATCH",6),(ascii "COMMAND_KIND_REBOOT",7),
    (ascii "COMMAND_KIND_BEGIN_OTA",8),(ascii "COMMAND_KIND_LED_PATTERN",9)]

def kLedPattern : BitVec 32 := 9

def commandKindFromString (s : Text) : Option (BitVec 32) :=
  match commandKindNames.find? fun p => p.1 = ascii "COMMAND_KIND_" ++ s with
  | none => none
  | some (_,parsed) => if parsed = 0 then none else some parsed

/-- A signed number of 32 bits. -/
def asInt : Value ρ → Option (BitVec 32)
  | .int n =>
    if -2 ^ 31 ≤ n.toInt ∧ n.toInt < 2 ^ 31 then some (BitVec.ofInt 32 n.toInt) else none
  | .uint n => if n.toNat < 2 ^ 31 then some (BitVec.ofNat 32 n.toNat) else none
  | .real x => realToInt x
  | .null => some 0
  | .bool b => some (if b then 1 else 0)
  | _ => none

theorem noUnknownFields : ∀ f ∈ [], Wire.commandSchema.Unknown f := List.forall_mem_nil _

/-- `GatesController::command` up to the call of the bridge. -/
def command (gateId : Text) (body : Option (Value ρ)) : Except Refusal Wire.GateCommand :=
  match body with
  | none => .error (.jsonError 400 (ascii "body requires a string 'kind'"))
  | some v => do
    let member ← orThrow (v.item "kind")
    if member.isString = false then
      .error (.jsonError 400 (ascii "body requires a string 'kind'"))
    else do
      let text ← orThrow (member.asString D)
      match commandKindFromString text with
      | none => .error (.jsonError 400 (ascii "unknown command kind: " ++ text))
      | some kind =>
        if kind = kLedPattern then do
          let pattern ← orThrow (v.item "ledPattern" >>= asInt realToInt)
          .ok { gateId := gateId, kind := kind, ledPattern := pattern, unknown_ok := noUnknownFields }
        else .ok { gateId := gateId, kind := kind, unknown_ok := noUnknownFields }

/-- A request on one of the routes behind the filter. -/
inductive AdminRequest (ρ : Type) where
  | command (gateId : Text) (body : Option (Value ρ))
  | list (pageSize pageToken : Text)
  | upsert (body : Option (Value ρ))
  | remove (plate : Text)

/-- The calls of the bridge that change the site or read its residents. -/
inductive UpstreamCall where
  | issueCommand (cmd : Wire.GateCommand)
  | listAllowlist (siteId : Text) (pageSize : BitVec 32) (pageToken : Text)
  | upsertAllowlist (req : UpsertAllowlistRequest)
  | deleteAllowlist (siteId plateText : Text)
  deriving DecidableEq, Repr

/-- The bridge names itself as the actor of a command that names none. -/
def stampActor (b : GrpcBridge) (cmd : Wire.GateCommand) : Wire.GateCommand :=
  if cmd.actor = [] then { cmd with actor := b.actor } else cmd

/-- The page size of the query; `stoul` throws at what is no number. -/
def readPageSize (pageSize : Text) : Except Refusal (BitVec 32) :=
  if pageSize = [] then .ok 100
  else do
    let parsed ← orThrow (stoul kULongBits pageSize)
    .ok (parsed.setWidth 32)

/-- The handlers behind the filter, up to the call they make. -/
def handle (b : GrpcBridge) (now : ℤ) : AdminRequest ρ → Except Refusal UpstreamCall
  | .command gateId body => do
    let cmd ← command D realToInt gateId body
    .ok (.issueCommand (stampActor b cmd))
  | .list pageSize pageToken => do
    let size ← readPageSize pageSize
    .ok (.listAllowlist b.siteId size pageToken)
  | .upsert none => .error (.jsonError 400 (ascii "body must be JSON"))
  | .upsert (some v) =>
    match readEntries D v with
    | .error failure => .error (.ofFailure failure)
    | .ok entries =>
      .ok (.upsertAllowlist ({ b with now := toSeconds now }.stamp { entries := entries }))
  | .remove plate =>
    if plate = [] then .error (.jsonError 400 (ascii "plate path segment is required"))
    else .ok (.deleteAllowlist b.siteId plate)

/-- Who the calls name: the actor of a command, and who added the entries. -/
def UpstreamCall.authors : UpstreamCall → List Text
  | .issueCommand cmd => [cmd.actor]
  | .upsertAllowlist req => req.entries.map (·.addedBy)
  | _ => []

/-! ### The backend over its restarts -/

/-- A login that succeeded: the service it was made to and what was asked for. -/
structure Session where
  service : AuthService
  user : Text
  password : Text
  time : ℤ
  token : Text

/-- A call that was made for a request: the service that let it through, and the user that the filter
stored with the request. -/
structure AdminCall where
  service : AuthService
  authUser : Option Text
  time : ℤ
  call : UpstreamCall

/-- The service while the process runs. The sessions and the calls are the history; the process keeps
neither. -/
structure Backend where
  service : Option AuthService := none
  sessions : List Session := []
  calls : List AdminCall := []

/-- The first line of the secret file is read if the option is given. -/
inductive BackendStep (ρ : Type) where
  | boot (cfg : AuthConfig) (tokenTtlMin : BitVec 32) (secretFile : Option Text)
      (random : Vector UInt8 kKeyBytes)
  | login (now : ℤ) (body : Option (Value ρ))
  | request (now : ℤ) (authorization : Text) (req : AdminRequest ρ)

/-- The service that `main` sets up; a secret file without a secret ends the process. -/
def boot (cfg : AuthConfig) (tokenTtlMin : BitVec 32) (secretFile : Option Text)
    (random : Vector UInt8 kKeyBytes) : Option AuthService :=
  match secretFile with
  | none => some (AuthService.construct random { toAuthConfig := cfg, tokenTtlMin })
  | some line =>
    if line = [] then none
    else some (AuthService.construct random
      { toAuthConfig := cfg, jwtSecret := line, tokenTtlMin })

namespace Backend

/-- A login at a running backend. -/
def signIn (s : Backend) (a : AuthService) (now : ℤ) (body : Option (Value ρ)) : Backend :=
  match login lib kdf D a now body, readCredentials D body with
  | .ok reply, .ok (_,password) =>
    { s with sessions := s.sessions ++ [⟨a,reply.user,password,now,reply.token⟩] }
  | _, _ => s

/-- A request at a running backend. -/
def serve (b : GrpcBridge) (s : Backend) (a : AuthService) (now : ℤ) (authorization : Text)
    (req : AdminRequest ρ) : Backend :=
  match doFilter lib a now authorization with
  | .error _ => s
  | .ok user =>
    match handle D realToInt b now req with
    | .error _ => s
    | .ok call => { s with calls := s.calls ++ [⟨a,user,now,call⟩] }

def step (b : GrpcBridge) (s : Backend) : BackendStep ρ → Backend
  | .boot cfg ttl secretFile random => { s with service := boot cfg ttl secretFile random }
  | .login now body => s.service.elim s fun a => s.signIn lib kdf D a now body
  | .request now authorization req =>
    s.service.elim s fun a => s.serve lib D realToInt b a now authorization req

end Backend

/-- No request carries a token that verifies under the secret of the service and was not handed out
under it. -/
def Unforged (s : Backend) : BackendStep ρ → Prop
  | .request _ authorization _ =>
    ∀ a ∈ s.service, ∀ token, authorization = kBearer ++ token →
      (lib.verify a.jwtSecret token).isSome = true →
      ∃ i ∈ s.sessions, i.service.jwtSecret = a.jwtSecret ∧ i.token = token
  | _ => True

end Handlers

/-- The dates of a session include a time. They are whole seconds, the time is not. -/
def Session.Covers (i : Session) (now : ℤ) : Prop :=
  toSeconds i.time * kNanos ≤ now ∧ now ≤ i.service.expiry i.time * kNanos

/-! ### What the filter lets through -/

section Filter
variable {lib : JwtLibrary} {a : AuthService} {now : ℤ}

theorem AuthService.current_claims (time : ℤ) (user : Text) :
    (a.claims time user).current now = true ↔
      toSeconds time * kNanos ≤ now ∧ now ≤ a.expiry time * kNanos := by
  rw [Claims.current, claims]
  simp [and_comm]

/-- A token of a service with the same secret is accepted within its dates. -/
theorem AuthService.verifyToken_issueToken {issuer : AuthService} {time : ℤ} {user subject : Text}
    (hsecret : issuer.jwtSecret = a.jwtSecret) :
    a.verifyToken lib now (issuer.issueToken lib time user) = some subject ↔
      user = subject ∧ toSeconds time * kNanos ≤ now ∧ now ≤ issuer.expiry time * kNanos := by
  rw [verifyToken, issueToken, hsecret, lib.verify_sign]
  dsimp only
  by_cases hcurrent : (issuer.claims time user).current now = true
  · rw [if_pos ⟨hcurrent,rfl⟩]
    have hdates := (current_claims time user).mp hcurrent
    constructor
    · intro h
      cases h
      exact ⟨rfl,hdates⟩
    · rintro ⟨rfl,_⟩
      rfl
  · rw [if_neg fun h => hcurrent h.1]
    constructor
    · exact fun h => by cases h
    · rintro ⟨_,hdates⟩
      exact absurd ((current_claims time user).mpr hdates) hcurrent

/-- With auth enabled a token in the header is what lets a request through. -/
theorem doFilter_eq_ok_iff (henabled : a.enabled = true) {authorization : Text}
    {user : Option Text} :
    doFilter lib a now authorization = .ok user ↔
      ∃ token subject, authorization = kBearer ++ token ∧ user = some subject ∧
        a.verifyToken lib now token = some subject := by
  unfold doFilter
  rw [if_neg (by rw [henabled]; decide)]
  dsimp only
  constructor
  · intro h
    by_cases hbearer : kBearer.isPrefixOf authorization = true
    · rw [if_pos hbearer] at h
      obtain ⟨token,rfl⟩ := List.isPrefixOf_iff_prefix.mp hbearer
      rw [List.drop_left] at h
      cases hverify : a.verifyToken lib now token with
      | none =>
        rw [hverify] at h
        cases h
      | some subject =>
        rw [hverify] at h
        cases h
        exact ⟨token,subject,rfl,rfl,hverify⟩
    · rw [if_neg hbearer] at h
      cases h
  · rintro ⟨token,subject,rfl,rfl,hverify⟩
    rw [if_pos (List.isPrefixOf_iff_prefix.mpr (List.prefix_append kBearer token)),
      List.drop_left, hverify]

end Filter

/-! ### Runs -/

section Runs
variable {ρ : Type} {lib : JwtLibrary} {kdf : Pbkdf2} {D : Doubles ρ}
  {realToInt : ρ → Option (BitVec 32)} {b : GrpcBridge}

/-- A login that succeeds has checked the credential it read. -/
theorem login_eq_ok {a : AuthService} {now : ℤ} {body : Option (Value ρ)} {reply : LoginReply}
    (h : login lib kdf D a now body = .ok reply) :
    ∃ password, readCredentials D body = .ok (reply.user,password) ∧
      checkCredentials kdf password a.toAuthConfig reply.user = true ∧
      reply.token = a.issueToken lib now reply.user := by
  unfold login at h
  split at h
  · cases h
  · split at h
    · cases h
    · rename_i user password hread
      split at h
      · cases h
      · rename_i hcheck
        cases h
        exact ⟨password,hread,by simpa using hcheck,rfl⟩

theorem actor_stampActor (cmd : Wire.GateCommand) (h : cmd.actor = []) :
    (stampActor b cmd).actor = b.actor := by
  rw [stampActor, if_pos h]

theorem actor_of_command {gateId : Text} {body : Option (Value ρ)} {cmd : Wire.GateCommand}
    (h : command D realToInt gateId body = .ok cmd) : cmd.actor = [] := by
  unfold command at h
  cases body with
  | none => cases h
  | some v =>
    obtain ⟨member,_,h⟩ := bind_eq_ok.mp h
    split at h
    · cases h
    · obtain ⟨text,_,h⟩ := bind_eq_ok.mp h
      split at h
      · cases h
      · split at h
        · obtain ⟨pattern,_,h⟩ := bind_eq_ok.mp h
          cases h
          rfl
        · cases h
          rfl

theorem addedBy_of_appendEntry {entries entries' : List Allowlistentry} {ev : Value ρ}
    (h : appendEntry D entries ev = .ok entries') (hentries : ∀ e ∈ entries, e.addedBy = []) :
    ∀ e ∈ entries', e.addedBy = [] := by
  obtain ⟨e,he,h⟩ := bind_eq_ok.mp h
  cases h
  intro e' he'
  rcases List.mem_append.mp he' with he' | he'
  · exact hentries e' he'
  · rw [List.mem_singleton.mp he']
    exact (expressible_of_fromJson he).addedBy

theorem addedBy_of_readEntries {body : Value ρ} {entries : List Allowlistentry}
    (h : readEntries D body = .ok entries) : ∀ e ∈ entries, e.addedBy = [] := by
  have hnil : ∀ e ∈ ([] : List Allowlistentry), e.addedBy = [] := by simp
  unfold readEntries at h
  obtain ⟨member,_,h⟩ := bind_eq_ok.mp h
  split at h
  · obtain ⟨items,_,h⟩ := bind_eq_ok.mp h
    split at h
    · exact foldlM_invariant (fun _ _ _ hstep => addedBy_of_appendEntry hstep) h hnil
    · cases h
  · exact addedBy_of_appendEntry h hnil

/-- Every call names the bridge and nobody else. -/
theorem authors_of_handle {now : ℤ} {req : AdminRequest ρ} {call : UpstreamCall}
    (h : handle D realToInt b now req = .ok call) : ∀ author ∈ call.authors, author = b.actor := by
  cases req with
  | command gateId body =>
    obtain ⟨cmd,hcmd,h⟩ := bind_eq_ok.mp h
    cases h
    intro author hauthor
    rw [List.mem_singleton.mp hauthor]
    exact actor_stampActor cmd (actor_of_command hcmd)
  | list pageSize pageToken =>
    obtain ⟨size,_,h⟩ := bind_eq_ok.mp h
    cases h
    simp [UpstreamCall.authors]
  | upsert body =>
    cases body with
    | none => cases h
    | some v =>
      change (match readEntries D v with
        | .error failure => _
        | .ok entries => _) = _ at h
      cases hread : readEntries D v with
      | error failure =>
        rw [hread] at h
        cases h
      | ok entries =>
        rw [hread] at h
        cases h
        intro author hauthor
        obtain ⟨stamped,hstamped,rfl⟩ := List.mem_map.mp hauthor
        obtain ⟨e,he,rfl⟩ := List.mem_map.mp hstamped
        exact if_pos (addedBy_of_readEntries hread e he)
  | remove plate =>
    change (if plate = [] then _ else _) = _ at h
    split at h
    · cases h
    · cases h
      simp [UpstreamCall.authors]

/-- What a step adds to the history. -/
inductive Adds (lib : JwtLibrary) (kdf : Pbkdf2) (b : GrpcBridge) (s : Backend) :
    Backend → Prop
  | nothing (service : Option AuthService) : Adds lib kdf b s { s with service := service }
  | session (i : Session)
      (credentials : checkCredentials kdf i.password i.service.toAuthConfig i.user = true)
      (token : i.token = i.service.issueToken lib i.time i.user) :
      Adds lib kdf b s { s with sessions := s.sessions ++ [i] }
  | call (c : AdminCall) (service : s.service = some c.service)
      (authors : ∀ author ∈ c.call.authors, author = b.actor)
      (filter : ∃ authorization, doFilter lib c.service c.time authorization = .ok c.authUser ∧
        ∀ token, authorization = kBearer ++ token →
          (lib.verify c.service.jwtSecret token).isSome = true →
          ∃ i ∈ s.sessions, i.service.jwtSecret = c.service.jwtSecret ∧ i.token = token) :
      Adds lib kdf b s { s with calls := s.calls ++ [c] }

theorem adds_signIn (s : Backend) (a : AuthService) (now : ℤ) (body : Option (Value ρ)) :
    Adds lib kdf b s (s.signIn lib kdf D a now body) := by
  unfold Backend.signIn
  split
  · rename_i reply user password hlogin hread
    obtain ⟨password',hread',hcheck,htoken⟩ := login_eq_ok hlogin
    cases hread.symm.trans hread'
    exact .session ⟨a,reply.user,password,now,reply.token⟩ hcheck htoken
  · exact .nothing s.service

theorem adds_step {s : Backend} {a : BackendStep ρ} (h : Unforged lib s a) :
    Adds lib kdf b s (s.step lib kdf D realToInt b a) := by
  cases a with
  | boot cfg ttl secretFile random => exact .nothing _
  | login now body =>
    change Adds lib kdf b s (s.service.elim s _)
    cases s.service with
    | none => exact .nothing s.service
    | some a => exact adds_signIn s a now body
  | request now authorization req =>
    change Adds lib kdf b s (s.service.elim s _)
    cases hservice : s.service with
    | none => exact .nothing s.service
    | some a =>
      change Adds lib kdf b s (s.serve lib D realToInt b a now authorization req)
      unfold Backend.serve
      split
      · exact .nothing s.service
      · rename_i user hfilter
        split
        · exact .nothing s.service
        · rename_i call hhandle
          exact .call ⟨a,user,now,call⟩ hservice (authors_of_handle hhandle)
            ⟨authorization,hfilter,h a hservice⟩

/-- The call is made with a token of the session, within its dates. -/
def Session.Admits (i : Session) (c : AdminCall) : Prop :=
  i.service.jwtSecret = c.service.jwtSecret ∧ c.authUser = some i.user ∧ i.Covers c.time

structure Backend.Accounted (lib : JwtLibrary) (kdf : Pbkdf2) (b : GrpcBridge) (s : Backend) :
    Prop where
  credentials : ∀ i ∈ s.sessions,
    checkCredentials kdf i.password i.service.toAuthConfig i.user = true
  tokens : ∀ i ∈ s.sessions, i.token = i.service.issueToken lib i.time i.user
  calls : ∀ c ∈ s.calls, c.service.enabled = true → ∃ i ∈ s.sessions, i.Admits c
  authors : ∀ c ∈ s.calls, ∀ author ∈ c.call.authors, author = b.actor

theorem Backend.Accounted.adds {s s' : Backend} (h : s.Accounted lib kdf b)
    (hadds : Adds lib kdf b s s') : s'.Accounted lib kdf b := by
  cases hadds with
  | nothing service => exact ⟨h.credentials,h.tokens,h.calls,h.authors⟩
  | session i credentials token =>
    refine ⟨?_,?_,?_,h.authors⟩
    · exact List.forall_mem_append.mpr ⟨h.credentials,List.forall_mem_singleton.mpr credentials⟩
    · exact List.forall_mem_append.mpr ⟨h.tokens,List.forall_mem_singleton.mpr token⟩
    · intro c hc henabled
      obtain ⟨j,hj,hadmits⟩ := h.calls c hc henabled
      exact ⟨j,List.mem_append_left [i] hj,hadmits⟩
  | call c service authors filter =>
    refine ⟨h.credentials,h.tokens,?_,?_⟩
    · refine List.forall_mem_append.mpr ⟨h.calls,List.forall_mem_singleton.mpr ?_⟩
      intro henabled
      obtain ⟨authorization,hfilter,hunforged⟩ := filter
      obtain ⟨token,subject,rfl,huser,hverify⟩ := (doFilter_eq_ok_iff henabled).mp hfilter
      have hsigned : (lib.verify c.service.jwtSecret token).isSome = true := by
        rw [AuthService.verifyToken] at hverify
        cases hclaims : lib.verify c.service.jwtSecret token with
        | none =>
          rw [hclaims] at hverify
          cases hverify
        | some claims => rfl
      obtain ⟨i,hi,hsecret,rfl⟩ := hunforged token rfl hsigned
      rw [h.tokens i hi, AuthService.verifyToken_issueToken hsecret] at hverify
      obtain ⟨rfl,hcovers⟩ := hverify
      exact ⟨i,hi,hsecret,huser,hcovers⟩
    · exact List.forall_mem_append.mpr ⟨h.authors,List.forall_mem_singleton.mpr authors⟩

end Runs

section Main
variable {ρ : Type} (lib : JwtLibrary) (kdf : Pbkdf2) (D : Doubles ρ)
  (realToInt : ρ → Option (BitVec 32)) (b : GrpcBridge)

/-- Through any number of restarts: every call that an enabled filter let through belongs to a login
with the credential of its time, under the same secret and within its dates; a session stays good
under that secret whatever the credential has become; and no call names who made it. -/
theorem admin_calls_follow_logins (as : List (BackendStep ρ))
    (hforged : AllSteps (Backend.step lib kdf D realToInt b) (Unforged lib) {} as) :
    let s := exec (Backend.step lib kdf D realToInt b) {} as
    (∀ i ∈ s.sessions, checkCredentials kdf i.password i.service.toAuthConfig i.user = true) ∧
      (∀ c ∈ s.calls, c.service.enabled = true → ∃ i ∈ s.sessions, i.Admits c) ∧
      (∀ c ∈ s.calls, ∀ author ∈ c.call.authors, author = b.actor) ∧
      ∀ i ∈ s.sessions, ∀ a, a.enabled = true → i.service.jwtSecret = a.jwtSecret → ∀ now,
        doFilter lib a now (kBearer ++ i.token) = .ok (some i.user) ↔ i.Covers now := by
  intro s
  have hs : s.Accounted lib kdf b :=
    exec_invariant_of (fun s a hunforged h => h.adds (adds_step hunforged)) hforged
      ⟨by simp,by simp,by simp,by simp⟩
  refine ⟨hs.credentials,hs.calls,hs.authors,?_⟩
  intro i hi a henabled hsecret now
  rw [doFilter_eq_ok_iff henabled, hs.tokens i hi]
  constructor
  · rintro ⟨token,subject,htoken,huser,hverify⟩
    cases List.append_cancel_left htoken
    exact ((AuthService.verifyToken_issueToken hsecret).mp hverify).2
  · intro hcovers
    exact ⟨_,i.user,rfl,rfl,(AuthService.verifyToken_issueToken hsecret).mpr ⟨rfl,hcovers⟩⟩

end Main

/-! ### A session behind a restart -/

instance encodableByte : Encodable UInt8 :=
  Encodable.ofLeftInverse UInt8.toNat UInt8.ofNat fun _ => UInt8.ofNat_toNat

instance encodableClaims : Encodable Claims :=
  Encodable.ofLeftInverse
    (fun c => (c.issuer,c.subject,c.issuedAt,c.expiresAt,c.notBefore))
    (fun c => ⟨c.1,c.2.1,c.2.2.1,c.2.2.2.1,c.2.2.2.2⟩) fun _ => rfl

/-- Tokens that say in unary what was signed, and with which secret. -/
def unaryTokens : JwtLibrary where
  sign secret claims := List.replicate (Encodable.encode (secret,claims)) 0
  verify secret token :=
    (Encodable.decode token.length).bind fun p : Text × Claims =>
      if p.1 = secret then some p.2 else none
  verify_sign secret claims := by
    rw [List.length_replicate, Encodable.encodek, Option.bind_some, if_pos rfl]

def pinnedSecret : Text := ascii "secret"

def firstAdmin : AuthConfig where
  passwordHash := storedHash (ascii "1") (ascii "00") (List.replicate 64 48)

/-- The credential is another one, the secret is not. -/
def secondAdmin : AuthConfig where
  adminUser := ascii "guard"
  passwordHash := ascii "pbkdf2-sha256"

/-- The admin logs in, the backend is started again with another admin, and the first one opens the
gate. -/
def changedAdmin (lib : JwtLibrary) : List (BackendStep Empty) :=
  [.boot firstAdmin 480 (some pinnedSecret) (Vector.replicate _ 0),
    .login 0 (some (.object [("username",.string (ascii "admin")),("password",.string [])])),
    .boot secondAdmin 480 (some pinnedSecret) (Vector.replicate _ 0),
    .request kNanos
      (kBearer ++ AuthService.issueToken lib ⟨firstAdmin,pinnedSecret,480⟩ 0 (ascii "admin"))
      (.command (ascii "g") (some (.object [("kind",.string (ascii "OPEN_GATE"))])))]

def siteBridge : GrpcBridge := ⟨ascii "site-01",ascii "dashboard",0,fun _ => { code := .ok }⟩

theorem checkCredentials_firstAdmin :
    checkCredentials paddedPassword [] firstAdmin (ascii "admin") = true := by decide +kernel

theorem signIn_firstAdmin (lib : JwtLibrary) (s : Backend) :
    let a : AuthService := ⟨firstAdmin,pinnedSecret,480⟩
    s.signIn lib paddedPassword noDoubles a 0
      (some (.object [("username",.string (ascii "admin")),("password",.string [])])) =
      { s with
        sessions := s.sessions ++ [⟨a,ascii "admin",[],0,a.issueToken lib 0 (ascii "admin")⟩] } := by
  intro a
  have hlogin : login lib paddedPassword noDoubles a 0
      (some (.object [("username",.string (ascii "admin")),("password",.string [])])) =
      .ok ⟨a.issueToken lib 0 (ascii "admin"),ascii "admin",480⟩ := by
    unfold login
    rw [if_neg (by decide)]
    change (if checkCredentials paddedPassword [] firstAdmin (ascii "admin") = false then _
      else _) = _
    rw [checkCredentials_firstAdmin]
    rfl
  unfold Backend.signIn
  rw [hlogin]
  rfl

theorem serve_secondAdmin (lib : JwtLibrary) (s : Backend) :
    let a : AuthService := ⟨secondAdmin,pinnedSecret,480⟩
    (s.serve lib noDoubles Empty.elim siteBridge a kNanos
      (kBearer ++ AuthService.issueToken lib ⟨firstAdmin,pinnedSecret,480⟩ 0 (ascii "admin"))
      (.command (ascii "g") (some (.object [("kind",.string (ascii "OPEN_GATE"))])))).calls =
      s.calls ++ [⟨a,some (ascii "admin"),kNanos,.issueCommand
        { gateId := ascii "g", kind := 1, actor := ascii "dashboard" }⟩] := by
  intro a
  have hverify : a.verifyToken lib kNanos
      (AuthService.issueToken lib ⟨firstAdmin,pinnedSecret,480⟩ 0 (ascii "admin")) =
      some (ascii "admin") := (AuthService.verifyToken_issueToken rfl).mpr ⟨rfl,by decide,by decide⟩
  unfold Backend.serve
  rw [(doFilter_eq_ok_iff (by decide)).mpr ⟨_,_,rfl,rfl,hverify⟩]
  rfl

section Changed
variable (lib : JwtLibrary)

/-- The backend under the second admin, before the request. -/
def restarted : Backend where
  service := some ⟨secondAdmin,pinnedSecret,480⟩
  sessions := [⟨⟨firstAdmin,pinnedSecret,480⟩,ascii "admin",[],0,
    AuthService.issueToken lib ⟨firstAdmin,pinnedSecret,480⟩ 0 (ascii "admin")⟩]

theorem exec_restarted :
    exec (Backend.step lib paddedPassword noDoubles Empty.elim siteBridge) {}
      ((changedAdmin lib).take 3) = restarted lib := by
  unfold changedAdmin
  have hlogin := signIn_firstAdmin lib { service := some ⟨firstAdmin,pinnedSecret,480⟩ }
  exact congrArg (fun s : Backend => { s with service := some ⟨secondAdmin,pinnedSecret,480⟩ })
    hlogin

/-- The one token that is presented is the one that was handed out. -/
theorem unforged_changedAdmin :
    AllSteps (Backend.step lib paddedPassword noDoubles Empty.elim siteBridge) (Unforged lib) {}
      (changedAdmin lib) := by
  refine ⟨trivial,trivial,trivial,?_,trivial⟩
  apply (congrArg (fun s => Unforged lib s _) (exec_restarted lib)).mpr
  intro a ha token htoken _
  cases ha
  cases List.append_cancel_left htoken
  exact ⟨_,List.mem_singleton.mpr rfl,rfl,rfl⟩

theorem exec_changedAdmin :
    exec (Backend.step lib paddedPassword noDoubles Empty.elim siteBridge) {}
      (changedAdmin lib) =
      (restarted lib).serve lib noDoubles Empty.elim siteBridge
        ⟨secondAdmin,pinnedSecret,480⟩ kNanos
        (kBearer ++ AuthService.issueToken lib ⟨firstAdmin,pinnedSecret,480⟩ 0 (ascii "admin"))
        (.command (ascii "g") (some (.object [("kind",.string (ascii "OPEN_GATE"))]))) := by
  rw [← List.take_append_drop 3 (changedAdmin lib), exec_append, exec_restarted]
  rfl

theorem calls_changedAdmin :
    ((exec (Backend.step lib paddedPassword noDoubles Empty.elim siteBridge) {}
      (changedAdmin lib)).calls.map fun c => (c.authUser,c.service.adminUser)) =
      [(some (ascii "admin"),ascii "guard")] := by
  rw [exec_changedAdmin, serve_secondAdmin]
  rfl

end Changed

theorem admin_calls_follow_logins_changed :
    let s := exec (Backend.step unaryTokens paddedPassword noDoubles Empty.elim siteBridge) {}
      (changedAdmin unaryTokens)
    (s.calls.map fun c => (c.authUser,c.service.adminUser)) = [(some (ascii "admin"),ascii "guard")] ∧
    (∀ i ∈ s.sessions,
      checkCredentials paddedPassword i.password i.service.toAuthConfig i.user = true) ∧
      (∀ c ∈ s.calls, c.service.enabled = true → ∃ i ∈ s.sessions, i.Admits c) ∧
      (∀ c ∈ s.calls, ∀ author ∈ c.call.authors, author = ascii "dashboard") ∧
      ∀ i ∈ s.sessions, ∀ a, a.enabled = true → i.service.jwtSecret = a.jwtSecret → ∀ now,
        doFilter unaryTokens a now (kBearer ++ i.token) = .ok (some i.user) ↔ i.Covers now := by
  exact ⟨calls_changedAdmin unaryTokens,
    admin_calls_follow_logins unaryTokens paddedPassword noDoubles Empty.elim siteBridge
      (changedAdmin unaryTokens) (unforged_changedAdmin unaryTokens)⟩

end AlprGate.DashApi
