/-
  JobScheduler.Routes.Auth
  ────────────────────────
  POST /auth/register and POST /auth/login of `auth.routes.ts` and
  `authMiddleware` of `middleware/auth.ts`, as resumable programs of one
  statement a step over the `users` table.

  bcrypt and jsonwebtoken are not in the repository: `Credentials` are their
  functions, `Credentials.Lawful` what their documentation promises.
-/
import JobScheduler.Library.Run
import JobScheduler.Schema.Requests

namespace JobScheduler

open Relational Zod

/-! ## §1. Bodies. -/

/-- The body of POST /auth/register, as `registerSchema` infers it. -/
structure RegisterBody where
  email : String
  password : String
  name : Option String

/-- The body of POST /auth/login, as `loginSchema` infers it. -/
structure LoginBody where
  email : String
  password : String

/-- `z.string().min(n, message)`. -/
def minLengthSaying (n : Nat) (message : String) : Schema String :=
  check (fun s => decide (n ≤ utf16Length s)) message string

/-- `z.string().email('Invalid email address')`; zod's pattern is `isEmail`. -/
def emailSchema (isEmail : String → Bool) : Schema String :=
  check isEmail "Invalid email address" string

/-- `registerSchema`, with the e-mail format test as a parameter. -/
def registerSchema (isEmail : String → Bool) : Schema RegisterBody := object (fun path members =>
  ((Parsed.ok RegisterBody.mk
    |>.ap (field path members "email" (emailSchema isEmail)))
    |>.ap (field path members "password" (minLengthSaying 6 "Password must be at least 6 characters")))
    |>.ap (field path members "name" (optional (minLengthSaying 1 "Name is required"))))

/-- `loginSchema`, with the e-mail format test as a parameter. -/
def loginSchema (isEmail : String → Bool) : Schema LoginBody := object (fun path members =>
  (Parsed.ok LoginBody.mk
    |>.ap (field path members "email" (emailSchema isEmail)))
    |>.ap (field path members "password" (minLengthSaying 1 "Password is required")))

/-! ## §2. Passwords and tokens. -/

/-- The payload of a token, and `req.user`. -/
structure UserPayload where
  id : UUID
  email : String
  deriving DecidableEq

/-- `bcrypt.hash(password, 12)` with its random salt, `bcrypt.compare`, and `jwt.sign`
and `jwt.verify` with JWT_SECRET and JWT_EXPIRES_IN at a given time. -/
structure Credentials where
  hash : String → Nat → String
  compare : String → String → Bool
  sign : UserPayload → Timestamp → String
  verify : String → Timestamp → Option UserPayload

/-- What the documentation of the two libraries promises.  bcrypt reads a password up to
a length: `significant` is that part.  A token is valid for `expiresIn` seconds, and times are
taken in whole seconds. -/
structure Credentials.Lawful {κ : Type} (cr : Credentials) (significant : String → κ)
    (expiresIn : Int) :
    Prop where
  compare_hash : ∀ password salt attempt,
    cr.compare attempt (cr.hash password salt) = true ↔ significant attempt = significant password
  verify_sign : ∀ payload issuedAt now, cr.verify (cr.sign payload issuedAt) now =
    if now / 1000 < issuedAt / 1000 + expiresIn then some payload else none

/-! ## §3. The calls. -/

/-- A row of `users`. -/
structure UserRow where
  email : String
  passwordHash : String
  name : Option String
  createdAt : Timestamp
  deriving DecidableEq

/-- The `data` of a successful reply. -/
structure Session where
  id : UUID
  email : String
  name : Option String
  createdAt : Timestamp
  token : String

/-- What `register` and `login` answer: a session with its status code, or the error. -/
inductive AuthReply
  | session (statusCode : Nat) (data : Session)
  | failure (err : AppError)

/-- Where a `register` call stands. -/
inductive RegisterPc
  | selectUser
  /-- `await bcrypt.hash(password, 12)`. -/
  | hashing
  | insertUser (passwordHash : String)
  | returned (reply : AuthReply)

/-- Where a `login` call stands. -/
inductive LoginPc
  | selectUser
  /-- `await bcrypt.compare(password, user.password_hash)`. -/
  | comparing (id : UUID) (row : UserRow)
  | returned (reply : AuthReply)

/-- Where `authMiddleware` stands after the token has been verified. -/
inductive GuardPc
  | selectUser
  /-- `next()` with `req.user`, or the reply. -/
  | returned (outcome : Except AppError UserPayload)

/-- A request that the authentication code has in hand. -/
inductive AuthCall
  | register (input : RegisterBody) (pc : RegisterPc)
  | login (input : LoginBody) (pc : LoginPc)
  /-- `authMiddleware` after `jwt.verify` has given `decoded`, at the time `verifiedAt`. -/
  | guard (token : String) (decoded : UserPayload) (verifiedAt : Timestamp) (pc : GuardPc)
  /-- The request was answered before any statement. -/
  | refused (err : AppError)

/-- A request as it arrives, before any check. -/
inductive AuthRequest
  | register (body : JsonValue)
  | login (body : JsonValue)
  /-- Any request behind `authMiddleware`, with its `Authorization` header. -/
  | guarded (authHeader : Option String)

/-- `authHeader.startsWith('Bearer ')` and `authHeader.substring(7)`. -/
def bearerToken (authHeader : Option String) : Option String :=
  authHeader.bind (fun h =>
    if "Bearer ".toList.isPrefixOf h.toList then some (String.ofList (h.toList.drop 7)) else none)

/-- The part of a request before its first `await`. -/
def AuthRequest.start (cr : Credentials) (isEmail : String → Bool) (now : Timestamp) :
    AuthRequest → AuthCall
  | .register body =>
      match validate (registerSchema isEmail) body with
      | .ok input => .register input .selectUser
      | .error err => .refused err
  | .login body =>
      match validate (loginSchema isEmail) body with
      | .ok input => .login input .selectUser
      | .error err => .refused err
  | .guarded authHeader =>
      match bearerToken authHeader with
      | none => .refused ⟨401, "UNAUTHORIZED", "Missing or invalid authorization header"⟩
      | some token =>
          match cr.verify token now with
          | none => .refused ⟨401, "UNAUTHORIZED", "Invalid or expired token"⟩
          | some decoded => .guard token decoded now .selectUser

/-- `WHERE email = $1`. -/
def withEmail (users : Table UUID UserRow) (email : String) : List (UUID × UserRow) :=
  users.select (fun _ row => decide (row.email = email))

/-- The data of a reply to the user of a row, with a token signed at `now`. -/
def Session.of (cr : Credentials) (now : Timestamp) (id : UUID) (row : UserRow) : Session :=
  ⟨id, row.email, row.name, row.createdAt, cr.sign ⟨id, row.email⟩ now⟩

/-- The one answer for an unknown e-mail and for a wrong password. -/
def invalidCredentials : AppError := ⟨401, "UNAUTHORIZED", "Invalid email or password"⟩

/-- One statement of `register`: the SELECT, the hash, the INSERT. -/
def RegisterPc.step (cr : Credentials) (clock : Timestamp) (env : Env) (users : Table UUID UserRow)
    (input : RegisterBody) : RegisterPc → Option (Table UUID UserRow × RegisterPc)
  | .selectUser =>
      if env.fails then some (users, .returned (.failure (internalServerError env.error)))
      else if withEmail users input.email = [] then some (users, .hashing)
      else some (users, .returned
        (.failure ⟨409, "CONFLICT", "A user with this email already exists"⟩))
  | .hashing => some (users, .insertUser (cr.hash input.password env.fresh))
  | .insertUser passwordHash =>
      if env.fails then some (users, .returned (.failure (internalServerError env.error)))
      -- `email TEXT UNIQUE NOT NULL`
      else if withEmail users input.email ≠ [] then
        some (users, .returned (.failure
          (internalServerError "duplicate key value violates unique constraint \"users_email_key\"")))
      else if env.fresh ∈ users then none
      else
        let row : UserRow := ⟨input.email, passwordHash, input.name, env.now⟩
        some (users.insert env.fresh row,
          .returned (.session 201 (Session.of cr clock env.fresh row)))
  | .returned _ => none

/-- One statement of `login`: the SELECT, then the comparison. -/
def LoginPc.step (cr : Credentials) (clock : Timestamp) (env : Env) (users : Table UUID UserRow)
    (input : LoginBody) : LoginPc → Option LoginPc
  | .selectUser =>
      if env.fails then some (.returned (.failure (internalServerError env.error)))
      else
        match withEmail users input.email with
        | [] => some (.returned (.failure invalidCredentials))
        | (id, row) :: _ => some (.comparing id row)
  | .comparing id row =>
      if cr.compare input.password row.passwordHash then
        some (.returned (.session 200 (Session.of cr clock id row)))
      else some (.returned (.failure invalidCredentials))
  | .returned _ => none

/-- The SELECT of `authMiddleware` that looks the token's user up again. -/
def GuardPc.step (env : Env) (users : Table UUID UserRow) (decoded : UserPayload) :
    GuardPc → Option GuardPc
  | .selectUser =>
      -- the `catch` of `authMiddleware` also answers a failing query
      if env.fails then some (.returned (.error ⟨401, "UNAUTHORIZED", "Invalid or expired token"⟩))
      else
        match users.lookup decoded.id with
        | none => some (.returned
            (.error ⟨401, "UNAUTHORIZED", "User session expired or user no longer exists"⟩))
        | some row => some (.returned (.ok ⟨decoded.id, row.email⟩))
  | .returned _ => none

/-- One statement of whichever call it is, on the `users` table. -/
def AuthCall.step (cr : Credentials) (clock : Timestamp) (env : Env) (users : Table UUID UserRow) :
    AuthCall → Option (Table UUID UserRow × AuthCall)
  | .register input pc => (pc.step cr clock env users input).map (fun r => (r.1, .register input r.2))
  | .login input pc => (pc.step cr clock env users input).map (fun pc' => (users, .login input pc'))
  | .guard token decoded verifiedAt pc =>
      (pc.step env users decoded).map (fun pc' => (users, .guard token decoded verifiedAt pc'))
  | .refused _ => none

/-- What the caller was given. -/
def AuthCall.session : AuthCall → Option Session
  | .register _ (.returned (.session _ data)) => some data
  | .login _ (.returned (.session _ data)) => some data
  | _ => none

/-! ## §4. All calls. -/

/-- The clock, the `users` table and the calls in flight. -/
structure AuthSys where
  clock : Timestamp
  users : Table UUID UserRow
  calls : Table Nat AuthCall

/-- Time passes, a request arrives, or a call sends its next statement. -/
inductive AuthAction
  | wait (ms : Nat)
  | start (pid : Nat) (request : AuthRequest)
  | run (pid : Nat) (env : Env)

/-- Store a call and the `users` table that its statement left. -/
def AuthSys.put (s : AuthSys) (pid : Nat) (users : Table UUID UserRow) (call : AuthCall) : AuthSys where
  clock := s.clock
  users := users
  calls := s.calls.insert pid call

/-- One action of the authentication code. -/
def AuthSys.step (cr : Credentials) (isEmail : String → Bool) (s : AuthSys) :
    AuthAction → Option AuthSys
  | .wait ms => some { s with clock := s.clock + ms }
  | .start pid request =>
      if pid ∈ s.calls then none else some (s.put pid s.users (request.start cr isEmail s.clock))
  | .run pid env =>
      match s.calls.lookup pid with
      | none => none
      | some call =>
          if env.now ≤ s.clock then
            (call.step cr s.clock env s.users).map (fun r => s.put pid r.1 r.2)
          else none

/-- No call, and any users with distinct emails. -/
def AuthSys.atRest (clock : Timestamp) (users : Table UUID UserRow) : AuthSys := ⟨clock, users, ∅⟩

/-- A run of the authentication code, with every state it went through. -/
abbrev AuthRun (cr : Credentials) (isEmail : String → Bool) (s₀ : AuthSys)
    (tr : List (AuthSys × AuthAction)) (s : AuthSys) : Prop :=
  Transition.Run (AuthSys.step cr isEmail) s₀ tr s

/-- The request presents a token that verifies and that no call was given. -/
def AuthAction.forges (cr : Credentials) (s : AuthSys) : AuthAction → Bool
  | .start _ (.guarded authHeader) =>
      (bearerToken authHeader).any (fun token => (cr.verify token s.clock).isSome
        && s.calls.all (fun _ call => call.session.all (fun data => decide (data.token ≠ token))))
  | _ => false

/-! ## §5. Inversion of one step. -/

section
variable {cr : Credentials} {isEmail : String → Bool} {s s' : AuthSys} {a : AuthAction}

/-- What a step can be, action by action. -/
inductive AuthSys.Stepped (cr : Credentials) (isEmail : String → Bool) (s : AuthSys) :
    AuthAction → AuthSys → Prop
  | wait (ms : Nat) : Stepped cr isEmail s (.wait ms) { s with clock := s.clock + ms }
  | start (pid : Nat) (request : AuthRequest) (hfree : s.calls.lookup pid = none) :
      Stepped cr isEmail s (.start pid request) (s.put pid s.users (request.start cr isEmail s.clock))
  | run (pid : Nat) (env : Env) (call call' : AuthCall) (users : Table UUID UserRow)
      (hcall : s.calls.lookup pid = some call) (hnow : env.now ≤ s.clock)
      (hstep : call.step cr s.clock env s.users = some (users, call')) :
      Stepped cr isEmail s (.run pid env) (s.put pid users call')

theorem AuthSys.stepped (h : s.step cr isEmail a = some s') : AuthSys.Stepped cr isEmail s a s' := by
  cases a with
  | wait ms =>
      obtain rfl := Option.some.inj h
      exact .wait ms
  | start pid request =>
      simp only [step] at h
      split at h
      · cases h
      · obtain rfl := Option.some.inj h
        exact .start pid request (AList.lookup_eq_none.mpr ‹_›)
  | run pid env =>
      simp only [step] at h
      split at h
      · cases h
      · rename_i call hcall
        split at h
        · obtain ⟨⟨users, call'⟩, hstep, rfl⟩ := Option.map_eq_some_iff.mp h
          exact .run pid env call call' users hcall ‹_› hstep
        · cases h

/-- The rows of the SELECT by e-mail. -/
theorem mem_withEmail {users : Table UUID UserRow} {email : String} {id : UUID} {row : UserRow} :
    (id, row) ∈ withEmail users email ↔ users.lookup id = some row ∧ row.email = email := by
  rw [withEmail, Table.mem_select_iff, decide_eq_true_eq]

/-- What a request is after its part before the first `await`. -/
inductive AuthRequest.Started (cr : Credentials) (now : Timestamp) (request : AuthRequest) :
    AuthCall → Prop
  | register (input : RegisterBody) : Started cr now request (.register input .selectUser)
  | login (input : LoginBody) : Started cr now request (.login input .selectUser)
  | guard (authHeader : Option String) (token : String) (decoded : UserPayload)
      (hrequest : request = .guarded authHeader) (htoken : bearerToken authHeader = some token)
      (hverify : cr.verify token now = some decoded) :
      Started cr now request (.guard token decoded now .selectUser)
  | refused (err : AppError) : Started cr now request (.refused err)

/-- What becomes of a request before its first statement. -/
theorem AuthRequest.started (cr : Credentials) (isEmail : String → Bool) (now : Timestamp)
    (request : AuthRequest) : Started cr now request (request.start cr isEmail now) := by
  cases request with
  | register body =>
      simp only [start]
      split
      · exact .register _
      · exact .refused _
  | login body =>
      simp only [start]
      split
      · exact .login _
      · exact .refused _
  | guarded authHeader =>
      simp only [start]
      split
      · exact .refused _
      · rename_i token htoken
        split
        · exact .refused _
        · rename_i decoded hverify
          exact .guard authHeader token decoded rfl htoken hverify

/-- What a statement of a call does to the users and to the call. -/
inductive AuthCall.Stepped (cr : Credentials) (clock : Timestamp) (env : Env)
    (users : Table UUID UserRow) :
    AuthCall → Table UUID UserRow → AuthCall → Prop
  /-- The call has got no session and leaves no row. -/
  | moved (call call' : AuthCall) (hnone : call'.session = none)
      (hregister : ∀ input hash, call' = .register input (.insertUser hash) →
        call = .register input .hashing ∧ hash = cr.hash input.password env.fresh)
      (hlogin : ∀ input id row, call' = .login input (.comparing id row) →
        call = .login input .selectUser ∧ users.lookup id = some row ∧ row.email = input.email)
      (hguard : ∀ token decoded at_ pc, call' = .guard token decoded at_ pc →
        call = .guard token decoded at_ .selectUser ∧ ∀ user, pc = .returned (.ok user) →
          ∃ row, users.lookup decoded.id = some row ∧ user = ⟨decoded.id, row.email⟩) :
      Stepped cr clock env users call users call'
  | registered (input : RegisterBody) (hash : String) (row : UserRow)
      (hrow : row = ⟨input.email, hash, input.name, env.now⟩)
      (hunique : ∀ id other, users.lookup id = some other → other.email ≠ input.email)
      (hfresh : users.lookup env.fresh = none) :
      Stepped cr clock env users (.register input (.insertUser hash)) (users.insert env.fresh row)
        (.register input (.returned (.session 201 (Session.of cr clock env.fresh row))))
  | loggedIn (input : LoginBody) (id : UUID) (row : UserRow)
      (hcompare : cr.compare input.password row.passwordHash = true) :
      Stepped cr clock env users (.login input (.comparing id row)) users
        (.login input (.returned (.session 200 (Session.of cr clock id row))))

theorem AuthCall.stepped {clock : Timestamp} {env : Env} {users users' : Table UUID UserRow}
    {call call' : AuthCall} (h : call.step cr clock env users = some (users', call')) :
    AuthCall.Stepped cr clock env users call users' call' := by
  cases call with
  | register input pc =>
      obtain ⟨⟨u, pc'⟩, hpc, heq⟩ := Option.map_eq_some_iff.mp h
      cases heq
      cases pc <;> simp only [RegisterPc.step] at hpc
      case selectUser =>
        repeat' split at hpc
        all_goals
          cases hpc
          exact .moved _ _ rfl (by simp) (by simp) (by simp)
      case hashing =>
        cases hpc
        exact .moved _ _ rfl (by simp +contextual) (by simp) (by simp)
      case insertUser hash =>
        split at hpc
        · cases hpc
          exact .moved _ _ rfl (by simp) (by simp) (by simp)
        · split at hpc
          · cases hpc
            exact .moved _ _ rfl (by simp) (by simp) (by simp)
          · split at hpc
            · cases hpc
            · rename_i hempty hfresh
              cases hpc
              refine .registered input hash _ rfl (fun id other hother heq => ?_)
                (AList.lookup_eq_none.mpr hfresh)
              have hmem := mem_withEmail.mpr ⟨hother, heq⟩
              rw [not_ne_iff.mp hempty] at hmem
              cases hmem
      case returned => cases hpc
  | login input pc =>
      obtain ⟨pc', hpc, heq⟩ := Option.map_eq_some_iff.mp h
      cases heq
      cases pc <;> simp only [LoginPc.step] at hpc
      case selectUser =>
        split at hpc
        · cases hpc
          exact .moved _ _ rfl (by simp) (by simp) (by simp)
        · split at hpc
          · cases hpc
            exact .moved _ _ rfl (by simp) (by simp) (by simp)
          · rename_i id row rest hrows
            cases hpc
            refine .moved _ _ rfl (by simp) ?_ (by simp)
            intro input' id' row' heq
            cases heq
            exact ⟨rfl, mem_withEmail.mp (hrows ▸ List.mem_cons_self)⟩
      case comparing id row =>
        split at hpc
        · cases hpc
          exact .loggedIn input id row ‹_›
        · cases hpc
          exact .moved _ _ rfl (by simp) (by simp) (by simp)
      case returned => cases hpc
  | guard token decoded at_ pc =>
      obtain ⟨pc', hpc, heq⟩ := Option.map_eq_some_iff.mp h
      cases heq
      cases pc <;> simp only [GuardPc.step] at hpc
      case selectUser =>
        -- a refusal passes nobody
        have hrefused : ∀ err, AuthCall.Stepped cr clock env users
          (.guard token decoded at_ .selectUser) users
            (.guard token decoded at_ (.returned (.error err))) := by
          refine fun err => .moved _ _ rfl (by simp) (by simp) ?_
          intro token' decoded' at' pc' heq
          cases heq
          exact ⟨rfl, by simp⟩
        split at hpc
        · cases hpc
          exact hrefused _
        · split at hpc
          · cases hpc
            exact hrefused _
          · rename_i row hrow
            cases hpc
            refine .moved _ _ rfl (by simp) (by simp) ?_
            intro token' decoded' at' pc' heq
            cases heq
            refine ⟨rfl, fun user huser => ⟨row, hrow, ?_⟩⟩
            cases huser
            rfl
      case returned => cases hpc
  | refused err => cases h

end

end JobScheduler
