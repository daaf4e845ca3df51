/-
  JobScheduler.Tenancy.Authentication
  ───────────────────────────────────
  Who `req.user` is.  A request that `authMiddleware` lets through carries a token
  that POST /auth/register or POST /auth/login gave to somebody who knew the
  password of the account, not longer ago than the lifetime of a token, whatever
  the order of the statements of all registrations, logins and requests.

  The assumption of the result about tokens is that the clients do not forge: a token
  that verifies was given to somebody.  Accounts and logins need no such assumption.
-/
import JobScheduler.Routes.Auth

namespace JobScheduler

open Relational Transition

/-! ## §1. The invariant. -/

/-- The email and the password that the caller stated. -/
def AuthCall.stated : AuthCall → Option (String × String)
  | .register input _ => some (input.email, input.password)
  | .login input _ => some (input.email, input.password)
  | _ => none

/-- The call was given a session for the row at the time `t`. -/
structure GivenSession (cr : Credentials) (s : AuthSys) (pid : Nat) (call : AuthCall) (data : Session)
    (row : UserRow) (t : Timestamp) : Prop where
  call_eq : s.calls.lookup pid = some call
  session_eq : call.session = some data
  row_eq : s.users.lookup data.id = some row
  data_eq : data = Session.of cr t data.id row
  time : t ≤ s.clock

/-- `bcrypt.compare` accepts the password, or its hash is that of the row. -/
def UserRow.Known (cr : Credentials) (password : String) (row : UserRow) : Prop :=
  cr.compare password row.passwordHash = true ∨ ∃ salt, row.passwordHash = cr.hash password salt

/-- What holds of the users, the registrations and the logins along every run. -/
structure Accounts (cr : Credentials) (users₀ : Table UUID UserRow) (s : AuthSys) : Prop where
  emails : ∀ i j r q, s.users.lookup i = some r → s.users.lookup j = some q → r.email = q.email → i = j
  kept : ∀ id row, users₀.lookup id = some row → s.users.lookup id = some row
  /-- A row was there before, or a registration was given a session for it. -/
  rows : ∀ id row, s.users.lookup id = some row → users₀.lookup id = some row ∨
    ∃ pid input data salt, s.calls.lookup pid = some (.register input (.returned (.session 201 data))) ∧
      data.id = id ∧ row.email = input.email ∧ row.passwordHash = cr.hash input.password salt
  hashed : ∀ pid input hash, s.calls.lookup pid = some (.register input (.insertUser hash)) →
    ∃ salt, hash = cr.hash input.password salt
  selected : ∀ pid input id row, s.calls.lookup pid = some (.login input (.comparing id row)) →
    s.users.lookup id = some row ∧ row.email = input.email
  /-- Sessions are given for existing rows, to callers that state their email and password. -/
  sessions : ∀ pid call data, s.calls.lookup pid = some call → call.session = some data →
    ∃ row t, GivenSession cr s pid call data row t ∧
      ∃ password, call.stated = some (row.email, password) ∧ row.Known cr password
  /-- No two registrations were given a session for one account. -/
  once : ∀ pid pid' input input' data data',
    s.calls.lookup pid = some (.register input (.returned (.session 201 data))) →
    s.calls.lookup pid' = some (.register input' (.returned (.session 201 data'))) →
    data.id = data'.id → pid = pid'
  fresh : ∀ pid input data,
    s.calls.lookup pid = some (.register input (.returned (.session 201 data))) →
    users₀.lookup data.id = none

/-- What holds of the requests behind `authMiddleware` along every run without forged
tokens. -/
structure TokensGiven (cr : Credentials) (s : AuthSys) : Prop where
  /-- The token of a request that has passed `jwt.verify` was given to somebody. -/
  given : ∀ pid token decoded at_ pc, s.calls.lookup pid = some (.guard token decoded at_ pc) →
    cr.verify token at_ = some decoded ∧
      ∃ pid' call data row t, GivenSession cr s pid' call data row t ∧ data.token = token ∧ t ≤ at_
  accepted : ∀ pid token decoded at_ user,
    s.calls.lookup pid = some (.guard token decoded at_ (.returned (.ok user))) →
    ∃ row, s.users.lookup decoded.id = some row ∧ user = ⟨decoded.id, row.email⟩

section
variable {κ : Type} {cr : Credentials} {significant : String → κ} {expiresIn : Int}
variable {isEmail : String → Bool} {clock : Timestamp} {users₀ : Table UUID UserRow}
variable {tr : List (AuthSys × AuthAction)} {s s' : AuthSys} {a : AuthAction}

theorem accounts_atRest
    (h₀ : ∀ i j r q, users₀.lookup i = some r → users₀.lookup j = some q → r.email = q.email → i = j) :
    Accounts cr users₀ (AuthSys.atRest clock users₀) where
  emails := h₀
  kept id row h := h
  rows id row h := .inl h
  hashed pid input hash h := by simp [AuthSys.atRest] at h
  selected pid input id row h := by simp [AuthSys.atRest] at h
  sessions pid call data h := by simp [AuthSys.atRest] at h
  once pid pid' input input' data data' h := by simp [AuthSys.atRest] at h
  fresh pid input data h := by simp [AuthSys.atRest] at h

theorem tokensGiven_atRest : TokensGiven cr (AuthSys.atRest clock users₀) where
  given pid token decoded at_ pc h := by simp [AuthSys.atRest] at h
  accepted pid token decoded at_ user h := by simp [AuthSys.atRest] at h

/-- A password that has the hash of the row opens the account. -/
theorem UserRow.Known.compare (hL : cr.Lawful significant expiresIn) {row : UserRow}
    {password : String} (h : row.Known cr password) :
    cr.compare password row.passwordHash = true := by
  rcases h with hcompare | ⟨salt, hhash⟩
  · exact hcompare
  · rw [hhash]
    exact (hL.compare_hash _ _ _).mpr rfl

/-! ## §2. Steps. -/

/-- Users stay, and so do the calls that were given a session. -/
structure AuthSys.Grows (s s' : AuthSys) : Prop where
  clock : s.clock ≤ s'.clock
  users : ∀ id row, s.users.lookup id = some row → s'.users.lookup id = some row
  sessions : ∀ pid call data, s.calls.lookup pid = some call → call.session = some data →
    s'.calls.lookup pid = some call

/-- A call that has answered does not move. -/
theorem session_stuck {env : Env} {now : Timestamp} {users : Table UUID UserRow} {call : AuthCall}
    {data : Session} (h : call.session = some data) : call.step cr now env users = none := by
  unfold AuthCall.session at h
  split at h
  · rfl
  · rfl
  · cases h

theorem AuthSys.put_calls (s : AuthSys) (pid k : Nat) (users : Table UUID UserRow) (call : AuthCall) :
    (s.put pid users call).calls.lookup k = if k = pid then some call else s.calls.lookup k := by
  simp only [put, Table.lookup_insert_ite]

/-- Users are added and never changed, and calls go on. -/
theorem grows (h : s.step cr isEmail a = some s') : s.Grows s' := by
  cases AuthSys.stepped h with
  | wait ms =>
      exact ⟨Int.le_add_of_nonneg_right (Int.natCast_nonneg ms), fun _ _ h => h, fun _ _ _ h _ => h⟩
  | start pid request hfree =>
      refine ⟨le_refl _, fun _ _ h => h, fun k call data hk hdata => ?_⟩
      have hne : k ≠ pid := by
        rintro rfl
        rw [hfree] at hk
        cases hk
      rw [AuthSys.put_calls, if_neg hne]
      exact hk
  | run pid env call call' users hcall hnow hstep =>
      refine ⟨le_refl _, fun id row hid => ?_, fun k other data hk hdata => ?_⟩
      · cases AuthCall.stepped hstep with
        | moved | loggedIn => exact hid
        | registered input hash row' _ _ hfresh =>
            have hne : id ≠ env.fresh := by
              rintro rfl
              rw [hfresh] at hid
              cases hid
            simp only [AuthSys.put, Table.lookup_insert_ite, if_neg hne]
            exact hid
      · have hne : k ≠ pid := by
          rintro rfl
          rw [hcall] at hk
          cases hk
          rw [session_stuck hdata] at hstep
          cases hstep
        rw [AuthSys.put_calls, if_neg hne]
        exact hk

/-- A session that was given stays given. -/
theorem GivenSession.grow {pid : Nat} {call : AuthCall} {data : Session} {row : UserRow} {t : Timestamp}
    (h : GivenSession cr s pid call data row t) (hg : s.Grows s') :
    GivenSession cr s' pid call data row t where
  call_eq := hg.sessions pid call data h.call_eq h.session_eq
  session_eq := h.session_eq
  row_eq := hg.users _ _ h.row_eq
  data_eq := h.data_eq
  time := h.time.trans hg.clock

/-- A call of the state after a step: one of before, or the one that has moved. -/
theorem AuthSys.put_origin {pid k : Nat} {users : Table UUID UserRow} {call call' : AuthCall}
    (h : (s.put pid users call).calls.lookup k = some call') :
    (k = pid ∧ call' = call) ∨ (k ≠ pid ∧ s.calls.lookup k = some call') := by
  rw [AuthSys.put_calls] at h
  split at h
  · exact .inl ⟨‹_›, (Option.some.inj h).symm⟩
  · exact .inr ⟨‹_›, h⟩

/-- What holds of a call that has just been started or moved. -/
structure CallSound (cr : Credentials) (s s' : AuthSys) (pid : Nat) (call : AuthCall) : Prop where
  hashed : ∀ input hash, call = .register input (.insertUser hash) →
    ∃ salt, hash = cr.hash input.password salt
  selected : ∀ input id row, call = .login input (.comparing id row) →
    s'.users.lookup id = some row ∧ row.email = input.email
  session : ∀ data, call.session = some data → ∃ row t, GivenSession cr s' pid call data row t ∧
    ∃ password, call.stated = some (row.email, password) ∧ row.Known cr password
  registered : ∀ input data, call = .register input (.returned (.session 201 data)) →
    s.users.lookup data.id = none

/-- **One call moves.**  The other calls keep what they had. -/
theorem Accounts.put {pid : Nat} {users : Table UUID UserRow} {call : AuthCall}
    (hI : Accounts cr users₀ s) (hg : s.Grows (s.put pid users call))
    (hC : CallSound cr s (s.put pid users call) pid call)
    (hemails : ∀ i j r q, users.lookup i = some r → users.lookup j = some q → r.email = q.email → i = j)
    (hrows : ∀ id row, users.lookup id = some row → s.users.lookup id = some row ∨
      ∃ input data salt, call = .register input (.returned (.session 201 data)) ∧ data.id = id ∧
        row.email = input.email ∧ row.passwordHash = cr.hash input.password salt) :
    Accounts cr users₀ (s.put pid users call) where
  emails := hemails
  kept id row h := hg.users id row (hI.kept id row h)
  rows id row hid := by
    rcases hrows id row hid with hold | ⟨input, data, salt, rfl, hrest⟩
    · rcases hI.rows id row hold with h₀ | ⟨k, input, data, salt, hk, hrest⟩
      · exact .inl h₀
      · exact .inr ⟨k, input, data, salt, hg.sessions k _ data hk rfl, hrest⟩
    · exact .inr ⟨pid, input, data, salt, by rw [AuthSys.put_calls, if_pos rfl], hrest⟩
  hashed k input hash hk := by
    rcases AuthSys.put_origin hk with ⟨_, heq⟩ | ⟨_, hk⟩
    · exact hC.hashed input hash heq.symm
    · exact hI.hashed k input hash hk
  selected k input id row hk := by
    rcases AuthSys.put_origin hk with ⟨_, heq⟩ | ⟨_, hk⟩
    · exact hC.selected input id row heq.symm
    · obtain ⟨hrow, hemail⟩ := hI.selected k input id row hk
      exact ⟨hg.users id row hrow, hemail⟩
  sessions k other data hk hdata := by
    rcases AuthSys.put_origin hk with ⟨rfl, rfl⟩ | ⟨_, hk⟩
    · exact hC.session data hdata
    · obtain ⟨row, t, hgiven, hrest⟩ := hI.sessions k other data hk hdata
      exact ⟨row, t, hgiven.grow hg, hrest⟩
  once k k' input input' data data' hk hk' heq := by
    -- the account of an earlier session exists already
    have hnew : ∀ k other d, s.calls.lookup k = some other → other.session = some d →
        s.users.lookup d.id ≠ none := by
      intro k other d hk hd hnone
      obtain ⟨_, _, hgiven, _⟩ := hI.sessions k other d hk hd
      rw [hgiven.row_eq] at hnone
      cases hnone
    rcases AuthSys.put_origin hk with ⟨hp, hd⟩ | ⟨_, hk⟩ <;>
      rcases AuthSys.put_origin hk' with ⟨hp', hd'⟩ | ⟨_, hk'⟩
    · exact hp.trans hp'.symm
    · exact absurd (heq ▸ hC.registered input data hd.symm) (hnew k' _ data' hk' rfl)
    · exact absurd (heq ▸ hC.registered input' data' hd'.symm) (hnew k _ data hk rfl)
    · exact hI.once k k' input input' data data' hk hk' heq
  fresh k input data hk := by
    rcases AuthSys.put_origin hk with ⟨_, heq⟩ | ⟨_, hk⟩
    · have hnone := hC.registered input data heq.symm
      by_contra hold
      obtain ⟨row, hrow⟩ := Option.ne_none_iff_exists'.mp hold
      rw [hI.kept _ _ hrow] at hnone
      cases hnone
    · exact hI.fresh k input data hk

/-- The call after a statement. -/
theorem callSound_step {pid : Nat} {env : Env} {call call' : AuthCall} {users : Table UUID UserRow}
    (hI : Accounts cr users₀ s) (hcall : s.calls.lookup pid = some call)
    (hstep : call.step cr s.clock env s.users = some (users, call')) :
    CallSound cr s (s.put pid users call') pid call' := by
  have hself : (s.put pid users call').calls.lookup pid = some call' := by
    rw [AuthSys.put_calls, if_pos rfl]
  cases AuthCall.stepped hstep with
  | moved _ _ hnone hregister hlogin hguard =>
      refine ⟨?_, ?_, ?_, ?_⟩
      · intro input hash heq
        exact ⟨_, (hregister input hash heq).2⟩
      · intro input id row heq
        exact (hlogin input id row heq).2
      · intro data hdata
        rw [hnone] at hdata
        cases hdata
      · rintro input data rfl
        cases hnone
  | registered input hash row hrow hunique hfresh =>
      obtain ⟨salt, rfl⟩ := hI.hashed pid input hash hcall
      refine ⟨by simp, by simp, ?_, ?_⟩
      · intro data hdata
        cases hdata
        refine ⟨row, s.clock, ⟨hself, rfl, ?_, rfl, le_refl _⟩, input.password, ?_,
          .inr ⟨salt, by rw [hrow]⟩⟩
        · simp only [AuthSys.put, Table.lookup_insert_ite, Session.of, if_true]
        · rw [AuthCall.stated, hrow]
      · intro input' data heq
        cases heq
        exact hfresh
  | loggedIn input id row hcompare =>
      obtain ⟨hrow, hemail⟩ := hI.selected pid input id row hcall
      refine ⟨by simp, by simp, ?_, by simp⟩
      intro data hdata
      cases hdata
      exact ⟨row, s.clock, ⟨hself, rfl, hrow, rfl, le_refl _⟩, input.password,
        by rw [AuthCall.stated, hemail], .inl hcompare⟩

/-- A statement keeps e-mails unique: an INSERT has met no row with its e-mail. -/
theorem Accounts.emails_statement {env : Env} {call call' : AuthCall} {users : Table UUID UserRow}
    (hI : Accounts cr users₀ s) (hstep : call.step cr s.clock env s.users = some (users, call')) :
    ∀ i j r q, users.lookup i = some r → users.lookup j = some q → r.email = q.email → i = j := by
  cases AuthCall.stepped hstep with
  | moved | loggedIn => exact hI.emails
  | registered input hash row hrow hunique hfresh =>
      have hemail : row.email = input.email := by rw [hrow]
      intro i j r q hi hj heq
      rw [Table.lookup_insert_ite] at hi hj
      split at hi <;> split at hj
      · exact (‹i = _›).trans (‹j = _›).symm
      · cases hi
        exact absurd (heq.symm.trans hemail) (hunique j q hj)
      · cases hj
        exact absurd (heq.trans hemail) (hunique i r hi)
      · exact hI.emails i j r q hi hj heq

/-- A row after a statement was there before, or the statement has registered it. -/
theorem Accounts.rows_statement {pid : Nat} {env : Env} {call call' : AuthCall}
    {users : Table UUID UserRow} (hI : Accounts cr users₀ s) (hcall : s.calls.lookup pid = some call)
    (hstep : call.step cr s.clock env s.users = some (users, call')) :
    ∀ id row, users.lookup id = some row → s.users.lookup id = some row ∨
      ∃ input data salt, call' = .register input (.returned (.session 201 data)) ∧ data.id = id ∧
        row.email = input.email ∧ row.passwordHash = cr.hash input.password salt := by
  cases AuthCall.stepped hstep with
  | moved | loggedIn => exact fun id row hid => .inl hid
  | registered input hash row hrow hunique hfresh =>
      obtain ⟨salt, rfl⟩ := hI.hashed pid input hash hcall
      intro id r hid
      rw [Table.lookup_insert_ite] at hid
      split at hid
      · cases hid
        exact .inr ⟨input, _, salt, rfl, (‹id = _›).symm, by rw [hrow], by rw [hrow]⟩
      · exact .inl hid

/-- One step keeps e-mails unique and every row accounted for. -/
theorem accounts_step (hI : Accounts cr users₀ s) (h : s.step cr isEmail a = some s') :
    Accounts cr users₀ s' := by
  have hg := grows h
  cases AuthSys.stepped h with
  | wait ms =>
      refine ⟨hI.emails, hI.kept, hI.rows, hI.hashed, hI.selected, ?_, hI.once, hI.fresh⟩
      intro pid call data hk hdata
      obtain ⟨row, t, hgiven, hrest⟩ := hI.sessions pid call data hk hdata
      exact ⟨row, t, hgiven.grow hg, hrest⟩
  | start pid request hfree =>
      refine hI.put hg ?_ hI.emails (fun id row hid => .inl hid)
      have hstarted := AuthRequest.started cr isEmail s.clock request
      generalize request.start cr isEmail s.clock = call at hstarted hg ⊢
      cases hstarted <;> exact ⟨by simp, by simp, by simp [AuthCall.session], by simp⟩
  | run pid env call call' users hcall hnow hstep =>
      exact hI.put hg (callSound_step hI hcall hstep) (hI.emails_statement hstep)
        (hI.rows_statement hcall hstep)

/-- A token that is not forged was given to somebody. -/
theorem Accounts.given_of_not_forged {pid : Nat} {authHeader : Option String} {token : String}
    {decoded : UserPayload} (hI : Accounts cr users₀ s)
    (hforge : (AuthAction.start pid (.guarded authHeader)).forges cr s = false)
    (htoken : bearerToken authHeader = some token) (hverify : cr.verify token s.clock = some decoded) :
    ∃ pid' call data row t, GivenSession cr s pid' call data row t ∧ data.token = token ∧
      t ≤ s.clock := by
  simp only [AuthAction.forges, htoken, Option.any_some, hverify, Option.isSome_some, Bool.true_and]
    at hforge
  have hnot := (not_congr (Table.all_iff _ _)).mp (ne_true_of_eq_false hforge)
  simp only [not_forall] at hnot
  obtain ⟨k, call, hk, hsession⟩ := hnot
  cases hdata : call.session with
  | none => simp [hdata] at hsession
  | some data =>
      obtain ⟨row, t, hgiven, _⟩ := hI.sessions k call data hk hdata
      have heq : data.token = token := by simpa [hdata] using hsession
      exact ⟨k, call, data, row, t, hgiven, heq, hgiven.time⟩

/-- A token check that moves was at its query, and has accepted a user it found. -/
theorem AuthCall.guard_moved {clock : Timestamp} {env : Env} {users users' : Table UUID UserRow}
    {call : AuthCall} {token : String} {decoded : UserPayload} {at_ : Timestamp} {pc : GuardPc}
    (hstep : call.step cr clock env users = some (users', .guard token decoded at_ pc)) :
    call = .guard token decoded at_ .selectUser ∧ ∀ user, pc = .returned (.ok user) →
      ∃ row, users.lookup decoded.id = some row ∧ user = ⟨decoded.id, row.email⟩ := by
  cases AuthCall.stepped hstep with
  | moved _ _ _ _ _ hguard => exact hguard token decoded at_ pc rfl

/-- One step keeps verified tokens given, unless one was forged. -/
theorem tokensGiven_step (hI : Accounts cr users₀ s) (hG : TokensGiven cr s)
    (hforge : a.forges cr s = false) (h : s.step cr isEmail a = some s') : TokensGiven cr s' := by
  have hg := grows h
  -- a request that does not move keeps its token, and its user keeps the row
  have hkept : ∀ pid token decoded at_ pc, s.calls.lookup pid = some (.guard token decoded at_ pc) →
      cr.verify token at_ = some decoded ∧ ∃ pid' call data row t,
        GivenSession cr s' pid' call data row t ∧ data.token = token ∧ t ≤ at_ := by
    intro pid token decoded at_ pc hk
    obtain ⟨hverify, pid', call, data, row, t, hgiven, hrest⟩ := hG.given pid token decoded at_ pc hk
    exact ⟨hverify, pid', call, data, row, t, hgiven.grow hg, hrest⟩
  have hpassed : ∀ pid token decoded at_ user,
      s.calls.lookup pid = some (.guard token decoded at_ (.returned (.ok user))) →
      ∃ row, s'.users.lookup decoded.id = some row ∧ user = ⟨decoded.id, row.email⟩ := by
    intro pid token decoded at_ user hk
    obtain ⟨row, hrow, huser⟩ := hG.accepted pid token decoded at_ user hk
    exact ⟨row, hg.users _ row hrow, huser⟩
  cases AuthSys.stepped h with
  | wait ms => exact ⟨hkept, hpassed⟩
  | start pid request hfree =>
      have hstarted := AuthRequest.started cr isEmail s.clock request
      constructor
      · intro k token decoded at_ pc hk
        rcases AuthSys.put_origin hk with ⟨_, heq⟩ | ⟨_, hk⟩
        · rw [← heq] at hstarted
          cases hstarted with
          | guard authHeader _ _ hrequest htoken hverify =>
              subst hrequest
              obtain ⟨pid', call, data, row, t, hgiven, hrest⟩ :=
                hI.given_of_not_forged hforge htoken hverify
              exact ⟨hverify, pid', call, data, row, t, hgiven.grow hg, hrest⟩
        · exact hkept k token decoded at_ pc hk
      · intro k token decoded at_ user hk
        rcases AuthSys.put_origin hk with ⟨_, heq⟩ | ⟨_, hk⟩
        · rw [← heq] at hstarted
          cases hstarted
        · exact hpassed k token decoded at_ user hk
  | run pid env call call' users hcall hnow hstep =>
      constructor
      · intro k token decoded at_ pc hk
        rcases AuthSys.put_origin hk with ⟨_, heq⟩ | ⟨_, hk⟩
        · obtain ⟨rfl, _⟩ := AuthCall.guard_moved (heq ▸ hstep)
          exact hkept pid token decoded at_ _ hcall
        · exact hkept k token decoded at_ pc hk
      · intro k token decoded at_ user hk
        rcases AuthSys.put_origin hk with ⟨_, heq⟩ | ⟨_, hk⟩
        · obtain ⟨row, hrow, huser⟩ := (AuthCall.guard_moved (heq ▸ hstep)).2 user rfl
          exact ⟨row, hg.users _ row hrow, huser⟩
        · exact hpassed k token decoded at_ user hk

/-! ## §3. Whole runs. -/

/-- The accounts in every run. -/
theorem accounts_run
    (h₀ : ∀ i j r q, users₀.lookup i = some r → users₀.lookup j = some q → r.email = q.email → i = j)
    (hrun : AuthRun cr isEmail (AuthSys.atRest clock users₀) tr s) : Accounts cr users₀ s :=
  hrun.invariant (G := fun _ _ => True) (fun _ _ _ hI _ hs => accounts_step hI hs)
    (fun _ _ => trivial) (accounts_atRest h₀)

/-- Verified tokens were given, in every run without forgery. -/
theorem tokensGiven_run
    (h₀ : ∀ i j r q, users₀.lookup i = some r → users₀.lookup j = some q → r.email = q.email → i = j)
    (hrun : AuthRun cr isEmail (AuthSys.atRest clock users₀) tr s)
    (hforge : ∀ x ∈ tr, x.2.forges cr x.1 = false) : Accounts cr users₀ s ∧ TokensGiven cr s :=
  hrun.invariant (I := fun s => Accounts cr users₀ s ∧ TokensGiven cr s)
    (G := fun s a => a.forges cr s = false)
    (fun _ _ _ hI hf hs => ⟨accounts_step hI.1 hs, tokensGiven_step hI.1 hI.2 hf hs⟩) hforge
    ⟨accounts_atRest h₀, tokensGiven_atRest⟩

/-- The password opens the account: it matches the hash of the row, and for an account
that was registered along the run it agrees with the password given there in the part that
bcrypt reads. -/
structure Opens {κ : Type} (cr : Credentials) (significant : String → κ) (users₀ : Table UUID UserRow)
    (s : AuthSys) (user : UserPayload) (password : String) : Prop where
  row : ∃ row, s.users.lookup user.id = some row ∧ row.email = user.email ∧
    cr.compare password row.passwordHash = true
  registered : users₀.lookup user.id = none → ∃ pid input data,
    s.calls.lookup pid = some (.register input (.returned (.session 201 data))) ∧ data.id = user.id ∧
      input.email = user.email ∧ significant password = significant input.password

/-- The token was given to a caller who stated the user's email and a password that opens the
account, and was at most `expiresIn` seconds old at the time `at_`. -/
def Authentic {κ : Type} (cr : Credentials) (significant : String → κ) (expiresIn : Int)
    (users₀ : Table UUID UserRow) (s : AuthSys) (token : String) (user : UserPayload)
    (at_ : Timestamp) : Prop :=
  ∃ pid call data t password, s.calls.lookup pid = some call ∧ call.session = some data ∧
    data.token = token ∧ token = cr.sign user t ∧ t ≤ at_ ∧ at_ / 1000 < t / 1000 + expiresIn ∧
    call.stated = some (user.email, password) ∧ Opens cr significant users₀ s user password

/-- A request let through is traced back to a password that was sent. -/
theorem Accounts.authentic (hL : cr.Lawful significant expiresIn) (hI : Accounts cr users₀ s)
    (hG : TokensGiven cr s)
    {pid : Nat} {token : String} {decoded user : UserPayload} {at_ : Timestamp}
    (hcall : s.calls.lookup pid = some (.guard token decoded at_ (.returned (.ok user)))) :
    Authentic cr significant expiresIn users₀ s token user at_ := by
  obtain ⟨row', hrow', rfl⟩ := hG.accepted pid token decoded at_ user hcall
  obtain ⟨hverify, pid', call, data, row, t, hgiven, htoken, ht⟩ :=
    hG.given pid token decoded at_ _ hcall
  have hdata := hgiven.data_eq
  have hsign : token = cr.sign ⟨data.id, row.email⟩ t := by
    rw [← htoken, hdata]
    rfl
  -- the payload of the token is the user of the session
  rw [hsign, hL.verify_sign] at hverify
  split at hverify
  · rename_i hlive
    obtain rfl := Option.some.inj hverify
    obtain rfl := Option.some.inj (hgiven.row_eq.symm.trans hrow')
    obtain ⟨_, _, hgiven', password, hstated, hknown⟩ := hI.sessions pid' call data hgiven.call_eq
      hgiven.session_eq
    have hcompare := hknown.compare hL
    obtain rfl := Option.some.inj (hgiven'.row_eq.symm.trans hgiven.row_eq)
    refine ⟨pid', call, data, t, password, hgiven.call_eq, hgiven.session_eq, htoken, hsign, ht,
      hlive, hstated,
      ⟨⟨_, hgiven.row_eq, rfl, hcompare⟩, fun hnew => ?_⟩⟩
    rcases hI.rows data.id _ hgiven.row_eq with hold | ⟨k, input, data', salt, hk, hid, hemail, hhash⟩
    · rw [show users₀.lookup data.id = none from hnew] at hold
      cases hold
    · rw [hhash] at hcompare
      exact ⟨k, input, data', hk, hid, hemail.symm, (hL.compare_hash _ _ _).mp hcompare⟩
  · cases hverify

/-- **`req.user` is authentic.**  In every run in which no token is forged, and every
interleaving of the statements of registrations, logins and requests: a request that
`authMiddleware` has let through as `user` carries a token that a registration or a login was
given; its caller stated the user's email and a password that opens the account, and
the token was at most `expiresIn` seconds old when it was verified. -/
theorem accepted_authentic (hL : cr.Lawful significant expiresIn)
    (h₀ : ∀ i j r q, users₀.lookup i = some r → users₀.lookup j = some q → r.email = q.email → i = j)
    (hrun : AuthRun cr isEmail (AuthSys.atRest clock users₀) tr s)
    (hforge : ∀ x ∈ tr, x.2.forges cr x.1 = false) (pid : Nat) {token : String}
    {decoded user : UserPayload}
    {at_ : Timestamp}
    (hcall : s.calls.lookup pid = some (.guard token decoded at_ (.returned (.ok user)))) :
    Authentic cr significant expiresIn users₀ s token user at_ := by
  obtain ⟨hI, hG⟩ := tokensGiven_run h₀ hrun hforge
  exact hI.authentic hL hG hcall

/-! ### An instance -/

/-- The text of a token that spells out its payload and its time. -/
def plainToken (user : UserPayload) (issuedAt : Timestamp) : List Char :=
  List.replicate user.id 'i' ++ (if issuedAt < 0 then '-' else '+') ::
    (List.replicate issuedAt.natAbs 't' ++ '.' :: user.email.toList)

/-- Reads such a text. -/
def readPlainToken (text : List Char) : UserPayload × Timestamp :=
  let rest := text.dropWhile (fun c => decide (c = 'i'))
  let time := rest.tail.takeWhile (fun c => decide (c = 't'))
  (⟨(text.takeWhile (fun c => decide (c = 'i'))).length,
      String.ofList (rest.tail.dropWhile (fun c => decide (c = 't'))).tail⟩,
    if rest.head? = some '-' then -(time.length : Int) else time.length)

theorem takeWhile_replicate {a b : Char} (h : b ≠ a) (n : Nat) (l : List Char) :
    (List.replicate n a ++ b :: l).takeWhile (fun c => decide (c = a)) = List.replicate n a ∧
      (List.replicate n a ++ b :: l).dropWhile (fun c => decide (c = a)) = b :: l := by
  induction n with
  | zero => simp [h]
  | succ n ih => simpa [List.replicate_succ] using ih

/-- A plain token is read as it was written. -/
theorem readPlainToken_plainToken (user : UserPayload) (issuedAt : Timestamp) :
    readPlainToken (plainToken user issuedAt) = (user, issuedAt) := by
  have hsign : (if issuedAt < 0 then '-' else '+') ≠ 'i' := by split <;> decide
  obtain ⟨htake, hdrop⟩ := takeWhile_replicate hsign user.id
    (List.replicate issuedAt.natAbs 't' ++ '.' :: user.email.toList)
  obtain ⟨htake', hdrop'⟩ := takeWhile_replicate
    (show '.' ≠ 't' by decide) issuedAt.natAbs user.email.toList
  unfold readPlainToken plainToken
  simp only [htake, hdrop, List.tail_cons, htake', hdrop', List.length_replicate, List.head?_cons,
    String.ofList_toList, Prod.mk.injEq, true_and, Option.some.injEq]
  by_cases hneg : issuedAt < 0
  · simp only [hneg, if_true]
    rw [Int.ofNat_natAbs_of_nonpos (le_of_lt hneg), neg_neg]
  · simp only [hneg, if_false, show ¬ '+' = '-' by decide]
    exact Int.natAbs_of_nonneg (not_lt.mp hneg)

/-- Libraries whose tokens and hashes spell out what they are made of; tokens last a day. -/
def Credentials.plain : Credentials where
  hash password _ := password
  compare attempt hash := decide (attempt = hash)
  sign user issuedAt := String.ofList (plainToken user issuedAt)
  verify token now :=
    let (user, issuedAt) := readPlainToken token.toList
    if token = String.ofList (plainToken user issuedAt) ∧ now / 1000 < issuedAt / 1000 + 86400 then
      some user
    else none

/-- The plain credentials behave as `jwt` and `bcrypt` do. -/
theorem Credentials.plain_lawful : Credentials.plain.Lawful id 86400 where
  compare_hash password salt attempt := by simp [plain]
  verify_sign user issuedAt now := by
    simp [plain, readPlainToken_plainToken]

/-- Somebody registers as user 9, logs in and uses the token. -/
def authActions : List AuthAction :=
  [.start 1 (.register (.object [("email", .string "a"), ("password", .string "secret")])),
    .run 1 { now := 0 }, .run 1 { now := 0 }, .run 1 { now := 0, fresh := 9 },
    .start 2 (.login (.object [("email", .string "a"), ("password", .string "secret")])),
    .run 2 { now := 0 }, .run 2 { now := 0 },
    .start 3 (.guarded (some "Bearer iiiiiiiii+.a")), .run 3 { now := 0 }]

/-- The steps under `Credentials.plain`, with every text an email. -/
abbrev AuthSys.plainStep : AuthSys → AuthAction → Option AuthSys :=
  AuthSys.step Credentials.plain (fun _ => true)

theorem noUsers_emails : ∀ i j r q, (∅ : Table UUID UserRow).lookup i = some r →
    (∅ : Table UUID UserRow).lookup j = some q → r.email = q.email → i = j := by
  intro i j r q h
  cases h

theorem accepted_authentic_login :
    Authentic Credentials.plain id 86400 ∅ (play AuthSys.plainStep (AuthSys.atRest 0 ∅) authActions)
      "iiiiiiiii+.a" ⟨9, "a"⟩ 0 :=
  accepted_authentic Credentials.plain_lawful noUsers_emails
    (run_of_play AuthSys.plainStep (AuthSys.atRest 0 ∅) authActions (by rfl)) (by decide +kernel) 3
    (by rfl)

/-- **One account for one email.**  However the statements of registrations interleave, at
most one of those for an email is answered 201, and none for the email of a user who was
there before. -/
theorem registered_once
    (h₀ : ∀ i j r q, users₀.lookup i = some r → users₀.lookup j = some q → r.email = q.email → i = j)
    (hrun : AuthRun cr isEmail (AuthSys.atRest clock users₀) tr s) (pid : Nat)
    {input : RegisterBody} {data : Session}
    (hcall : s.calls.lookup pid = some (.register input (.returned (.session 201 data)))) :
    (∀ pid' input' data',
      s.calls.lookup pid' = some (.register input' (.returned (.session 201 data'))) →
        input'.email = input.email → pid' = pid) ∧
      ∀ id row, users₀.lookup id = some row → row.email ≠ input.email := by
  have hI := accounts_run h₀ hrun
  obtain ⟨row, _, hgiven, _, hstated, _⟩ := hI.sessions pid _ data hcall rfl
  have hemail : input.email = row.email := congrArg Prod.fst (Option.some.inj hstated)
  constructor
  · intro pid' input' data' hcall' heq
    obtain ⟨row', _, hgiven', _, hstated', _⟩ := hI.sessions pid' _ data' hcall' rfl
    have hemail' : input'.email = row'.email := congrArg Prod.fst (Option.some.inj hstated')
    exact hI.once pid' pid input' input data' data hcall' hcall
      (hI.emails _ _ _ _ hgiven'.row_eq hgiven.row_eq (hemail'.symm.trans (heq.trans hemail)))
  · intro id old hold heq
    have hid : id = data.id := hI.emails _ _ _ _ (hI.kept id old hold) hgiven.row_eq (heq.trans hemail)
    have hnone := hI.fresh pid input data hcall
    rw [← hid, hold] at hnone
    cases hnone

/-- Two registrations of one email, each statement of the second right after that of the first. -/
def raceActions : List AuthAction :=
  [.start 1 (.register (.object [("email", .string "a"), ("password", .string "secret")])),
    .start 2 (.register (.object [("email", .string "a"), ("password", .string "another")])),
    .run 1 { now := 0 }, .run 2 { now := 0 }, .run 1 { now := 0 }, .run 2 { now := 0 },
    .run 1 { now := 0, fresh := 8 }, .run 2 { now := 0, fresh := 9 }]

theorem registered_once_race :
    ∃ s input data, s = play AuthSys.plainStep (AuthSys.atRest 0 ∅) raceActions ∧
      s.calls.lookup 1 = some (.register input (.returned (.session 201 data))) ∧
      ∀ pid input' data',
        s.calls.lookup pid = some (.register input' (.returned (.session 201 data'))) →
        input'.email = input.email → pid = 1 := by
  have hrun := run_of_play AuthSys.plainStep (AuthSys.atRest 0 ∅) raceActions (by rfl)
  exact ⟨_, _, _, rfl, rfl,
    (registered_once noUsers_emails hrun 1 rfl).1⟩

/-! ## §4. Logging in. -/

/-- What a login has found, when `known` were the users at its start. -/
def LoginSound (cr : Credentials) (known users : Table UUID UserRow) (input : LoginBody) :
    LoginPc → Prop
  | .selectUser => True
  | .comparing id row => users.lookup id = some row ∧ row.email = input.email
  | .returned reply =>
      (∃ id row t, users.lookup id = some row ∧ row.email = input.email ∧
        cr.compare input.password row.passwordHash = true ∧
          reply = .session 200 (Session.of cr t id row)) ∨
      (reply = .failure invalidCredentials ∧ ∀ id row, known.lookup id = some row →
        row.email = input.email → cr.compare input.password row.passwordHash = false)

/-- What a login has found stays true as users are added. -/
theorem LoginSound.grow {known users users' : Table UUID UserRow} {input : LoginBody} {pc : LoginPc}
    (h : LoginSound cr known users input pc)
    (hg : ∀ id row, users.lookup id = some row → users'.lookup id = some row) :
    LoginSound cr known users' input pc := by
  cases pc with
  | selectUser => exact trivial
  | comparing id row => exact ⟨hg id row h.1, h.2⟩
  | returned reply =>
      refine h.imp_left ?_
      rintro ⟨id, row, t, hrow, hrest⟩
      exact ⟨id, row, t, hg id row hrow, hrest⟩

end

end JobScheduler
