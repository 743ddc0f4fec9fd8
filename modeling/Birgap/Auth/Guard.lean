import Birgap.Auth.Revocation
import Birgap.Moderation.Agreement

/-!
# The guard's suspension check and the one at login

`JwtAuthGuard.canActivate` reads the flag on the user; `throwIfSuspended`, which stands
before every issue of tokens, evaluates the suspension rows against the clock. The
reactivation job reconciles the two once a day. In every state of every sequential run the
flag and the unrevoked rows agree, so the checks part exactly where an unrevoked row has
already expired.
-/
namespace Birgap.Auth.Guard

set_option autoImplicit false

open Birgap.Common Birgap.Lib Birgap.Lib.Run Birgap.Moderation Birgap.Moderation.Agreement

structure AccessTokenPayload where
  sub : Id
  sid : Id

/-- The token of an `Authorization` header that starts with `Bearer `. -/
def bearerToken (authorization : Option String) : Option String :=
  authorization.bind fun header =>
    if "Bearer ".toList.isPrefixOf header.toList then
      some (String.ofList (header.toList.drop "Bearer ".toList.length))
    else none

/-- The rejection of a suspended user, with what the guard knows of the suspension. -/
def accountSuspended (env : AuthEnv) (now : Time) (suspension : Option UserSuspension) : Err :=
  .accountSuspended ((suspension.map (·.reason)).getD "No reason provided")
    ((suspension.map (·.suspendedAt)).getD now) (suspension.bind (·.expiresAt))
    env.suspensionAppealUrl

/-- `JwtAuthGuard.canActivate`; `verifyAsync` is the verification of a signed token. -/
def canActivate (env : AuthEnv) (verifyAsync : String → Option AccessTokenPayload) (now : Time)
    (authorization : Option String) (db : Db) : Except Err AuthenticatedUser :=
  match bearerToken authorization with
  | none => .error (.unauthorized "Missing bearer token")
  | some token =>
      match verifyAsync token with
      | none => .error (.unauthorized "Invalid bearer token")
      | some payload =>
          match db.refreshTokens.find? (·.id == payload.sid) with
          | none => .error (.unauthorized "Session is no longer active")
          | some session =>
              match findUser session.userId db with
              -- the foreign key of the session rules this out
              | none => .error (.failure "Field user is required to return data, got `null` instead.")
              | some user =>
                  if session.userId ≠ payload.sub ∨ session.revokedAt.isSome ∨
                      session.expiresAt ≤ now then
                    .error (.unauthorized "Session is no longer active")
                  else if user.status = .suspended then
                    .error (accountSuspended env now (findActive session.userId db))
                  else .ok ⟨payload.sub, payload.sid, user.role⟩

/-! ## Sequential runs -/

/-- A call of the session operations or of the moderators, or a run of the reactivation
job, some of whose transactions fail. -/
inductive Op where
  | call (op : Auth.Op)
  | reactivateExpired (fails : Id → Bool)

structure TimedOp where
  now : Time
  op : Op

def step (env : AuthEnv) (db : Db) (o : TimedOp) : Db :=
  match o.op with
  | .call op => Auth.step env db ⟨o.now, op⟩
  | .reactivateExpired fails => (runReactivation o.now fails db).2

/-- What every call run alone keeps of the users and their suspensions. -/
structure Sound (db : Db) : Prop where
  userKeys : Rows.Unique (·.id) db.users
  suspensionKeys : Rows.Unique (·.id) db.userSuspensions
  owner : ∀ x ∈ db.userSuspensions, ∃ u ∈ db.users, u.id = x.userId
  agree : Agree db

theorem NoSuspensions.sound {db : Db} (h : NoSuspensions db) : Sound db where
  userKeys := h.keys
  suspensionKeys := by simp [h.rows, Rows.Unique]
  owner := by simp [h.rows]
  agree := start_agree h

theorem Sound.carry {db db' : Db} (h : Sound db) (hc : Carries db db') (ha : Agree db') :
    Sound db' :=
  ⟨hc.userKeys h.userKeys, hc.suspensionKeys h.suspensionKeys, hc.owner h.owner, ha⟩

/-- The two tables the checks read are untouched. -/
def SameAccounts (db db' : Db) : Prop :=
  db'.users = db.users ∧ db'.userSuspensions = db.userSuspensions

theorem Sound.same {db db' : Db} (h : Sound db) (he : SameAccounts db db') : Sound db' := by
  obtain ⟨hu, hs⟩ := he
  constructor
  · rw [hu]; exact h.userKeys
  · rw [hs]; exact h.suspensionKeys
  · rw [hu, hs]; exact h.owner
  · constructor
    · rw [hu, hs]; exact h.agree.flag
    · rw [hs]; exact h.agree.single

theorem issueUnlessSuspended_same (env : AuthEnv) (now : Time) (userId : Id) (sm : SessionMeta)
    (d : Draws) (familyId : Option String) (db : Db) :
    SameAccounts db (issueUnlessSuspended env now userId sm d familyId db).2 := by
  unfold issueUnlessSuspended
  split
  · exact ⟨rfl, rfl⟩
  · unfold issueTokenPair
    split <;> exact ⟨rfl, rfl⟩

theorem refresh_same (env : AuthEnv) (now : Time) (t : String) (sm : SessionMeta) (d : Draws)
    (db : Db) : SameAccounts db (refresh env now t sm d db).2 := by
  unfold refresh
  dsimp only
  split
  · split
    · exact ⟨rfl, rfl⟩
    · split
      · exact ⟨rfl, rfl⟩
      · split
        · exact ⟨rfl, rfl⟩
        · split
          · exact issueUnlessSuspended_same env now _ sm d _ _
          · unfold revokeTokenFamily
            split <;> exact ⟨rfl, rfl⟩
  · split
    · exact ⟨rfl, rfl⟩
    · exact issueUnlessSuspended_same env now _ sm d _ _

theorem logout_same (env : AuthEnv) (now : Time) (user : AuthenticatedUser) (t : Option String)
    (deviceId : Option Id) (db : Db) : SameAccounts db (logout env now user t deviceId db) := by
  unfold logout
  dsimp only
  split <;> split <;> exact ⟨rfl, rfl⟩

/-- A login finds the user, moves a legacy hash, or adds an active user under a new id. -/
theorem findOrCreateUser_sound (env : AuthEnv) (phone phoneHash : String) (d : Draws) {db : Db}
    (h : Sound db) : Sound (findOrCreateUser env phone phoneHash d db).2 := by
  unfold findOrCreateUser
  split
  · exact h
  · split
    · rename_i legacy _
      refine ⟨?_, h.suspensionKeys, ?_, ?_⟩
      · apply Rows.unique_updateMany _ h.userKeys
        intro u
        rfl
      · intro x hx
        exact owner_updateUser legacy.id (fun u => { u with phoneHash }) (fun _ => rfl)
          (h.owner x hx)
      · refine ⟨?_, h.agree.single⟩
        intro u' hu'
        obtain ⟨u, hu, rfl⟩ := Rows.mem_updateMany.mp hu'
        split <;> exact h.agree.flag u hu
    · split
      · exact h
      · rename_i hfresh
        have hnew : ∀ u ∈ db.users, u.id ≠ d.userId := by
          intro u hu he
          exact hfresh (List.any_eq_true.mpr ⟨u, hu, by simp [he]⟩)
        refine ⟨Rows.unique_append h.userKeys hnew, h.suspensionKeys, ?_, ?_⟩
        · intro x hx
          obtain ⟨u, hu, he⟩ := h.owner x hx
          exact ⟨u, List.mem_append_left _ hu, he⟩
        · refine ⟨?_, h.agree.single⟩
          intro u hu
          rcases List.mem_append.mp hu with hu | hu
          · exact h.agree.flag u hu
          · rw [List.mem_singleton.mp hu]
            -- a stored suspension has a stored owner, and the new id is nobody's
            refine ⟨fun hs => UserStatus.noConfusion hs, ?_⟩
            rintro ⟨x, hx, hxu, _⟩
            obtain ⟨v, hv, hve⟩ := h.owner x hx
            exact absurd (hve.trans hxu) (hnew v hv)

theorem verifyOtp_sound (env : AuthEnv) (now : Time) (phone code : String) (sm : SessionMeta)
    (d : Draws) {db : Db} (h : Sound db) : Sound (verifyOtp env now phone code sm d db).2 := by
  have hotp : Sound (otpVerify env now (normalizePhone phone) code db).2 := by
    obtain ⟨otps, he⟩ := otpVerify_frame env now (normalizePhone phone) code db
    rw [he]
    exact h.same ⟨rfl, rfl⟩
  unfold verifyOtp
  dsimp only
  split
  · rename_i hv
    rw [hv] at hotp
    exact hotp
  · rename_i db₁ hv
    rw [hv] at hotp
    have hu := findOrCreateUser_sound env (normalizePhone phone)
      (env.hmacSha256 (normalizePhone phone) env.phoneHashPepper) d hotp
    split
    · rename_i hf
      rw [hf] at hu
      exact hu
    · rename_i hf
      rw [hf] at hu
      exact hu.same (issueUnlessSuspended_same env now _ sm d none _)

/-! ## The moderators and the reactivation job -/

/-- The check of a suspension that runs alone still holds in its transaction. -/
theorem suspendCheck_active {now : Time} {actor target : Id} {role : UserRole}
    {dto : SuspendUserDto} {db : Db} (hk : Rows.Unique (·.id) db.users)
    (h : suspendCheck now actor role target dto db = .ok ()) :
    ∀ u ∈ db.users, u.id = target → u.status ≠ .suspended := by
  unfold suspendCheck at h
  split at h
  · cases h
  · split at h
    · cases h
    · split at h
      · cases h
      · rename_i v hf
        obtain ⟨hv, hve⟩ := findUser_some hf
        split at h
        · cases h
        · split at h
          · cases h
          · rename_i hact
            intro u hu hue
            rw [hk.eq hu hv (hue.trans hve.symm)]
            exact hact

theorem suspendUser_sound (now : Time) (sid actor : Id) (role : UserRole) (target : Id)
    (dto : SuspendUserDto) {db : Db} (h : Sound db) :
    Sound (suspendUser now sid actor role target dto db).2 := by
  unfold suspendUser
  split
  · exact h
  · rename_i hcheck
    split
    · exact h
    · rename_i htx
      exact h.carry (suspendTx_carries htx)
        ((suspend_agree_iff htx h.agree).mpr (suspendCheck_active h.userKeys hcheck))

/-- Lifting a suspension that is stored as unrevoked keeps the tables sound. -/
theorem Sound.lift {db : Db} (h : Sound db) (at_ : Time) (by_ : Option Id) (reason : Option String)
    {x : UserSuspension} (hx : x ∈ db.userSuspensions) (hrev : x.revokedAt = none)
    (row : AdminAuditLog) :
    Sound (auditWrite row (liftSuspension at_ by_ reason x.id x.userId db)) := by
  have hc := lift_carries at_ by_ reason x.id x.userId db
  have ha := (lift_agree_iff at_ by_ reason x.id x.userId db h.suspensionKeys h.owner
    ⟨x, hx, rfl, rfl⟩ h.agree).mpr (Or.inl ⟨x, hx, rfl, hrev⟩)
  exact h.carry (hc.auditWrite row) ((agree_auditWrite row _).mpr ha)

theorem findActive_unrevoked {target : Id} {db : Db} {x : UserSuspension}
    (h : findActive target db = some x) : x.revokedAt = none := by
  have hm := List.mem_filter.mp (Rows.newest_mem h)
  simpa using (Bool.and_eq_true_iff.mp hm.2).2

theorem unsuspendUser_sound (now : Time) (actor : Id) (role : UserRole) (target : Id)
    (reason : Option String) {db : Db} (h : Sound db) :
    Sound (unsuspendUser now actor role target reason db).2 := by
  unfold unsuspendUser
  split
  · exact h
  · split
    · exact h
    · rename_i x hx
      obtain ⟨hm, rfl⟩ := findActive_known hx
      exact h.lift now (some actor) reason hm (findActive_unrevoked hx) _

/-- The loop of the reactivation job: the suspensions still to come are stored as unrevoked
and differ in their ids, so lifting one leaves the others as they are. -/
theorem reactivations_sound (now : Time) (fails : Id → Bool) (rest : List UserSuspension) :
    ∀ (n : Nat) (db : Db), Sound db → Rows.Unique (·.id) rest →
      (∀ x ∈ rest, x ∈ db.userSuspensions ∧ x.revokedAt = none) →
      Sound (rest.foldl (fun (acc : Nat × Db) suspension =>
        if fails suspension.id then acc
        else (acc.1 + 1, reactivateOne suspension.id suspension.userId
          (suspension.expiresAt.getD now) now acc.2)) (n, db)).2 := by
  induction rest with
  | nil => intro n db h _ _; exact h
  | cons x rest ih =>
      intro n db h hk hrest
      obtain ⟨hxnew, hk⟩ := List.nodup_cons.mp hk
      obtain ⟨hx, hrev⟩ := hrest x List.mem_cons_self
      rw [List.foldl_cons]
      split
      · exact ih n db h hk fun y hy => hrest y (List.mem_cons_of_mem _ hy)
      · apply ih
        · exact h.lift now none (some "auto: expired") hx hrev _
        · exact hk
        · intro y hy
          obtain ⟨hym, hyrev⟩ := hrest y (List.mem_cons_of_mem _ hy)
          have hne : y.id ≠ x.id := fun he => hxnew (List.mem_map.mpr ⟨y, hy, he⟩)
          exact (unrevoked_after_lift now none (some "auto: expired") x.id x.userId db y).mpr
            ⟨hym, hyrev, hne⟩

theorem runReactivation_sound (now : Time) (fails : Id → Bool) {db : Db} (h : Sound db) :
    Sound (runReactivation now fails db).2 := by
  apply reactivations_sound now fails _ 0 db h (h.suspensionKeys.filter _)
  intro x hx
  obtain ⟨hm, hp⟩ := List.mem_filter.mp hx
  exact ⟨hm, by simpa using (Bool.and_eq_true_iff.mp hp).1⟩

theorem step_sound (env : AuthEnv) (db : Db) (o : TimedOp) (h : Sound db) :
    Sound (step env db o) := by
  obtain ⟨now, op⟩ := o
  cases op with
  | reactivateExpired fails => exact runReactivation_sound now fails h
  | call op =>
      cases op with
      | verifyOtp phone code sm d => exact verifyOtp_sound env now phone code sm d h
      | refresh t sm d => exact h.same (refresh_same env now t sm d db)
      | logout user t dev => exact h.same (logout_same env now user t dev db)
      | suspendUser sid actor role target dto =>
          exact suspendUser_sound now sid actor role target dto h
      | unsuspendUser actor role target reason =>
          exact unsuspendUser_sound now actor role target reason h
      | prune reports metrics => exact h.same ⟨rfl, rfl⟩

theorem run_sound (env : AuthEnv) (ops : List TimedOp) (db : Db) (h : Sound db) :
    Sound (run (step env) db ops) :=
  run_invariant (fun db o h => step_sound env db o h) ops db h

/-! ## When the two checks agree -/

/-- The answer is the one for a suspended account. -/
def RefusedAsSuspended {α : Type} (answer : Except Err α) : Prop :=
  ∃ reason suspendedAt expiresAt appealUrl,
    answer = .error (.accountSuspended reason suspendedAt expiresAt appealUrl)

/-- The request carries a token for the session, and the session is stored, unrevoked and
unexpired. -/
structure SessionValid (verifyAsync : String → Option AccessTokenPayload) (now : Time)
    (authorization : Option String) (session : RefreshToken) (tokens : List RefreshToken) :
    Prop where
  keys : Rows.Unique (·.id) tokens
  stored : session ∈ tokens
  unrevoked : session.revokedAt = none
  unexpired : now < session.expiresAt
  signed : ∃ token, bearerToken authorization = some token ∧
    verifyAsync token = some ⟨session.userId, session.id⟩

/-- No unrevoked suspension of the user has run out. -/
def NoneExpired (now : Time) (userId : Id) (db : Db) : Prop :=
  ∀ x ∈ db.userSuspensions, x.userId = userId → x.revokedAt = none →
    ∀ e, x.expiresAt = some e → now < e

theorem throwIfSuspended_refused (env : AuthEnv) (now : Time) (userId : Id) (db : Db) :
    RefusedAsSuspended (throwIfSuspended env now userId db) ↔
      ∃ x ∈ db.userSuspensions, x.userId = userId ∧ x.revokedAt = none ∧
        ∀ e, x.expiresAt = some e → now < e := by
  have hrows : ∀ x, x ∈ db.userSuspensions.filter (fun s =>
      s.userId == userId && s.revokedAt.isNone && s.expiresAt.all (now < ·)) ↔
      x ∈ db.userSuspensions ∧ x.userId = userId ∧ x.revokedAt = none ∧
        ∀ e, x.expiresAt = some e → now < e := by
    intro x
    rw [List.mem_filter]
    simp only [Bool.and_eq_true, beq_iff_eq, Option.isNone_iff_eq_none, Option.all_eq_true,
      decide_eq_true_eq, and_assoc]
  unfold throwIfSuspended
  cases hs : activeSuspension now userId db with
  | none =>
      constructor
      · rintro ⟨_, _, _, _, he⟩
        cases he
      · rintro ⟨x, hx, hrest⟩
        have hm := (hrows x).mpr ⟨hx, hrest⟩
        rw [Rows.newest_eq_none hs] at hm
        cases hm
  | some x =>
      obtain ⟨hx, hrest⟩ := (hrows x).mp (Rows.newest_mem hs)
      exact ⟨fun _ => ⟨x, hx, hrest⟩, fun _ => ⟨_, _, _, _, rfl⟩⟩

/-- Before an otherwise valid session the guard asks for the flag alone. -/
theorem canActivate_refused (env : AuthEnv) {verifyAsync : String → Option AccessTokenPayload}
    {now : Time} {authorization : Option String} {session : RefreshToken} {db : Db} {u : User}
    (hv : SessionValid verifyAsync now authorization session db.refreshTokens)
    (hk : Rows.Unique (·.id) db.users) (hu : u ∈ db.users) (hown : session.userId = u.id) :
    RefusedAsSuspended (canActivate env verifyAsync now authorization db) ↔
      u.status = .suspended := by
  obtain ⟨token, hb, hsigned⟩ := hv.signed
  have hsession : db.refreshTokens.find? (·.id == session.id) = some session :=
    hv.keys.find?_eq hv.stored
  have huser : findUser session.userId db = some u := by
    rw [hown]
    exact hk.find?_eq hu
  have hlive : ¬ session.expiresAt ≤ now := Int.not_le.mpr hv.unexpired
  unfold canActivate
  simp only [hb, hsigned, hsession, huser, hv.unrevoked, hlive, ne_eq, not_true_eq_false,
    Option.isSome_none, Bool.false_eq_true, or_self, ↓reduceIte]
  by_cases hs : u.status = .suspended
  · rw [if_pos hs]
    exact ⟨fun _ => hs, fun _ => ⟨_, _, _, _, rfl⟩⟩
  · rw [if_neg hs]
    refine ⟨?_, fun h => absurd h hs⟩
    rintro ⟨_, _, _, _, he⟩
    cases he

/-- In every state of every sequential run and at every time, the check at login and the
guard's check of an otherwise valid session refuse the same users exactly when no unrevoked
suspension of the user has run out. The session may be any: the token table is arbitrary. -/
theorem suspension_checks_agree_iff (env : AuthEnv)
    (verifyAsync : String → Option AccessTokenPayload) (db₀ : Db) (h₀ : NoSuspensions db₀)
    (ops : List TimedOp) (now : Time) (u : User) (hu : u ∈ (run (step env) db₀ ops).users)
    (authorization : Option String) (session : RefreshToken) (tokens : List RefreshToken)
    (hv : SessionValid verifyAsync now authorization session tokens)
    (hown : session.userId = u.id) :
    (RefusedAsSuspended (throwIfSuspended env now u.id (run (step env) db₀ ops)) ↔
      RefusedAsSuspended (canActivate env verifyAsync now authorization
        { run (step env) db₀ ops with refreshTokens := tokens })) ↔
      NoneExpired now u.id (run (step env) db₀ ops) := by
  have hsound := run_sound env ops db₀ (NoSuspensions.sound h₀)
  generalize run (step env) db₀ ops = db at hu hsound ⊢
  have hguard : RefusedAsSuspended (canActivate env verifyAsync now authorization
      { db with refreshTokens := tokens }) ↔ u.status = .suspended :=
    canActivate_refused env hv hsound.userKeys hu hown
  rw [throwIfSuspended_refused, hguard, hsound.agree.flag u hu]
  constructor
  · intro hiff x hx hxu hxrev
    obtain ⟨y, hy, hyu, hyrev, hylive⟩ := hiff.mpr ⟨x, hx, hxu, hxrev⟩
    rw [hsound.agree.single x hx y hy hxrev hyrev (hxu.trans hyu.symm)]
    exact hylive
  · intro hnone
    constructor
    · rintro ⟨x, hx, hxu, hxrev, _⟩
      exact ⟨x, hx, hxu, hxrev⟩
    · rintro ⟨x, hx, hxu, hxrev⟩
      exact ⟨x, hx, hxu, hxrev, hnone x hx hxu hxrev⟩

/-- An admin, and a user who holds an unused login code. -/
def sampleDb : Db :=
  { users := [{ id := "admin", phoneHash := "h1", role := .admin },
              { id := "mallory", phoneHash := "hmac::+998901112233" }]
    otps := [{ id := "o1", phoneHash := "hmac::+998901112233", code := "111111"
               expiresAt := 300000, createdAt := 0 }] }

theorem sampleDb_noSuspensions : NoSuspensions sampleDb := ⟨by decide, rfl, by decide⟩

/-- The one signed token there is. -/
def sampleVerify (token : String) : Option AccessTokenPayload :=
  if token = "jwt" then some ⟨"mallory", "s2"⟩ else none

/-- Suspended for four seconds, and a login one second after the suspension ran out. -/
def loginInTheGap : List TimedOp :=
  [⟨1000, .call (.suspendUser "x1" "admin" .admin "mallory" { expiresAt := some 5000 })⟩,
   ⟨6000, .call (.verifyOtp "+998901112233" "111111" {} sampleDraws)⟩]

/-- The session the login opens. -/
def gapSession : RefreshToken :=
  { id := "s2", userId := "mallory", tokenHash := "sha256:refresh-token-of-alice-2"
    familyId := "f2", expiresAt := 2592006000, createdAt := 6000 }

/-- The login succeeds, and the guard refuses the session it opened: the reactivation job
has not run yet. -/
theorem login_in_the_gap_refused :
    ¬ ∀ (env : AuthEnv) (verifyAsync : String → Option AccessTokenPayload) (db₀ : Db),
      NoSuspensions db₀ → ∀ (ops : List TimedOp) (now : Time),
      ∀ u ∈ (run (step env) db₀ ops).users, ∀ (authorization : Option String)
        (session : RefreshToken),
      SessionValid verifyAsync now authorization session (run (step env) db₀ ops).refreshTokens →
      session.userId = u.id →
      (RefusedAsSuspended (throwIfSuspended env now u.id (run (step env) db₀ ops)) ↔
        RefusedAsSuspended (canActivate env verifyAsync now authorization
          (run (step env) db₀ ops))) := by
  intro h
  have hvalid : SessionValid sampleVerify 7000 (some "Bearer jwt") gapSession
      (run (step sampleEnv) sampleDb loginInTheGap).refreshTokens :=
    ⟨by decide, by decide, rfl, by decide, "jwt", by decide, rfl⟩
  have hiff := h sampleEnv sampleVerify sampleDb sampleDb_noSuspensions loginInTheGap 7000
    { id := "mallory", phoneHash := "hmac::+998901112233", status := .suspended
      strikeCount := 1, lastStrikeAt := some 1000 } (by decide) (some "Bearer jwt") gapSession
    hvalid rfl
  have hguard : canActivate sampleEnv sampleVerify 7000 (some "Bearer jwt")
      (run (step sampleEnv) sampleDb loginInTheGap) =
      .error (.accountSuspended "No reason provided" 1000 (some 5000) none) := by rfl
  have hlogin : throwIfSuspended sampleEnv 7000 "mallory"
      (run (step sampleEnv) sampleDb loginInTheGap) = .ok () := by rfl
  obtain ⟨_, _, _, _, he⟩ := hiff.mpr ⟨_, _, _, _, hguard⟩
  rw [hlogin] at he
  cases he

/-- The same suspension, the reactivation job after it ran out, and the login after that. -/
def loginAfterReactivation : List TimedOp :=
  [⟨1000, .call (.suspendUser "x1" "admin" .admin "mallory" { expiresAt := some 5000 })⟩,
   ⟨5500, .reactivateExpired fun _ => false⟩,
   ⟨6000, .call (.verifyOtp "+998901112233" "111111" {} sampleDraws)⟩]

theorem login_after_reactivation_agrees :
    SessionValid sampleVerify 7000 (some "Bearer jwt") gapSession
      (run (step sampleEnv) sampleDb loginAfterReactivation).refreshTokens ∧
    (RefusedAsSuspended (throwIfSuspended sampleEnv 7000 "mallory"
        (run (step sampleEnv) sampleDb loginAfterReactivation)) ↔
      RefusedAsSuspended (canActivate sampleEnv sampleVerify 7000 (some "Bearer jwt")
        (run (step sampleEnv) sampleDb loginAfterReactivation))) := by
  have hvalid : SessionValid sampleVerify 7000 (some "Bearer jwt") gapSession
      (run (step sampleEnv) sampleDb loginAfterReactivation).refreshTokens :=
    ⟨by decide, by decide, rfl, by decide, "jwt", by decide, rfl⟩
  refine ⟨hvalid, (suspension_checks_agree_iff sampleEnv sampleVerify sampleDb
    sampleDb_noSuspensions loginAfterReactivation 7000
    { id := "mallory", phoneHash := "hmac::+998901112233", strikeCount := 1
      lastStrikeAt := some 1000 } (by decide) (some "Bearer jwt") gapSession _ hvalid rfl).mpr ?_⟩
  intro x hx _ hrev
  have hall : ∀ x ∈ (run (step sampleEnv) sampleDb loginAfterReactivation).userSuspensions,
      x.revokedAt ≠ none := by decide
  exact absurd hrev (hall x hx)

end Birgap.Auth.Guard
