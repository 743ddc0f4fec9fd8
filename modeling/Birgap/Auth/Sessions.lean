import Birgap.Auth.Service
import Birgap.Lib.Run

/-!
# Runs of the session operations and what they do to the token table

A run is a list of timed calls, each executed alone. Every call other than a prune
treats the token table in one way: it keeps each row, stamps `revokedAt` on some of
the unrevoked ones, and appends at most one row. `TokenEffect` says this once for
each function, so that later arguments never unfold the calls again.
-/
namespace Birgap.Auth

set_option autoImplicit false

open Birgap.Common Birgap.Lib Birgap.Moderation

inductive Op where
  | verifyOtp (phone code : String) (sm : SessionMeta) (d : Draws)
  | refresh (refreshToken : String) (sm : SessionMeta) (d : Draws)
  | logout (user : AuthenticatedUser) (refreshToken : Option String) (deviceId : Option Id)
  | suspendUser (suspensionId actorUserId : Id) (actorRole : UserRole) (targetUserId : Id)
      (dto : SuspendUserDto)
  | unsuspendUser (actorUserId : Id) (actorRole : UserRole) (targetUserId : Id)
      (reason : Option String)
  | prune (reportRetentionDays metricsRetentionDays : Int)

structure TimedOp where
  now : Time
  op : Op

def step (env : AuthEnv) (db : Db) (o : TimedOp) : Db :=
  match o.op with
  | .verifyOtp phone code sm d => (verifyOtp env o.now phone code sm d db).2
  | .refresh t sm d => (refresh env o.now t sm d db).2
  | .logout user t dev => logout env o.now user t dev db
  | .suspendUser sid actor role target dto => (suspendUser o.now sid actor role target dto db).2
  | .unsuspendUser actor role target reason => (unsuspendUser o.now actor role target reason db).2
  | .prune reports metrics => prune o.now reports metrics db

abbrev TokenKeys (db : Db) : Prop := Rows.Unique (·.tokenHash) db.refreshTokens

theorem findToken_some {db : Db} {h : String} {r : RefreshToken} (hf : findToken h db = some r) :
    r ∈ db.refreshTokens ∧ r.tokenHash = h :=
  ⟨List.mem_of_find?_eq_some hf, by simpa using List.find?_some hf⟩

/-- A revocation that meets no unrevoked row is the identity. -/
theorem revokeWhere_eq_self {p : RefreshToken → Bool} {now : Time} {db : Db}
    (h : ∀ r ∈ db.refreshTokens, (p r && r.revokedAt.isNone) = false) :
    revokeWhere p now db = db := by
  unfold revokeWhere
  rw [Rows.updateMany_eq_self h]

theorem findToken_none {db : Db} {tokenHash : String} :
    findToken tokenHash db = none ↔ ∀ r ∈ db.refreshTokens, r.tokenHash ≠ tokenHash := by
  unfold findToken
  rw [List.find?_eq_none]
  simp

/-- What a refresh does with the row of the presented token. -/
def refreshRow (env : AuthEnv) (now : Time) (tokenHash : String) (sm : SessionMeta) (d : Draws)
    (row : Option RefreshToken) (db : Db) : Except Err TokenPair × Db :=
  match row with
  | none => (.error invalidToken, db)
  | some r =>
      match r.revokedAt with
      | none =>
          issueUnlessSuspended env now r.userId sm d (some r.familyId)
            (revokeWhere (·.tokenHash == tokenHash) now db)
      | some revokedAt =>
          if r.expiresAt ≤ now then (.error invalidToken, db)
          else if now - revokedAt ≤ graceMs env then
            issueUnlessSuspended env now r.userId sm d (some r.familyId) db
          else (.error reusedToken, revokeWhere (·.familyId == r.familyId) now db)

/-- When no row has the hash and is unrevoked, the rotation changes nothing and the row found
decides. -/
theorem refresh_unrotated (env : AuthEnv) (now : Time) (t : String) (sm : SessionMeta) (d : Draws)
    (db : Db) (h : ∀ r ∈ db.refreshTokens,
      (r.tokenHash == env.sha256 t && r.revokedAt.isNone) = false) :
    refresh env now t sm d db =
      refreshRow env now (env.sha256 t) sm d (findToken (env.sha256 t) db) db := by
  have hself : revokeWhere (·.tokenHash == env.sha256 t) now db = db := revokeWhere_eq_self h
  have hcount : (db.refreshTokens.filter fun r =>
      r.tokenHash == env.sha256 t && r.revokedAt.isNone) = [] := by
    apply List.filter_eq_nil_iff.mpr
    intro r hr
    rw [h r hr]
    exact Bool.false_ne_true
  unfold refresh refreshRow
  simp only [hself, hcount, List.length_nil, ↓reduceIte]
  cases hf : findToken (env.sha256 t) db with
  | none => rfl
  | some r =>
      obtain ⟨hr, hh⟩ := findToken_some hf
      have hrev := h r hr
      cases hat : r.revokedAt with
      | none => simp [hh, hat] at hrev
      | some revokedAt => simp only [revokeTokenFamily, hf, hat]

theorem refresh_rotated (env : AuthEnv) (now : Time) (t : String) (sm : SessionMeta) (d : Draws)
    {db : Db} {r : RefreshToken} (hf : findToken (env.sha256 t) db = some r)
    (hrev : r.revokedAt = none) :
    refresh env now t sm d db = issueUnlessSuspended env now r.userId sm d (some r.familyId)
      (revokeWhere (·.tokenHash == env.sha256 t) now db) := by
  obtain ⟨hr, hh⟩ := findToken_some hf
  have hcount : (db.refreshTokens.filter fun a =>
      a.tokenHash == env.sha256 t && a.revokedAt.isNone).length ≠ 0 := by
    apply Nat.ne_of_gt
    apply List.length_pos_of_mem (a := r)
    simp [hr, hh, hrev]
  have hstamped : findToken (env.sha256 t) (revokeWhere (·.tokenHash == env.sha256 t) now db) =
      some { r with revokedAt := some now } := by
    unfold findToken at hf ⊢
    rw [revokeWhere, Rows.find?_updateMany (by intro a; rfl), hf]
    simp [hh, hrev]
  simp only [refresh, hcount, hstamped, ↓reduceIte]

/-- The row of the presented token decides a refresh. -/
theorem refresh_eq (env : AuthEnv) (now : Time) (t : String) (sm : SessionMeta) (d : Draws) (db : Db)
    (hk : TokenKeys db) :
    refresh env now t sm d db =
      refreshRow env now (env.sha256 t) sm d (findToken (env.sha256 t) db) db := by
  cases hf : findToken (env.sha256 t) db with
  | none =>
      rw [← hf]
      apply refresh_unrotated
      intro r hr
      simp [findToken_none.mp hf r hr]
  | some r =>
      obtain ⟨hr, hh⟩ := findToken_some hf
      cases hrev : r.revokedAt with
      | none =>
          rw [refresh_rotated env now t sm d hf hrev]
          simp only [refreshRow, hrev]
      | some revokedAt =>
          rw [← hf]
          apply refresh_unrotated
          intro a ha
          by_cases he : a.tokenHash = env.sha256 t
          · rw [hk.eq ha hr (he.trans hh.symm), hrev]
            simp
          · simp [he]

/-- What one refresh does, by the state of the presented token: unknown, unrevoked,
or already revoked and then expired, inside the grace window, or reused. -/
theorem refresh_cases (env : AuthEnv) (now : Time) (t : String) (sm : SessionMeta) (d : Draws)
    (db : Db) (hk : TokenKeys db) :
    ((∀ r ∈ db.refreshTokens, r.tokenHash ≠ env.sha256 t) ∧
      refresh env now t sm d db = (.error invalidToken, db)) ∨
    (∃ r ∈ db.refreshTokens, r.tokenHash = env.sha256 t ∧ r.revokedAt = none ∧
      refresh env now t sm d db = issueUnlessSuspended env now r.userId sm d (some r.familyId)
        (revokeWhere (·.tokenHash == env.sha256 t) now db)) ∨
    (∃ r ∈ db.refreshTokens, r.tokenHash = env.sha256 t ∧ ∃ at_, r.revokedAt = some at_ ∧
      ((r.expiresAt ≤ now ∧ refresh env now t sm d db = (.error invalidToken, db)) ∨
       (now < r.expiresAt ∧ now - at_ ≤ graceMs env ∧ refresh env now t sm d db =
          issueUnlessSuspended env now r.userId sm d (some r.familyId) db) ∨
       (now < r.expiresAt ∧ graceMs env < now - at_ ∧ refresh env now t sm d db =
          (.error reusedToken, revokeWhere (·.familyId == r.familyId) now db)))) := by
  rw [refresh_eq env now t sm d db hk]
  cases hf : findToken (env.sha256 t) db with
  | none => exact Or.inl ⟨findToken_none.mp hf, rfl⟩
  | some r =>
      obtain ⟨hr, hh⟩ := findToken_some hf
      cases hrev : r.revokedAt with
      | none => exact Or.inr (Or.inl ⟨r, hr, hh, hrev, by simp only [refreshRow, hrev]⟩)
      | some at_ =>
          refine Or.inr (Or.inr ⟨r, hr, hh, at_, hrev, ?_⟩)
          simp only [refreshRow, hrev]
          by_cases hexp : r.expiresAt ≤ now
          · exact Or.inl ⟨hexp, if_pos hexp⟩
          · rw [if_neg hexp]
            by_cases hgrace : now - at_ ≤ graceMs env
            · exact Or.inr (Or.inl ⟨Int.not_le.mp hexp, hgrace, if_pos hgrace⟩)
            · exact Or.inr (Or.inr ⟨Int.not_le.mp hexp, Int.not_le.mp hgrace, if_neg hgrace⟩)

/-- `r'` is `r`, or `r` with a revocation time stamped on it for the first time. -/
def Stamped (now : Time) (r r' : RefreshToken) : Prop :=
  r' = r ∨ (r.revokedAt = none ∧ r' = { r with revokedAt := some now })

theorem Stamped.trans {now : Time} {a b c : RefreshToken} (hab : Stamped now a b)
    (hbc : Stamped now b c) : Stamped now a c := by
  rcases hab with rfl | ⟨ha, rfl⟩
  · exact hbc
  · rcases hbc with rfl | ⟨hb, _⟩
    · exact Or.inr ⟨ha, rfl⟩
    · cases hb

theorem Stamped.fields {now : Time} {r r' : RefreshToken} (h : Stamped now r r') :
    r'.tokenHash = r.tokenHash ∧ r'.familyId = r.familyId ∧ r'.expiresAt = r.expiresAt := by
  rcases h with rfl | ⟨_, rfl⟩ <;> exact ⟨rfl, rfl, rfl⟩

/-- Rows are kept up to a first stamp, other rows satisfy `New`, and the unique index
on the token hash survives. -/
structure TokenEffect (now : Time) (New : RefreshToken → Prop) (db db' : Db) : Prop where
  keeps : ∀ r ∈ db.refreshTokens, ∃ r' ∈ db'.refreshTokens, Stamped now r r'
  grows : ∀ r' ∈ db'.refreshTokens, (∃ r ∈ db.refreshTokens, Stamped now r r') ∨ New r'
  keys : TokenKeys db → TokenKeys db'

/-- No row is new. -/
abbrev NoNew : RefreshToken → Prop := fun _ => False

theorem TokenEffect.of_eq {now : Time} {New : RefreshToken → Prop} {db db' : Db}
    (h : db'.refreshTokens = db.refreshTokens) : TokenEffect now New db db' where
  keeps r hr := ⟨r, by rw [h]; exact hr, Or.inl rfl⟩
  grows r hr := Or.inl ⟨r, by rw [← h]; exact hr, Or.inl rfl⟩
  keys hk := by unfold TokenKeys; rw [h]; exact hk

theorem TokenEffect.trans {now : Time} {New : RefreshToken → Prop} {a b c : Db}
    (hab : TokenEffect now NoNew a b) (hbc : TokenEffect now New b c) :
    TokenEffect now New a c where
  keeps r hr := by
    obtain ⟨r', hr', hs⟩ := hab.keeps r hr
    obtain ⟨r'', hr'', hs'⟩ := hbc.keeps r' hr'
    exact ⟨r'', hr'', hs.trans hs'⟩
  grows r'' hr'' := by
    rcases hbc.grows r'' hr'' with ⟨r', hr', hs'⟩ | hn
    · rcases hab.grows r' hr' with ⟨r, hr, hs⟩ | hf
      · exact Or.inl ⟨r, hr, hs.trans hs'⟩
      · exact hf.elim
    · exact Or.inr hn
  keys hk := hbc.keys (hab.keys hk)

theorem TokenEffect.mono {now : Time} {New New' : RefreshToken → Prop} {db db' : Db}
    (h : TokenEffect now New db db') (hn : ∀ r, New r → New' r) :
    TokenEffect now New' db db' where
  keeps := h.keeps
  grows r hr := (h.grows r hr).imp_right (hn r)
  keys := h.keys

theorem revokeWhere_effect (p : RefreshToken → Bool) (now : Time) (db : Db) :
    TokenEffect now NoNew db (revokeWhere p now db) where
  keeps r hr := by
    refine ⟨_, Rows.mem_updateMany.mpr ⟨r, hr, rfl⟩, ?_⟩
    split
    · rename_i hp
      have hnone : r.revokedAt = none := by simpa using (Bool.and_eq_true_iff.mp hp).2
      exact Or.inr ⟨hnone, rfl⟩
    · exact Or.inl rfl
  grows r' hr' := by
    obtain ⟨r, hr, rfl⟩ := Rows.mem_updateMany.mp hr'
    refine Or.inl ⟨r, hr, ?_⟩
    split
    · rename_i hp
      have hnone : r.revokedAt = none := by simpa using (Bool.and_eq_true_iff.mp hp).2
      exact Or.inr ⟨hnone, rfl⟩
    · exact Or.inl rfl
  keys hk := by
    apply Rows.unique_updateMany _ hk
    intro r
    rfl

theorem issueTokenPair_effect (env : AuthEnv) (now : Time) (userId : Id) (sm : SessionMeta)
    (d : Draws) (familyId : Option String) (db : Db) :
    TokenEffect now (fun r => r.familyId = familyId.getD d.familyId ∧
        ∃ pair, (issueTokenPair env now userId sm d familyId db).1 = .ok pair)
      db (issueTokenPair env now userId sm d familyId db).2 := by
  unfold issueTokenPair
  split
  · exact TokenEffect.of_eq rfl
  · rename_i hd
    constructor
    · intro r hr
      exact ⟨r, List.mem_append_left _ hr, Or.inl rfl⟩
    · intro r' hr'
      rcases List.mem_append.mp hr' with ho | hn
      · exact Or.inl ⟨r', ho, Or.inl rfl⟩
      · rw [List.mem_singleton.mp hn]
        exact Or.inr ⟨rfl, _, rfl⟩
    · intro hk
      apply Rows.unique_append hk
      intro a ha he
      apply hd
      exact List.any_eq_true.mpr ⟨a, ha, by simp [he]⟩

theorem issueUnlessSuspended_effect (env : AuthEnv) (now : Time) (userId : Id) (sm : SessionMeta)
    (d : Draws) (familyId : Option String) (db : Db) :
    TokenEffect now (fun r => r.familyId = familyId.getD d.familyId ∧
        ∃ pair, (issueUnlessSuspended env now userId sm d familyId db).1 = .ok pair)
      db (issueUnlessSuspended env now userId sm d familyId db).2 := by
  unfold issueUnlessSuspended
  split
  · exact TokenEffect.of_eq rfl
  · exact issueTokenPair_effect env now userId sm d familyId db

/-- A pair is issued exactly when the user has no active suspension and the drawn
values are not stored yet. -/
theorem issueUnlessSuspended_ok (env : AuthEnv) (now : Time) (userId : Id) (sm : SessionMeta)
    (d : Draws) (familyId : Option String) (db : Db) :
    (∃ pair, (issueUnlessSuspended env now userId sm d familyId db).1 = .ok pair) ↔
      activeSuspension now userId db = none ∧ drawn env d db = false := by
  unfold issueUnlessSuspended throwIfSuspended
  cases hs : activeSuspension now userId db with
  | some s => simp
  | none =>
      cases hd : drawn env d db <;> simp [issueTokenPair, hd]

/-- A row appended by a call: a login opens the drawn family, a refresh that issues a
pair continues the family of the token it was given. -/
def NewToken (env : AuthEnv) (db : Db) (o : TimedOp) (r' : RefreshToken) : Prop :=
  match o.op with
  | .verifyOtp _ _ _ d => r'.familyId = d.familyId
  | .refresh t sm d => (∃ pair, (refresh env o.now t sm d db).1 = .ok pair) ∧
      ∃ r ∈ db.refreshTokens, r.tokenHash = env.sha256 t ∧ r'.familyId = r.familyId
  | _ => False

theorem refresh_effect (env : AuthEnv) (now : Time) (t : String) (sm : SessionMeta) (d : Draws)
    (db : Db) (hk : TokenKeys db) :
    TokenEffect now (NewToken env db ⟨now, .refresh t sm d⟩) db (refresh env now t sm d db).2 := by
  rcases refresh_cases env now t sm d db hk with ⟨_, he⟩ | ⟨r, hr, hh, _, he⟩ |
      ⟨r, hr, hh, at_, _, ⟨_, he⟩ | ⟨_, _, he⟩ | ⟨_, _, he⟩⟩
  · rw [he]
    exact TokenEffect.of_eq rfl
  · have hi := (revokeWhere_effect (·.tokenHash == env.sha256 t) now db).trans
      (issueUnlessSuspended_effect env now r.userId sm d (some r.familyId) _)
    rw [← he] at hi
    exact hi.mono fun r' hn => ⟨hn.2, r, hr, hh, hn.1⟩
  · rw [he]
    exact TokenEffect.of_eq rfl
  · have hi := issueUnlessSuspended_effect env now r.userId sm d (some r.familyId) db
    rw [← he] at hi
    exact hi.mono fun r' hn => ⟨hn.2, r, hr, hh, hn.1⟩
  · rw [he]
    exact (revokeWhere_effect (·.familyId == r.familyId) now db).mono fun _ => False.elim

theorem findOrCreateUser_tokens (env : AuthEnv) (phone phoneHash : String) (d : Draws) (db : Db) :
    (findOrCreateUser env phone phoneHash d db).2.refreshTokens = db.refreshTokens := by
  unfold findOrCreateUser
  split
  · rfl
  · split
    · rfl
    · split <;> rfl

theorem verifyOtp_effect (env : AuthEnv) (now : Time) (phone code : String) (sm : SessionMeta)
    (d : Draws) (db : Db) :
    TokenEffect now (fun r => r.familyId = d.familyId) db (verifyOtp env now phone code sm d db).2 := by
  have hotp : (otpVerify env now (normalizePhone phone) code db).2.refreshTokens =
      db.refreshTokens := by
    obtain ⟨otps, he⟩ := otpVerify_frame env now (normalizePhone phone) code db
    rw [he]
  unfold verifyOtp
  dsimp only
  split
  · rename_i hv
    rw [hv] at hotp
    exact TokenEffect.of_eq hotp
  · rename_i db₁ hv
    rw [hv] at hotp
    have h₁ : db₁.refreshTokens = db.refreshTokens := hotp
    have hu := findOrCreateUser_tokens env (normalizePhone phone)
      (env.hmacSha256 (normalizePhone phone) env.phoneHashPepper) d db₁
    split
    · rename_i hf
      rw [hf] at hu
      exact TokenEffect.of_eq (hu.trans h₁)
    · rename_i userId db₂ hf
      rw [hf] at hu
      have h₂ : TokenEffect now NoNew db db₂ := TokenEffect.of_eq (hu.trans h₁)
      exact (h₂.trans (issueUnlessSuspended_effect env now userId sm d none db₂)).mono
        fun r hn => hn.1

theorem logout_effect (env : AuthEnv) (now : Time) (user : AuthenticatedUser)
    (refreshToken : Option String) (deviceId : Option Id) (db : Db) :
    TokenEffect now NoNew db (logout env now user refreshToken deviceId db) := by
  unfold logout
  dsimp only
  have hrev : ∀ p, TokenEffect now NoNew db (revokeWhere p now db) :=
    fun p => revokeWhere_effect p now db
  cases truthy refreshToken with
  | some token =>
      dsimp only
      split
      · exact hrev _
      · exact (hrev _).trans (TokenEffect.of_eq rfl)
  | none =>
      dsimp only
      split
      · exact hrev _
      · exact (hrev _).trans (TokenEffect.of_eq rfl)

/-- The suspension transaction revokes the target's tokens and leaves the others. -/
theorem suspendTx_tokens {now : Time} {sid actor target : Id} {dto : SuspendUserDto} {db db' : Db}
    {r : SuspendResult} (h : suspendTx now sid actor target dto db = .ok (r, db')) :
    db'.refreshTokens = (revokeUserTokens target now db).refreshTokens := by
  unfold suspendTx at h
  split at h
  · cases h
  · split at h
    · cases h
    · simp only [Except.ok.injEq, Prod.mk.injEq] at h
      obtain ⟨_, rfl⟩ := h
      unfold auditWrite
      dsimp only
      split <;> split <;> rfl

theorem suspendUser_effect (now : Time) (sid actor : Id) (role : UserRole) (target : Id)
    (dto : SuspendUserDto) (db : Db) :
    TokenEffect now NoNew db (suspendUser now sid actor role target dto db).2 := by
  unfold suspendUser
  split
  · exact TokenEffect.of_eq rfl
  · split
    · exact TokenEffect.of_eq rfl
    · rename_i r db' htx
      have hrev := revokeWhere_effect (·.userId == target) now db
      exact hrev.trans (TokenEffect.of_eq (suspendTx_tokens htx))

theorem unsuspendUser_effect (now : Time) (actor : Id) (role : UserRole) (target : Id)
    (reason : Option String) (db : Db) :
    TokenEffect now NoNew db (unsuspendUser now actor role target reason db).2 := by
  unfold unsuspendUser
  split
  · exact TokenEffect.of_eq rfl
  · split <;> exact TokenEffect.of_eq rfl

/-- One call that is not a prune keeps every row, up to a first stamp. -/
theorem step_effect (env : AuthEnv) (db : Db) (o : TimedOp) (hk : TokenKeys db)
    (hp : ∀ reports metrics, o.op ≠ .prune reports metrics) :
    TokenEffect o.now (NewToken env db o) db (step env db o) := by
  obtain ⟨now, op⟩ := o
  cases op with
  | verifyOtp phone code sm d => exact verifyOtp_effect env now phone code sm d db
  | refresh t sm d => exact refresh_effect env now t sm d db hk
  | logout user t dev => exact logout_effect env now user t dev db
  | suspendUser sid actor role target dto => exact suspendUser_effect now sid actor role target dto db
  | unsuspendUser actor role target reason => exact unsuspendUser_effect now actor role target reason db
  | prune reports metrics => exact absurd rfl (hp reports metrics)

/-- The unique index on the token hash survives every call, a prune included. -/
theorem step_keys (env : AuthEnv) (db : Db) (o : TimedOp) (hk : TokenKeys db) :
    TokenKeys (step env db o) := by
  by_cases hp : ∀ reports metrics, o.op ≠ .prune reports metrics
  · exact (step_effect env db o hk hp).keys hk
  · push Not at hp
    obtain ⟨reports, metrics, he⟩ := hp
    unfold step
    rw [he]
    exact hk.filter _

theorem drawn_revokeWhere (env : AuthEnv) (d : Draws) (p : RefreshToken → Bool) (now : Time)
    (db : Db) : drawn env d (revokeWhere p now db) = drawn env d db := by
  unfold drawn revokeWhere Rows.updateMany
  rw [List.any_map]
  congr 1
  funext r
  simp only [Function.comp_apply]
  split <;> rfl

end Birgap.Auth
