import Birgap.Auth.Sessions

/-!
# When a revocation is final

`revokedAt` is written by rotation, by logout, by a detected reuse and by a suspension,
and `refresh` reads it as if only rotation wrote it: a token presented again within the
grace window yields a pair whoever revoked it. `refresh_after_final` shows that this is
the only way, in every run: the stamp itself is never removed and never moved.
-/
namespace Birgap.Auth

set_option autoImplicit false

open Birgap.Lib Birgap.Lib.Run Birgap.Moderation

/-- The call is a refresh with a token of this hash. -/
def Presents (env : AuthEnv) (o : TimedOp) (h : String) : Prop :=
  ∃ t sm d, o.op = .refresh t sm d ∧ env.sha256 t = h

/-- The call sets `revokedAt` of the token, and is not the token's own rotation. -/
def Revokes (env : AuthEnv) (db : Db) (o : TimedOp) (h : String) : Prop :=
  (∃ r ∈ db.refreshTokens, r.tokenHash = h ∧ r.revokedAt = none) ∧
  (∃ r ∈ (step env db o).refreshTokens, r.tokenHash = h ∧ r.revokedAt ≠ none) ∧
  ¬ Presents env o h

/-- The call answers that a token was reused, and this token is of the same family. -/
def DetectsReuse (env : AuthEnv) (db : Db) (o : TimedOp) (h : String) : Prop :=
  ∃ t sm d, o.op = .refresh t sm d ∧ (refresh env o.now t sm d db).1 = .error reusedToken ∧
    ∃ p ∈ db.refreshTokens, p.tokenHash = env.sha256 t ∧
      ∃ r ∈ db.refreshTokens, r.tokenHash = h ∧ r.familyId = p.familyId

def FinallyRevokes (env : AuthEnv) (db : Db) (o : TimedOp) (h : String) : Prop :=
  Revokes env db o h ∨ DetectsReuse env db o h

/-- After a final revocation no later refresh of the token, in the rest of the run,
issues a pair. -/
def RevocationFinal (env : AuthEnv) (db₀ : Db) (ops : List TimedOp) : Prop :=
  ∀ pre o mid last post, ops = pre ++ o :: (mid ++ last :: post) →
    ∀ t sm d, last.op = .refresh t sm d →
      FinallyRevokes env (run (step env) db₀ pre) o (env.sha256 t) →
      ¬ ∃ pair, (refresh env last.now t sm d (run (step env) db₀ (pre ++ o :: mid))).1 = .ok pair

/-- The token is stored as revoked and unexpired, the call comes within the grace window
of its `revokedAt`, and nothing else stands in the way of issuing a pair. -/
def GraceReplay (env : AuthEnv) (now : Time) (t : String) (d : Draws) (db : Db) : Prop :=
  ∃ r ∈ db.refreshTokens, r.tokenHash = env.sha256 t ∧ ∃ at_, r.revokedAt = some at_ ∧
    now - at_ ≤ graceMs env ∧ now < r.expiresAt ∧
    activeSuspension now r.userId db = none ∧ drawn env d db = false

/-- No finally revoked token is presented within its grace window. -/
def NoGraceReplay (env : AuthEnv) (db₀ : Db) (ops : List TimedOp) : Prop :=
  ∀ pre o mid last post, ops = pre ++ o :: (mid ++ last :: post) →
    ∀ t sm d, last.op = .refresh t sm d →
      FinallyRevokes env (run (step env) db₀ pre) o (env.sha256 t) →
      ¬ GraceReplay env last.now t d (run (step env) db₀ (pre ++ o :: mid))

def Revoked (db : Db) (h : String) : Prop :=
  ∃ r ∈ db.refreshTokens, r.tokenHash = h ∧ r.revokedAt ≠ none

theorem step_revoked (env : AuthEnv) (db : Db) (o : TimedOp) (hk : TokenKeys db)
    (hp : ∀ reports metrics, o.op ≠ .prune reports metrics) {h : String} (hr : Revoked db h) :
    Revoked (step env db o) h := by
  obtain ⟨r, hm, hh, hrev⟩ := hr
  obtain ⟨r', hm', hs⟩ := (step_effect env db o hk hp).keeps r hm
  rcases hs with rfl | ⟨hn, _⟩
  · exact ⟨r', hm', hh, hrev⟩
  · exact absurd hn hrev

/-- The stamp survives every run without a prune. -/
theorem run_revoked (env : AuthEnv) (ops : List TimedOp)
    (hp : ∀ o ∈ ops, ∀ reports metrics, o.op ≠ .prune reports metrics) {h : String} :
    ∀ db, TokenKeys db → Revoked db h → Revoked (run (step env) db ops) h := by
  induction ops with
  | nil => intro db _ hr; exact hr
  | cons o ops ih =>
      intro db hk hr
      exact ih (fun a ha => hp a (List.mem_cons_of_mem _ ha)) _ (step_keys env db o hk)
        (step_revoked env db o hk (hp o List.mem_cons_self) hr)

theorem run_keys (env : AuthEnv) (ops : List TimedOp) (db : Db) (hk : TokenKeys db) :
    TokenKeys (run (step env) db ops) :=
  run_invariant (fun db o hk => step_keys env db o hk) ops db hk

theorem issueUnlessSuspended_ne_reused (env : AuthEnv) (now : Time) (userId : Id)
    (sm : SessionMeta) (d : Draws) (familyId : Option String) (db : Db) :
    (issueUnlessSuspended env now userId sm d familyId db).1 ≠ .error reusedToken := by
  unfold issueUnlessSuspended throwIfSuspended
  cases activeSuspension now userId db with
  | some s => simp [reusedToken]
  | none =>
      simp only [issueTokenPair]
      split <;> simp [reusedToken]

/-- A detected reuse leaves every token of the family revoked. -/
theorem detectsReuse_revoked (env : AuthEnv) (db : Db) (o : TimedOp) (hk : TokenKeys db)
    {h : String} (hd : DetectsReuse env db o h) : Revoked (step env db o) h := by
  obtain ⟨t, sm, d, hop, hans, p, hp, hph, r, hr, hh, hfam⟩ := hd
  have hstep : step env db o = (refresh env o.now t sm d db).2 := by unfold step; rw [hop]
  rw [hstep]
  rcases refresh_cases env o.now t sm d db hk with ⟨_, he⟩ | ⟨q, _, _, _, he⟩ |
      ⟨q, hq, hqh, at_, _, ⟨_, he⟩ | ⟨_, _, he⟩ | ⟨_, _, he⟩⟩
  · rw [he] at hans
    simp [invalidToken, reusedToken] at hans
  · rw [he] at hans
    exact absurd hans (issueUnlessSuspended_ne_reused _ _ _ _ _ _ _)
  · rw [he] at hans
    simp [invalidToken, reusedToken] at hans
  · rw [he] at hans
    exact absurd hans (issueUnlessSuspended_ne_reused _ _ _ _ _ _ _)
  · have hqp : q = p := hk.eq hq hp (hqh.trans hph.symm)
    subst q
    rw [he]
    refine ⟨_, Rows.mem_updateMany.mpr ⟨r, hr, rfl⟩, ?_⟩
    cases hrev : r.revokedAt with
    | none => simp [hfam, hh]
    | some x => simp [hrev, hh]

theorem finallyRevokes_revoked (env : AuthEnv) (db : Db) (o : TimedOp) (hk : TokenKeys db)
    {h : String} (hf : FinallyRevokes env db o h) : Revoked (step env db o) h := by
  rcases hf with ⟨_, hr, _⟩ | hd
  · exact hr
  · exact detectsReuse_revoked env db o hk hd

/-- On a revoked token a refresh issues a pair in the grace window and nowhere else. -/
theorem refresh_of_revoked (env : AuthEnv) (now : Time) (t : String) (sm : SessionMeta)
    (d : Draws) (db : Db) (hk : TokenKeys db) (hr : Revoked db (env.sha256 t)) :
    (∃ pair, (refresh env now t sm d db).1 = .ok pair) ↔ GraceReplay env now t d db := by
  obtain ⟨r₀, hr₀, hh₀, hrev₀⟩ := hr
  have honly : ∀ r ∈ db.refreshTokens, r.tokenHash = env.sha256 t → r = r₀ :=
    fun r hr hh => hk.eq hr hr₀ (hh.trans hh₀.symm)
  rcases refresh_cases env now t sm d db hk with ⟨hn, _⟩ | ⟨r, hr, hh, hrev, _⟩ |
      ⟨r, hr, hh, at_, hrev, ⟨hexp, he⟩ | ⟨hexp, hgrace, he⟩ | ⟨_, hlate, he⟩⟩
  · exact absurd hh₀ (hn r₀ hr₀)
  · rw [honly r hr hh] at hrev
    exact absurd hrev hrev₀
  · obtain rfl := honly r hr hh
    rw [he]
    constructor
    · rintro ⟨pair, hok⟩
      cases hok
    · rintro ⟨a, ha, hah, _, _, _, hlive, _⟩
      rw [honly a ha hah] at hlive
      exact absurd hexp (Int.not_le.mpr hlive)
  · obtain rfl := honly r hr hh
    rw [he, issueUnlessSuspended_ok]
    constructor
    · rintro ⟨hs, hd⟩
      exact ⟨r, hr, hh, at_, hrev, hgrace, hexp, hs, hd⟩
    · rintro ⟨a, ha, hah, _, _, _, _, hs, hd⟩
      rw [honly a ha hah] at hs
      exact ⟨hs, hd⟩
  · obtain rfl := honly r hr hh
    rw [he]
    constructor
    · rintro ⟨pair, hok⟩
      cases hok
    · rintro ⟨a, ha, hah, x, hx, hin, _⟩
      rw [honly a ha hah, hrev] at hx
      obtain rfl := Option.some.inj hx
      exact absurd hin (Int.not_le.mpr hlate)

/-- A final revocation decides every later refresh of the token by the grace window. -/
theorem refresh_after_final (env : AuthEnv) (db₀ : Db) (hk : TokenKeys db₀)
    (pre : List TimedOp) (o : TimedOp) (mid : List TimedOp)
    (hp : ∀ a ∈ mid, ∀ reports metrics, a.op ≠ .prune reports metrics)
    (now : Time) (t : String) (sm : SessionMeta) (d : Draws)
    (hf : FinallyRevokes env (run (step env) db₀ pre) o (env.sha256 t)) :
    (∃ pair, (refresh env now t sm d (run (step env) db₀ (pre ++ o :: mid))).1 = .ok pair) ↔
      GraceReplay env now t d (run (step env) db₀ (pre ++ o :: mid)) := by
  have hkp := run_keys env pre db₀ hk
  have hrev := run_revoked env mid hp _ (step_keys env _ o hkp)
    (finallyRevokes_revoked env _ o hkp hf)
  rw [run_append, run_cons]
  exact refresh_of_revoked env now t sm d _ (run_keys env mid _ (step_keys env _ o hkp)) hrev

/-- In every run of logins, refreshes, logouts, suspensions and unsuspensions, revocation
is final exactly when no finally revoked token is presented in its grace window. -/
theorem revocationFinal_iff (env : AuthEnv) (db₀ : Db) (ops : List TimedOp) (hk : TokenKeys db₀)
    (hp : ∀ o ∈ ops, ∀ reports metrics, o.op ≠ .prune reports metrics) :
    RevocationFinal env db₀ ops ↔ NoGraceReplay env db₀ ops := by
  have hmid : ∀ pre o mid last post, ops = pre ++ o :: (mid ++ last :: post) →
      ∀ a ∈ mid, ∀ reports metrics, a.op ≠ .prune reports metrics := by
    intro pre o mid last post he a ha
    apply hp a
    rw [he]
    simp [ha]
  constructor
  · intro h pre o mid last post he t sm d hop hf hg
    exact h pre o mid last post he t sm d hop hf
      ((refresh_after_final env db₀ hk pre o mid (hmid pre o mid last post he) last.now t sm d hf).mpr hg)
  · intro h pre o mid last post he t sm d hop hf hok
    exact h pre o mid last post he t sm d hop hf
      ((refresh_after_final env db₀ hk pre o mid (hmid pre o mid last post he) last.now t sm d hf).mp hok)

/-- A stand-in digest and the default configuration. -/
def sampleEnv : AuthEnv :=
  { sha256 := fun s => "sha256:" ++ s, hmacSha256 := fun s k => "hmac:" ++ k ++ ":" ++ s }

def sampleToken : String := "refresh-token-of-alice-1"

/-- One user with one session. -/
def sampleDb : Db :=
  { users := [{ id := "alice", phoneHash := "hmac::+998901112233" }]
    refreshTokens := [{ id := "s1", userId := "alice", tokenHash := "sha256:refresh-token-of-alice-1"
                        familyId := "f1", expiresAt := 2592000000, createdAt := 0 }] }

def sampleDraws : Draws :=
  { refreshToken := "refresh-token-of-alice-2", familyId := "f2", sessionId := "s2", userId := "u2" }

/-- Log out, and one second later present the token again. -/
def logoutThenRefresh : List TimedOp :=
  [⟨1000, .logout ⟨"alice", "s1", .user⟩ (some sampleToken) none⟩,
   ⟨2000, .refresh sampleToken {} sampleDraws⟩]

theorem logout_revokes_sample :
    FinallyRevokes sampleEnv sampleDb ⟨1000, .logout ⟨"alice", "s1", .user⟩ (some sampleToken) none⟩
      (sampleEnv.sha256 sampleToken) := by
  refine Or.inl ⟨by decide, by decide, ?_⟩
  rintro ⟨t, sm, d, hop, _⟩
  cases hop

/-- Logging out does not end the session: the pair is issued one second later. -/
theorem logout_not_final :
    ¬ ∀ (env : AuthEnv) (db₀ : Db) (ops : List TimedOp), TokenKeys db₀ →
      (∀ o ∈ ops, ∀ reports metrics, o.op ≠ .prune reports metrics) →
      RevocationFinal env db₀ ops := by
  intro h
  have hrun := h sampleEnv sampleDb logoutThenRefresh (by decide)
    (by simp [logoutThenRefresh])
  exact hrun [] _ [] _ [] rfl sampleToken {} sampleDraws rfl logout_revokes_sample
    ⟨⟨"alice", "s2", "refresh-token-of-alice-2"⟩, by decide⟩

/-- The run above is one that the grace window spoils, as the equivalence says. -/
theorem logoutThenRefresh_graceReplay :
    TokenKeys sampleDb ∧ ¬ NoGraceReplay sampleEnv sampleDb logoutThenRefresh := by
  refine ⟨by decide, fun hn => ?_⟩
  have hfinal := (revocationFinal_iff sampleEnv sampleDb logoutThenRefresh (by decide)
    (by simp [logoutThenRefresh])).mpr hn
  exact hfinal [] _ [] _ [] rfl sampleToken {} sampleDraws rfl logout_revokes_sample
    ⟨⟨"alice", "s2", "refresh-token-of-alice-2"⟩, by decide⟩

end Birgap.Auth
