import Birgap.Auth.Revocation

/-!
# Expiry of refresh tokens along a run

The rotation at the start of `refresh` filters on the hash and on `revokedAt` only; the
expiry is compared on the branch for tokens already revoked. A run respects the expiry
of every token exactly when no unrevoked token is presented at or after its expiry, and
then a family all of whose tokens have expired stays dead.
-/
namespace Birgap.Auth

set_option autoImplicit false

open Birgap.Lib Birgap.Lib.Run

/-- A pair this call issues for a token is issued before the expiry stored for it. -/
def IssuedBeforeExpiry (env : AuthEnv) (db : Db) (o : TimedOp) : Prop :=
  ∀ t sm d, o.op = .refresh t sm d →
    (∃ pair, (refresh env o.now t sm d db).1 = .ok pair) →
    ∃ r ∈ db.refreshTokens, r.tokenHash = env.sha256 t ∧ o.now < r.expiresAt

/-- A stored, unrevoked token is presented before its expiry, unless a suspension or a
clash of the drawn values stops the call anyway. -/
def FirstUseUnexpired (env : AuthEnv) (db : Db) (o : TimedOp) : Prop :=
  ∀ t sm d, o.op = .refresh t sm d →
    ∀ r ∈ db.refreshTokens, r.tokenHash = env.sha256 t → r.revokedAt = none →
      activeSuspension o.now r.userId db = none → drawn env d db = false →
      o.now < r.expiresAt

/-- Every stored token of the family has expired by `T`. -/
def FamilyExpired (f : String) (T : Time) (db : Db) : Prop :=
  ∀ r ∈ db.refreshTokens, r.familyId = f → r.expiresAt ≤ T

theorem issuedBeforeExpiry_iff (env : AuthEnv) (db : Db) (o : TimedOp) (hk : TokenKeys db) :
    IssuedBeforeExpiry env db o ↔ FirstUseUnexpired env db o := by
  constructor
  · intro h t sm d hop r hr hh hrev hs hd
    rcases refresh_cases env o.now t sm d db hk with ⟨hn, _⟩ | ⟨q, hq, hqh, hqrev, he⟩ |
        ⟨q, hq, hqh, at_, hqrev, _⟩
    · exact absurd hh (hn r hr)
    · obtain rfl := hk.eq hq hr (hqh.trans hh.symm)
      have hok : ∃ pair, (refresh env o.now t sm d db).1 = .ok pair := by
        rw [he, issueUnlessSuspended_ok, drawn_revokeWhere]
        exact ⟨hs, hd⟩
      obtain ⟨a, ha, hah, hlive⟩ := h t sm d hop hok
      rw [hk.eq ha hq (hah.trans hh.symm)] at hlive
      exact hlive
    · rw [hk.eq hq hr (hqh.trans hh.symm), hrev] at hqrev
      cases hqrev
  · intro h t sm d hop hok
    rcases refresh_cases env o.now t sm d db hk with ⟨_, he⟩ | ⟨q, hq, hqh, hqrev, he⟩ |
        ⟨q, hq, hqh, at_, _, ⟨_, he⟩ | ⟨hlive, _, _⟩ | ⟨_, _, he⟩⟩
    · rw [he] at hok
      obtain ⟨pair, hp⟩ := hok
      cases hp
    · rw [he, issueUnlessSuspended_ok, drawn_revokeWhere] at hok
      exact ⟨q, hq, hqh, h t sm d hop q hq hqh hqrev hok.1 hok.2⟩
    · rw [he] at hok
      obtain ⟨pair, hp⟩ := hok
      cases hp
    · exact ⟨q, hq, hqh, hlive⟩
    · rw [he] at hok
      obtain ⟨pair, hp⟩ := hok
      cases hp

/-- An expired family stays expired: a stored row keeps its expiry, and a new row of the
family would have to be issued for a token that has not expired. -/
theorem step_familyExpired (env : AuthEnv) (f : String) (T : Time) (db : Db) (o : TimedOp)
    (hk : TokenKeys db) (hi : IssuedBeforeExpiry env db o) (hT : T ≤ o.now)
    (hlogin : ∀ phone code sm d, o.op = .verifyOtp phone code sm d → d.familyId ≠ f)
    (h : FamilyExpired f T db) : FamilyExpired f T (step env db o) := by
  by_cases hp : ∀ reports metrics, o.op ≠ .prune reports metrics
  · intro r' hr' hf
    rcases (step_effect env db o hk hp).grows r' hr' with ⟨r, hr, hs⟩ | hn
    · obtain ⟨_, hfam, hexp⟩ := hs.fields
      rw [hexp]
      exact h r hr (hfam.symm.trans hf)
    · obtain ⟨now, op⟩ := o
      cases op with
      | verifyOtp phone code sm d => exact absurd (hn.symm.trans hf) (hlogin phone code sm d rfl)
      | refresh t sm d =>
          obtain ⟨hok, r, hr, hh, hfam⟩ := hn
          obtain ⟨a, ha, hah, hlive⟩ := hi t sm d rfl hok
          rw [hk.eq ha hr (hah.trans hh.symm)] at hlive
          have hexp := h r hr (hfam.symm.trans hf)
          exact absurd (le_trans hexp hT) (not_le.mpr hlive)
      | logout user t dev => exact hn.elim
      | suspendUser sid actor role target dto => exact hn.elim
      | unsuspendUser actor role target reason => exact hn.elim
      | prune reports metrics => exact hn.elim
  · push Not at hp
    obtain ⟨reports, metrics, he⟩ := hp
    intro r hr hf
    unfold step at hr
    rw [he] at hr
    exact h r (List.mem_of_mem_filter hr) hf

theorem run_familyExpired (env : AuthEnv) (f : String) (T : Time) (ops : List TimedOp)
    (hT : ∀ o ∈ ops, T ≤ o.now)
    (hlogin : ∀ o ∈ ops, ∀ phone code sm d, o.op = .verifyOtp phone code sm d → d.familyId ≠ f) :
    ∀ db, TokenKeys db → Along (step env) (IssuedBeforeExpiry env) db ops →
      FamilyExpired f T db → FamilyExpired f T (run (step env) db ops) := by
  induction ops with
  | nil => intro db _ _ h; exact h
  | cons o ops ih =>
      intro db hk ha h
      obtain ⟨ho, ha⟩ := (along_cons _ _ _ _ _).mp ha
      exact ih (fun a hm => hT a (List.mem_cons_of_mem _ hm))
        (fun a hm => hlogin a (List.mem_cons_of_mem _ hm)) _ (step_keys env db o hk) ha
        (step_familyExpired env f T db o hk ho (hT o List.mem_cons_self)
          (hlogin o List.mem_cons_self) h)

/-- Every pair is issued before the expiry of the presented token exactly when no first
use comes late; and in such a run a family that has expired entirely stores no token
of a later expiry again, as long as no login draws the same family id. -/
theorem expiry_respected_iff (env : AuthEnv) (db₀ : Db) (ops : List TimedOp) (hk : TokenKeys db₀) :
    (Along (step env) (IssuedBeforeExpiry env) db₀ ops ↔
      Along (step env) (FirstUseUnexpired env) db₀ ops) ∧
    (Along (step env) (FirstUseUnexpired env) db₀ ops →
      ∀ pre mid post f T, ops = pre ++ (mid ++ post) →
        FamilyExpired f T (run (step env) db₀ pre) → (∀ o ∈ mid, T ≤ o.now) →
        (∀ o ∈ mid, ∀ phone code sm d, o.op = .verifyOtp phone code sm d → d.familyId ≠ f) →
        FamilyExpired f T (run (step env) db₀ (pre ++ mid))) := by
  have hiff := along_congr (fun db o hk => step_keys env db o hk)
    (fun db o hk => issuedBeforeExpiry_iff env db o hk) ops db₀ hk
  refine ⟨hiff, ?_⟩
  intro hc pre mid post f T he hexp hT hlogin
  have ha := hiff.mpr hc
  rw [he, along_append, along_append] at ha
  rw [run_append]
  exact run_familyExpired env f T mid hT hlogin _ (run_keys env pre db₀ hk) ha.2.1 hexp

/-- One millisecond past its expiry the sample token still yields a pair. -/
theorem expired_token_refreshed :
    ¬ ∀ (env : AuthEnv) (db₀ : Db) (ops : List TimedOp), TokenKeys db₀ →
      (ops.map (·.now)).Pairwise (· ≤ ·) →
      Along (step env) (IssuedBeforeExpiry env) db₀ ops := by
  intro h
  have hrun := h sampleEnv sampleDb [⟨2592000001, .refresh sampleToken {} sampleDraws⟩]
    (by decide) (by decide)
  have hlate := ((along_cons _ _ _ _ _).mp hrun).1 sampleToken {} sampleDraws rfl
    ⟨⟨"alice", "s2", "refresh-token-of-alice-2"⟩, by decide⟩
  revert hlate
  decide

/-- A refresh one second after the login respects the expiry. -/
theorem early_refresh_respects_expiry :
    Along (step sampleEnv) (IssuedBeforeExpiry sampleEnv) sampleDb
      [⟨1000, .refresh sampleToken {} sampleDraws⟩] := by
  apply (expiry_respected_iff sampleEnv sampleDb _ (by decide)).1.mpr
  refine (along_cons _ _ _ _ _).mpr ⟨?_, along_nil _ _ _⟩
  intro t sm d _ r hr _ _ _ _
  rw [List.mem_singleton.mp hr]
  decide

end Birgap.Auth
