import Birgap.Moderation.Provenance

/-!
# Roles among the sessions

The logins, rotations, logouts, suspensions and clean-ups of the server between the awaits of
the three writers of a role. Each of them leaves every role as it is, so a run of all of them
is a run of the writers beside a program that writes no role.
-/
namespace Birgap.Moderation.Provenance

set_option autoImplicit false

open Birgap.Common Birgap.Lib Birgap.Lib.Run Birgap.Moderation Birgap.Auth Birgap.Auth.Guard
open Birgap.Moderation.Audited (recordFound)
open Birgap.Moderation.Agreement (owner_updateUser)
open Birgap.Users.PhoneHash (parseArgs)

/-- A step of a writer of roles, or one operation of the sessions or the moderators. -/
inductive Mixed where
  | request (r : Nat) (a : RequestAct)
  | boot (k : Nat) (a : BootAct)
  | script (k : Nat) (a : ScriptAct)
  | session (o : Guard.TimedOp)

section

variable (env : AuthEnv) (verifyAsync : String → Option AccessTokenPayload)
variable (normalise : String → String)

def mixedStep (s : State) : Mixed → State
  | .request r a => step env verifyAsync normalise s (.request r a)
  | .boot k a => step env verifyAsync normalise s (.boot k a)
  | .script k a => step env verifyAsync normalise s (.script k a)
  | .session o => { s with db := Guard.step env s.db o }

/-- For the writers of roles an operation of the sessions is a write of the rest. -/
def Mixed.act (db : Db) : Mixed → Act
  | .request r a => .request r a
  | .boot k a => .boot k a
  | .script k a => .script k a
  | .session o => .rest (Guard.step env db o)

def mixedActs (s : State) : List Mixed → List Act
  | [] => []
  | m :: ms => m.act env s.db :: mixedActs (mixedStep env verifyAsync normalise s m) ms

end

variable {env : AuthEnv} {verifyAsync : String → Option AccessTokenPayload}
variable {normalise : String → String}

/-! ## What a writer of roles writes -/

/-- Nothing, an audit row, or one role. -/
inductive Writes (db : Db) : Db → Prop where
  | none : Writes db db
  | audit (row : AdminAuditLog) : Writes db (auditWrite row db)
  | role (userId : Id) (role : UserRole) : Writes db (setRole userId role db)

theorem requestStep_writes (db : Db) (x : Request) (a : RequestAct) :
    Writes db (requestStep env verifyAsync db x a).2 := by
  unfold requestStep
  split
  · split <;> exact .none
  · split
    · exact .none
    · split <;> exact .none
  · split <;> exact .none
  · exact .audit _
  · exact .role _ _
  · exact .none
  · exact .none

theorem bootStep_writes (db : Db) (x : Boot) (a : BootAct) :
    Writes db (bootStep normalise db x a).2 := by
  unfold bootStep
  split
  · exact .none
  · split
    · exact .none
    · split <;> exact .none
  · split
    · exact .none
    · exact .role _ _
  · exact .audit _
  · exact .none
  · exact .none

theorem scriptStep_writes (db : Db) (x : Script) (a : ScriptAct) :
    Writes db (scriptStep env db x a).2 := by
  unfold scriptStep
  split
  · split
    · exact .none
    · split
      · split <;> exact .none
      · exact .none
  · split
    · exact .none
    · exact .role _ _
  · exact .audit _
  · exact .none
  · exact .none

/-- The status of a user is not touched with the role, nor are the suspensions. -/
theorem Writes.sound {db db' : Db} (h : Writes db db') (hs : Sound db) : Sound db' := by
  cases h with
  | none => exact hs
  | audit row => exact hs.same ⟨rfl, rfl⟩
  | role userId role =>
      refine ⟨?_, hs.suspensionKeys, ?_, ⟨?_, hs.agree.single⟩⟩
      · apply Rows.unique_updateMany _ hs.userKeys
        intro u
        rfl
      · intro x hx
        exact owner_updateUser userId (fun u => { u with role }) (fun _ => rfl) (hs.owner x hx)
      · intro v hv
        obtain ⟨u, hu, rfl⟩ := Rows.mem_updateMany.mp hv
        have hflag := hs.agree.flag u hu
        split <;> exact hflag

/-! ## What the sessions write -/

/-- The operations of the sessions and of the moderators write no role. -/
theorem guard_step_sameRoles (env : AuthEnv) {db : Db} (hk : Rows.Unique (·.id) db.users)
    (o : Guard.TimedOp) : SameRoles db (Guard.step env db o) := by
  obtain ⟨now, op⟩ := o
  cases op with
  | call op =>
      cases op with
      | verifyOtp phone code sm d => exact verifyOtp_sameRoles env now phone code sm d hk
      | refresh t sm d => exact (kept_of_users (refresh_same env now t sm d db).1).sameRoles hk
      | logout user t dev => exact (kept_of_users (logout_same env now user t dev db).1).sameRoles hk
      | suspendUser sid actor role target dto =>
          exact (suspendUser_kept now sid actor role target dto db).sameRoles hk
      | unsuspendUser actor role target reason =>
          exact (unsuspendUser_kept now actor role target reason db).sameRoles hk
      | prune reports metrics => exact Kept.sameRoles hk (kept_of_users rfl)
  | reactivateExpired fails => exact (runReactivation_kept now fails db).sameRoles hk

/-! ## One step, and every run -/

theorem mixedStep_eq {s : State} (hk : Rows.Unique (·.id) s.db.users) (m : Mixed) :
    mixedStep env verifyAsync normalise s m =
      step env verifyAsync normalise s (m.act env s.db) := by
  cases m with
  | session o =>
      show _ = { s with db := keepRoles s.db (Guard.step env s.db o) }
      rw [(guard_step_sameRoles env hk o).keepRoles]
      rfl
  | _ => rfl

theorem mixedStep_sound {s : State} (h : Sound s.db) (m : Mixed) :
    Sound (mixedStep env verifyAsync normalise s m).db := by
  cases m with
  | request r a => exact (requestStep_writes s.db (s.requests r) a).sound h
  | boot k a => exact (bootStep_writes s.db (s.boots k) a).sound h
  | script k a => exact (scriptStep_writes s.db (s.scripts k) a).sound h
  | session o => exact step_sound env s.db o h

/-- The mixed run is a run of the writers beside the writes of the sessions. -/
theorem run_mixed (ms : List Mixed) : ∀ {s : State}, Sound s.db →
    run (mixedStep env verifyAsync normalise) s ms =
      run (step env verifyAsync normalise) s (mixedActs env verifyAsync normalise s ms) := by
  induction ms with
  | nil => intro s _; rfl
  | cons m ms ih =>
      intro s h
      rw [run_cons, ih (mixedStep_sound h m), mixedActs, run_cons, mixedStep_eq h.userKeys]

/-- Among the sessions: the status of every user agrees with the suspensions, no login,
rotation, logout, suspension, lifting or clean-up changes a role, and every role above the
default goes back to where it was given. -/
theorem roles_granted_among_sessions (env : AuthEnv)
    (verifyAsync : String → Option AccessTokenPayload) (normalise : String → String) {db : Db}
    (h : Sound db) (ms : List Mixed) :
    Sound (run (mixedStep env verifyAsync normalise) (start db) ms).db ∧
    Along (mixedStep env verifyAsync normalise) (fun s m => ∀ o, m = .session o →
      SameRoles s.db (mixedStep env verifyAsync normalise s m).db) (start db) ms ∧
    ∀ u ∈ (run (mixedStep env verifyAsync normalise) (start db) ms).db.users, u.role ≠ .user →
      Granted env verifyAsync normalise (start db)
        (mixedActs env verifyAsync normalise (start db) ms) u.id u.role := by
  have hsound : ∀ pre, Sound (run (mixedStep env verifyAsync normalise) (start db) pre).db :=
    fun pre => run_invariant (I := fun s : State => Sound s.db)
      (fun _ m hs => mixedStep_sound hs m) pre (start db) h
  refine ⟨hsound ms, ?_, ?_⟩
  · intro pre m _ o hm
    subst hm
    exact guard_step_sameRoles env (hsound pre).userKeys o
  · rw [run_mixed ms (s := start db) h]
    exact (run_traced env verifyAsync normalise db _).roles

/-- Alice promotes Bob; Bob logs out, and then asks with his old token to promote Carol. -/
def afterLogout : List Mixed :=
  ([.arrive (sampleRequest "alice" "bob" .admin) 5, .check, .update, .audit, .commit].map
      (.request 1)) ++
    [.session ⟨6, .call (.logout ⟨"bob", "s2", .admin⟩ none none)⟩] ++
    ([.arrive (sampleRequest "bob" "carol" .moderator) 7, .check, .update, .audit, .commit].map
      (.request 2))

/-- Bob's role goes back to Alice's request, and Carol has none. -/
theorem bob_promoted_carol_not :
    let s := run (mixedStep sampleEnv sampleVerify id) (start sampleDb) afterLogout
    s.db.users.map (fun u => (u.id, u.role)) =
      [("alice", .admin), ("bob", .admin), ("carol", .user), ("mallory", .user)] ∧
    Sound s.db ∧
    Along (mixedStep sampleEnv sampleVerify id) (fun s m => ∀ o, m = .session o →
      SameRoles s.db (mixedStep sampleEnv sampleVerify id s m).db) (start sampleDb) afterLogout ∧
    ∀ u ∈ s.db.users, u.role ≠ .user → Granted sampleEnv sampleVerify id (start sampleDb)
      (mixedActs sampleEnv sampleVerify id (start sampleDb) afterLogout) u.id u.role := by
  intro s
  have hsound : Sound sampleDb := by
    refine ⟨by decide, by decide, ?_, ⟨?_, ?_⟩⟩
    · intro x hx
      cases hx
    · decide
    · intro x hx
      cases hx
  exact ⟨by decide,
    roles_granted_among_sessions sampleEnv sampleVerify id hsound afterLogout⟩

end Birgap.Moderation.Provenance
