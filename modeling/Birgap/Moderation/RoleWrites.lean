import Birgap.Auth.Guard
import Birgap.Moderation.Roles
import Birgap.Users.PhoneHash

/-!
# The three writers of a role

`changeUserRole` behind the guards of the admin controller, the loop of `AdminBootstrapService`
and the admin script, with every await of the three a step of its own. Between two steps the rest
of the program may write what it likes, a role excepted.
-/
namespace Birgap.Moderation.Provenance

set_option autoImplicit false

open Birgap.Common Birgap.Lib Birgap.Lib.Run Birgap.Moderation Birgap.Auth Birgap.Auth.Guard
open Birgap.Moderation.Audited (changeRoleCheck recordFound roleAudit)
open Birgap.Moderation.Roles (bootstrapAudit listedHashes)
open Birgap.Users.PhoneHash (Args Command cliAudit hashPhone parseArgs parseRole roleName)

/-! ## The guards -/

/-- `AdminRoleGuard.canActivate`, where `required` is what `@RequireRole` left on the handler. -/
def adminRoleGuard (required : List UserRole) (user : Option AuthenticatedUser) : Except Err Unit :=
  if required.isEmpty then .ok ()
  else
    match user with
    | none => .error (.forbidden "Authentication required")
    | some user =>
        if required.contains user.role then .ok ()
        else .error (.forbidden ("Requires one of: " ++ ", ".intercalate (required.map roleName) ++
          " (caller has " ++ roleName user.role ++ ")"))

section

variable (env : AuthEnv) (verifyAsync : String → Option AccessTokenPayload)

/-- The two guards of the admin controller. -/
def guards (required : List UserRole) (now : Time) (authorization : Option String) (db : Db) :
    Except Err AuthenticatedUser :=
  match canActivate env verifyAsync now authorization db with
  | .error e => .error e
  | .ok user =>
      match adminRoleGuard required (some user) with
      | .error e => .error e
      | .ok () => .ok user

end

/-- `PATCH admin/users/:userId/role`. -/
structure RoleRequest where
  authorization : Option String
  targetUserId : Id
  newRole : UserRole
  reason : Option String

/-- A request to change a role: past its guards, past the read of the target, and in the
transaction past the update and past the audit row. -/
inductive Request where
  | idle
  | authorized (actor : AuthenticatedUser) (q : RoleRequest)
  | checked (actor : AuthenticatedUser) (q : RoleRequest) (target : User)
  | updated (actor : AuthenticatedUser) (q : RoleRequest) (target : User)
  | audited (actor : AuthenticatedUser) (q : RoleRequest) (target : User)

/-- A start of the process, with the hashes still to come. -/
inductive Boot where
  | idle
  | running (operator : String) (hashes : List String)
  | found (operator : String) (user : User) (rest : List String)
  | promoted (operator : String) (user : User) (rest : List String)

/-- A call of the admin script. -/
inductive Script where
  | idle
  | found (operator : String) (args : Args) (user : User) (newRole : UserRole)
  | changed (operator : String) (args : Args) (user : User) (newRole : UserRole)

structure State where
  db : Db
  requests : Nat → Request
  boots : Nat → Boot
  scripts : Nat → Script

inductive RequestAct where
  | arrive (q : RoleRequest) (now : Time)
  | check
  | update
  | audit
  | commit
  | abort

inductive BootAct where
  | start (operator : String) (adminPhoneHashes : Option String)
  | lookup
  | promote
  | log
  | crash

inductive ScriptAct where
  | start (operator : String) (argv : List String)
  | change
  | record
  | stop

/-- `rest` is any write of the rest of the program. -/
inductive Act where
  | rest (db : Db)
  | request (r : Nat) (a : RequestAct)
  | boot (k : Nat) (a : BootAct)
  | script (k : Nat) (a : ScriptAct)

/-- The role a user has in the store, or the default of the column. -/
def storedRole (db : Db) (userId : Id) : UserRole := (findUser userId db).elim .user (·.role)

/-- What the rest of the program makes of the store: nothing else writes a role. -/
def keepRoles (db db' : Db) : Db :=
  { db' with users := db'.users.map fun u => { u with role := storedRole db u.id } }

def setRole (userId : Id) (role : UserRole) (db : Db) : Db :=
  updateUser userId (fun u => { u with role }) db

/-- The role the script is to give. -/
def scriptRole (args : Args) : Option UserRole :=
  match args.command with
  | .promote => args.role.elim (some .admin) parseRole
  | .demote => args.role.elim (some .user) parseRole

section

variable (env : AuthEnv) (verifyAsync : String → Option AccessTokenPayload)
variable (normalise : String → String)

/-- A step of `changeUserRole`. -/
def requestStep (db : Db) : Request → RequestAct → Request × Db
  | .idle, .arrive q now =>
      match guards env verifyAsync [.admin] now q.authorization db with
      | .error _ => (.idle, db)
      | .ok actor => (.authorized actor q, db)
  | .authorized actor q, .check =>
      if actor.role ≠ .admin then (.idle, db)
      else
        match changeRoleCheck q.targetUserId q.newRole db with
        | .error _ => (.idle, db)
        | .ok target => (.checked actor q target, db)
  | .checked actor q target, .update =>
      match recordFound (findUser q.targetUserId db).isSome with
      | .error _ => (.idle, db)
      | .ok () => (.updated actor q target, db)
  | .updated actor q target, .audit =>
      (.audited actor q target,
        auditWrite (roleAudit actor.userId q.targetUserId target.role q.newRole q.reason) db)
  | .audited _ q _, .commit => (.idle, setRole q.targetUserId q.newRole db)
  | _, .abort => (.idle, db)
  | x, _ => (x, db)

/-- A step of `onApplicationBootstrap`. -/
def bootStep (db : Db) : Boot → BootAct → Boot × Db
  | .idle, .start operator raw => (.running operator (listedHashes normalise raw), db)
  | .running operator (phoneHash :: rest), .lookup =>
      match db.users.find? (·.phoneHash == phoneHash) with
      | none => (.running operator rest, db)
      | some user =>
          if user.role = .admin then (.running operator rest, db)
          else (.found operator user rest, db)
  | .found operator user rest, .promote =>
      match recordFound (findUser user.id db).isSome with
      | .error _ => (.idle, db)
      | .ok () => (.promoted operator user rest, setRole user.id .admin db)
  | .promoted operator user rest, .log =>
      (.running operator rest, auditWrite (bootstrapAudit operator user) db)
  | _, .crash => (.idle, db)
  | x, _ => (x, db)

/-- A step of the admin script. -/
def scriptStep (db : Db) : Script → ScriptAct → Script × Db
  | .idle, .start operator argv =>
      match parseArgs argv with
      | .error _ => (.idle, db)
      | .ok args =>
          match db.users.find? (·.phoneHash == hashPhone env args.phone), scriptRole args with
          | some user, some newRole =>
              if newRole = user.role then (.idle, db) else (.found operator args user newRole, db)
          | _, _ => (.idle, db)
  | .found operator args user newRole, .change =>
      match recordFound (findUser user.id db).isSome with
      | .error _ => (.idle, db)
      | .ok () => (.changed operator args user newRole, setRole user.id newRole db)
  | .changed operator args user newRole, .record =>
      (.idle, auditWrite (cliAudit operator user newRole args.reason) db)
  | _, .stop => (.idle, db)
  | x, _ => (x, db)

def step (s : State) : Act → State
  | .rest db => { s with db := keepRoles s.db db }
  | .request r a =>
      let (x, db) := requestStep env verifyAsync s.db (s.requests r) a
      { s with db, requests := Function.update s.requests r x }
  | .boot k a =>
      let (x, db) := bootStep normalise s.db (s.boots k) a
      { s with db, boots := Function.update s.boots k x }
  | .script k a =>
      let (x, db) := scriptStep env s.db (s.scripts k) a
      { s with db, scripts := Function.update s.scripts k x }

end

def start (db : Db) : State :=
  { db, requests := fun _ => .idle, boots := fun _ => .idle, scripts := fun _ => .idle }

/-! ## Without interruption -/

theorem findUser_isSome {db : Db} {u : User} (hu : u ∈ db.users) : (findUser u.id db).isSome = true := by
  rw [findUser, List.find?_isSome]
  exact ⟨u, hu, beq_self_eq_true _⟩

section

variable (env : AuthEnv) (verifyAsync : String → Option AccessTokenPayload)
variable (normalise : String → String)

/-- A request that runs alone is `changeUserRole` behind the guards. -/
theorem uninterrupted_request (s : State) (r : Nat) (q : RoleRequest) (now : Time)
    (hidle : s.requests r = .idle) :
    let t := run (step env verifyAsync normalise) s
      ([.arrive q now, .check, .update, .audit, .commit].map (.request r))
    t.requests r = .idle ∧
      t.db = match guards env verifyAsync [.admin] now q.authorization s.db with
        | .error _ => s.db
        | .ok actor => (Roles.changeUserRole actor.userId actor.role q.targetUserId q.newRole
            q.reason s.db).2 := by
  simp only [List.map_cons, List.map_nil, run_cons, run_nil]
  cases hguards : guards env verifyAsync [.admin] now q.authorization s.db with
  | error e => simp [step, hidle, requestStep, hguards]
  | ok actor =>
      by_cases hrole : actor.role = .admin
      · cases hcheck : changeRoleCheck q.targetUserId q.newRole s.db with
        | error e => simp [step, hidle, requestStep, hguards, hrole, hcheck, Roles.changeUserRole]
        | ok target =>
            have hfound : (findUser q.targetUserId s.db).isSome = true := by
              unfold changeRoleCheck at hcheck
              split at hcheck
              · cases hcheck
              · rename_i hfind
                rw [hfind]
                rfl
            simp [step, hidle, requestStep, hguards, hrole, hcheck, Roles.changeUserRole, hfound,
              recordFound]
            rfl
      · simp [step, hidle, requestStep, hguards, hrole, Roles.changeUserRole]

/-- The steps for one hash. -/
def bootEntry : List BootAct := [.lookup, .promote, .log]

theorem uninterrupted_entry (s : State) (k : Nat) (operator phoneHash : String) (rest : List String)
    (hrunning : s.boots k = .running operator (phoneHash :: rest)) :
    let t := run (step env verifyAsync normalise) s (bootEntry.map (.boot k))
    t.boots k = .running operator rest ∧ t.db = Roles.promoteListed operator s.db phoneHash := by
  simp only [bootEntry, List.map_cons, List.map_nil, run_cons, run_nil]
  unfold Roles.promoteListed
  cases hfind : s.db.users.find? (·.phoneHash == phoneHash) with
  | none => simp [step, hrunning, bootStep, hfind]
  | some u =>
      by_cases hadmin : u.role = .admin
      · simp [step, hrunning, bootStep, hfind, hadmin]
      · have hfound := findUser_isSome (List.mem_of_find?_eq_some hfind)
        simp [step, hrunning, bootStep, hfind, hadmin, hfound, recordFound]
        rfl

/-- A start of the process that runs alone is `onApplicationBootstrap`. -/
theorem uninterrupted_boot (s : State) (k : Nat) (operator : String) (raw : Option String)
    (hidle : s.boots k = .idle) :
    (run (step env verifyAsync normalise) s (.boot k (.start operator raw) ::
      (listedHashes normalise raw).flatMap fun _ => bootEntry.map (.boot k))).db =
        Roles.onApplicationBootstrap normalise operator raw s.db := by
  have hloop : ∀ (hashes : List String) (t : State), t.boots k = .running operator hashes →
      (run (step env verifyAsync normalise) t
        (hashes.flatMap fun _ => bootEntry.map (.boot k))).db =
          hashes.foldl (Roles.promoteListed operator) t.db := by
    intro hashes
    induction hashes with
    | nil => intro t _; rfl
    | cons h hashes ih =>
        intro t ht
        obtain ⟨hboot, hdb⟩ := uninterrupted_entry env verifyAsync normalise t k operator h hashes ht
        rw [List.flatMap_cons, run_append, ih _ hboot, List.foldl_cons, hdb]
  rw [run_cons, hloop (listedHashes normalise raw)]
  · simp only [step, hidle, bootStep]
    rfl
  · simp [step, hidle, bootStep]

/-- A call of the script that runs alone is its `main`. -/
theorem uninterrupted_script (s : State) (k : Nat) (operator : String) (argv : List String)
    (hidle : s.scripts k = .idle) :
    let t := run (step env verifyAsync normalise) s
      ([.start operator argv, .change, .record].map (.script k))
    t.scripts k = .idle ∧ t.db = (Users.PhoneHash.main env operator argv s.db).2 := by
  simp only [List.map_cons, List.map_nil, run_cons, run_nil]
  unfold Users.PhoneHash.main
  cases hargs : parseArgs argv with
  | error e => simp [step, hidle, scriptStep, hargs]
  | ok args =>
      cases hfind : s.db.users.find? (·.phoneHash == hashPhone env args.phone) with
      | none => simp [step, hidle, scriptStep, hargs, hfind]
      | some u =>
          have hfound := findUser_isSome (List.mem_of_find?_eq_some hfind)
          have hmain : ∀ verb default, scriptRole args = args.role.elim (some default) parseRole →
              (step env verifyAsync normalise (step env verifyAsync normalise
                (step env verifyAsync normalise s (.script k (.start operator argv)))
                (.script k .change)) (.script k .record)).scripts k = .idle ∧
              (step env verifyAsync normalise (step env verifyAsync normalise
                (step env verifyAsync normalise s (.script k (.start operator argv)))
                (.script k .change)) (.script k .record)).db =
                  (Users.PhoneHash.changeRole operator verb default args u s.db).2 := by
            intro verb default hrole
            unfold Users.PhoneHash.changeRole
            cases hnew : scriptRole args with
            | none =>
                rw [hnew] at hrole
                simp [step, hidle, scriptStep, hargs, hfind, hnew, ← hrole]
            | some newRole =>
                rw [hnew] at hrole
                by_cases hsame : newRole = u.role
                · simp [step, hidle, scriptStep, hargs, hfind, hnew, ← hrole, hsame]
                · simp [step, hidle, scriptStep, hargs, hfind, hnew, ← hrole, hsame, hfound,
                    recordFound]
                  rfl
          cases hcommand : args.command with
          | demote =>
              simp only [hfind, hcommand]
              exact hmain "demoted" .user (by simp only [scriptRole, hcommand])
          | promote =>
              simp only [hfind, hcommand]
              exact hmain "promoted" .admin (by simp only [scriptRole, hcommand])

end

/-! ## The rest of the program -/

/-- Whoever is in the second store has the role the first one has for that user. -/
def SameRoles (db db' : Db) : Prop := ∀ v ∈ db'.users, v.role = storedRole db v.id

theorem SameRoles.keepRoles {db db' : Db} (h : SameRoles db db') : keepRoles db db' = db' := by
  have husers : (db'.users.map fun u => { u with role := storedRole db u.id }) = db'.users := by
    refine (List.map_congr_left ?_).trans (List.map_id _)
    intro u hu
    rw [← h u hu]
    rfl
  unfold Provenance.keepRoles
  rw [husers]

theorem storedRole_of_mem {db : Db} (hk : Rows.Unique (·.id) db.users) {u : User} (hu : u ∈ db.users) :
    storedRole db u.id = u.role := by
  rw [storedRole, findUser, hk.find?_eq hu]
  rfl

/-- Every row goes back to one with its id and its role. -/
def Kept (db db' : Db) : Prop := ∀ v ∈ db'.users, ∃ u ∈ db.users, u.id = v.id ∧ v.role = u.role

theorem Kept.sameRoles {db db' : Db} (hk : Rows.Unique (·.id) db.users) (h : Kept db db') :
    SameRoles db db' := by
  intro v hv
  obtain ⟨u, hu, hid, hrole⟩ := h v hv
  rw [← hid, storedRole_of_mem hk hu]
  exact hrole

theorem kept_of_users {db db' : Db} (h : db'.users = db.users) : Kept db db' :=
  fun v hv => ⟨v, h ▸ hv, rfl, rfl⟩

theorem Kept.trans {db db' db'' : Db} (h : Kept db db') (h' : Kept db' db'') : Kept db db'' := by
  intro w hw
  obtain ⟨v, hv, hvw, hrole⟩ := h' w hw
  obtain ⟨u, hu, huv, hrole'⟩ := h v hv
  exact ⟨u, hu, huv.trans hvw, hrole.trans hrole'⟩

theorem kept_updateMany {db db' : Db} {p : User → Bool} {f : User → User}
    (husers : db'.users = Rows.updateMany p f db.users) (hf : ∀ u, (f u).id = u.id ∧ (f u).role = u.role) :
    Kept db db' := by
  intro v hv
  rw [husers] at hv
  obtain ⟨u, hu, rfl⟩ := Rows.mem_updateMany.mp hv
  refine ⟨u, hu, ?_⟩
  split
  · exact ⟨(hf u).1.symm, (hf u).2⟩
  · exact ⟨rfl, rfl⟩

theorem lift_kept (at_ : Time) (by_ : Option Id) (reason : Option String) (sid userId : Id)
    (row : AdminAuditLog) (db : Db) :
    Kept db (auditWrite row (liftSuspension at_ by_ reason sid userId db)) :=
  kept_updateMany (f := fun u => { u with status := .active }) rfl fun _ => ⟨rfl, rfl⟩

theorem suspendUser_kept (now : Time) (sid actor : Id) (role : UserRole) (target : Id)
    (dto : SuspendUserDto) (db : Db) : Kept db (suspendUser now sid actor role target dto db).2 := by
  unfold suspendUser
  split
  · exact kept_of_users rfl
  · split
    · exact kept_of_users rfl
    · rename_i htx
      obtain ⟨_, _, husers, _⟩ := Agreement.suspendTx_ok htx
      exact kept_updateMany husers fun _ => ⟨rfl, rfl⟩

theorem unsuspendUser_kept (now : Time) (actor : Id) (role : UserRole) (target : Id)
    (reason : Option String) (db : Db) : Kept db (unsuspendUser now actor role target reason db).2 := by
  unfold unsuspendUser
  split
  · exact kept_of_users rfl
  · split
    · exact kept_of_users rfl
    · exact lift_kept _ _ _ _ _ _ db

theorem runReactivation_kept (now : Time) (fails : Id → Bool) (db : Db) :
    Kept db (runReactivation now fails db).2 := by
  have hloop : ∀ (rest : List UserSuspension) (acc : Nat × Db), Kept db acc.2 →
      Kept db (rest.foldl (fun (acc : Nat × Db) suspension =>
        if fails suspension.id then acc
        else (acc.1 + 1, reactivateOne suspension.id suspension.userId
          (suspension.expiresAt.getD now) now acc.2)) acc).2 := by
    intro rest
    induction rest with
    | nil => exact fun acc h => h
    | cons x rest ih =>
        intro acc h
        rw [List.foldl_cons]
        apply ih
        split
        · exact h
        · exact h.trans (lift_kept _ _ _ _ _ _ acc.2)
  exact hloop _ (0, db) (kept_of_users rfl)

/-- A login finds a user, moves a hash, or adds a user with the default role. -/
theorem verifyOtp_sameRoles (env : AuthEnv) (now : Time) (phone code : String) (sm : SessionMeta)
    (d : Draws) {db : Db} (hk : Rows.Unique (·.id) db.users) :
    SameRoles db (verifyOtp env now phone code sm d db).2 := by
  have hlogin : ∀ db₁ : Db, db₁.users = db.users → ∀ phone phoneHash,
      SameRoles db (findOrCreateUser env phone phoneHash d db₁).2 := by
    intro db₁ hsame phone phoneHash
    unfold findOrCreateUser
    split
    · exact (kept_of_users hsame).sameRoles hk
    · split
      · refine Kept.sameRoles hk ((kept_of_users hsame).trans ?_)
        exact kept_updateMany (f := fun u => { u with phoneHash }) rfl fun _ => ⟨rfl, rfl⟩
      · split
        · exact (kept_of_users hsame).sameRoles hk
        · rename_i hfresh
          intro v hv
          rcases List.mem_append.mp hv with hv | hv
          · exact (kept_of_users hsame).sameRoles hk v hv
          · obtain rfl := List.mem_singleton.mp hv
            have hnone : findUser d.userId db = none := by
              rw [findUser, List.find?_eq_none]
              intro u hu he
              exact hfresh (List.any_eq_true.mpr ⟨u, hsame ▸ hu, he⟩)
            rw [storedRole, hnone]
            rfl
  obtain ⟨otps, hotps⟩ := otpVerify_frame env now (normalizePhone phone) code db
  have hsame : (otpVerify env now (normalizePhone phone) code db).2.users = db.users := by rw [hotps]
  unfold verifyOtp
  dsimp only
  split
  · rename_i hv
    rw [hv] at hsame
    exact (kept_of_users hsame).sameRoles hk
  · rename_i db₁ hv
    rw [hv] at hsame
    have hu := hlogin db₁ hsame (normalizePhone phone)
      (env.hmacSha256 (normalizePhone phone) env.phoneHashPepper)
    split
    · rename_i hf
      rw [hf] at hu
      exact hu
    · rename_i userId db₂ hf
      rw [hf] at hu
      intro v hv
      rw [(issueUnlessSuspended_same env now userId sm d none db₂).1] at hv
      exact hu v hv

end Birgap.Moderation.Provenance
