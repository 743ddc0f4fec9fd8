import Birgap.Moderation.RoleWrites

/-!
# Where a role comes from

A role is traced back, through the users who gave it, to the start or to an operator of the
server. Users without a role cannot get one among themselves.
-/
namespace Birgap.Moderation.Provenance

set_option autoImplicit false

open Birgap.Common Birgap.Lib Birgap.Lib.Run Birgap.Moderation Birgap.Auth Birgap.Auth.Guard
open Birgap.Moderation.Audited (changeRoleCheck recordFound)
open Birgap.Moderation.Roles (listedHashes)
open Birgap.Users.PhoneHash (hashPhone parseArgs)

/-! ## Where a role can come from -/

variable (env : AuthEnv) (verifyAsync : String → Option AccessTokenPayload)
variable (normalise : String → String)

/-- The user has a live session in the store and is an admin there, not a suspended one. -/
def LiveAdmin (now : Time) (db : Db) (actor : AuthenticatedUser) : Prop :=
  (∃ session ∈ db.refreshTokens, session.id = actor.sessionId ∧ session.userId = actor.userId ∧
    session.revokedAt = none ∧ now < session.expiresAt) ∧
  ∃ u ∈ db.users, u.id = actor.userId ∧ u.role = .admin ∧ u.status ≠ .suspended

/-- A start of the process has found the user under one of the hashes it was given. -/
def Listed (s : State) (acts : List Act) (k : Nat) (user : User) : Prop :=
  ∃ p₁ p₂ rest operator raw,
    acts = p₁ ++ .boot k (.start operator raw) :: p₂ ++ .boot k .lookup :: rest ∧
    user.phoneHash ∈ listedHashes normalise raw ∧
    user ∈ (run (step env verifyAsync normalise) s
      (p₁ ++ .boot k (.start operator raw) :: p₂)).db.users

/-- The script was called with the number of the user and a command that gives the role. -/
def Scripted (s : State) (acts : List Act) (k : Nat) (user : User) (newRole : UserRole) : Prop :=
  ∃ p rest operator argv args, acts = p ++ .script k (.start operator argv) :: rest ∧
    parseArgs argv = .ok args ∧ scriptRole args = some newRole ∧
    user ∈ (run (step env verifyAsync normalise) s p).db.users ∧
    user.phoneHash = hashPhone env args.phone

/-- The role goes back to the state `s`, to a start of the process, to the script, or to a
request of an admin whose own role goes back so. -/
inductive Granted (s : State) : List Act → Id → UserRole → Prop where
  | founder {acts : List Act} {u : User} (hu : u ∈ s.db.users) : Granted s acts u.id u.role
  | listed {acts : List Act} {k : Nat} {user : User}
      (h : Listed env verifyAsync normalise s acts k user) : Granted s acts user.id .admin
  | scripted {acts : List Act} {k : Nat} {user : User} {newRole : UserRole}
      (h : Scripted env verifyAsync normalise s acts k user newRole) : Granted s acts user.id newRole
  | requested {acts p₁ p₂ rest : List Act} {r : Nat} {q : RoleRequest} {now : Time}
      {actor : AuthenticatedUser} {target : User}
      (hacts : acts = p₁ ++ .request r (.arrive q now) :: p₂ ++ .request r .check :: rest)
      (hguards : guards env verifyAsync [.admin] now q.authorization
        (run (step env verifyAsync normalise) s p₁).db = .ok actor)
      (hlive : LiveAdmin now (run (step env verifyAsync normalise) s p₁).db actor)
      (hactor : Granted s p₁ actor.userId .admin)
      (htarget : target ∈ (run (step env verifyAsync normalise) s
        (p₁ ++ .request r (.arrive q now) :: p₂)).db.users)
      (hid : target.id = q.targetUserId)
      (hstatus : target.status = .suspended → q.newRole = .user) :
      Granted s acts q.targetUserId q.newRole

/-- Every role but the default one is granted. -/
def RolesGranted (s : State) (acts : List Act) (db : Db) : Prop :=
  ∀ u ∈ db.users, u.role ≠ .user → Granted env verifyAsync normalise s acts u.id u.role

def Authorized (s : State) (acts : List Act) (r : Nat) (actor : AuthenticatedUser)
    (q : RoleRequest) : Prop :=
  ∃ p rest now, acts = p ++ .request r (.arrive q now) :: rest ∧
    guards env verifyAsync [.admin] now q.authorization
      (run (step env verifyAsync normalise) s p).db = .ok actor ∧
    LiveAdmin now (run (step env verifyAsync normalise) s p).db actor ∧
    Granted env verifyAsync normalise s p actor.userId .admin

def Checked (s : State) (acts : List Act) (r : Nat) (actor : AuthenticatedUser) (q : RoleRequest)
    (target : User) : Prop :=
  ∃ p rest, acts = p ++ .request r .check :: rest ∧
    Authorized env verifyAsync normalise s p r actor q ∧
    target ∈ (run (step env verifyAsync normalise) s p).db.users ∧ target.id = q.targetUserId ∧
    (target.status = .suspended → q.newRole = .user)

/-- The hashes still to come were given to this start of the process. -/
def Given (acts : List Act) (k : Nat) (hashes : List String) : Prop :=
  ∃ p rest operator raw, acts = p ++ .boot k (.start operator raw) :: rest ∧
    ∀ h ∈ hashes, h ∈ listedHashes normalise raw

def RequestTraced (s : State) (acts : List Act) (r : Nat) : Request → Prop
  | .idle => True
  | .authorized actor q => Authorized env verifyAsync normalise s acts r actor q
  | .checked actor q target => Checked env verifyAsync normalise s acts r actor q target
  | .updated actor q target => Checked env verifyAsync normalise s acts r actor q target
  | .audited actor q target => Checked env verifyAsync normalise s acts r actor q target

def BootTraced (s : State) (acts : List Act) (k : Nat) : Boot → Prop
  | .idle => True
  | .running _ hashes => Given normalise acts k hashes
  | .found _ user rest =>
      Listed env verifyAsync normalise s acts k user ∧ Given normalise acts k rest
  | .promoted _ user rest =>
      Listed env verifyAsync normalise s acts k user ∧ Given normalise acts k rest

def ScriptTraced (s : State) (acts : List Act) (k : Nat) : Script → Prop
  | .idle => True
  | .found _ _ user newRole => Scripted env verifyAsync normalise s acts k user newRole
  | .changed _ _ user newRole => Scripted env verifyAsync normalise s acts k user newRole

/-- Whatever is under way goes back to acts of the run, and so does every role. -/
structure Traced (s : State) (acts : List Act) (t : State) : Prop where
  roles : RolesGranted env verifyAsync normalise s acts t.db
  requests : ∀ r, RequestTraced env verifyAsync normalise s acts r (t.requests r)
  boots : ∀ k, BootTraced env verifyAsync normalise s acts k (t.boots k)
  scripts : ∀ k, ScriptTraced env verifyAsync normalise s acts k (t.scripts k)

variable {env : AuthEnv} {verifyAsync : String → Option AccessTokenPayload}
variable {normalise : String → String}

/-! ## What goes on is not forgotten -/

theorem Listed.snoc {s : State} {acts : List Act} {k : Nat} {user : User}
    (h : Listed env verifyAsync normalise s acts k user) (a : Act) :
    Listed env verifyAsync normalise s (acts ++ [a]) k user := by
  obtain ⟨p₁, p₂, rest, operator, raw, rfl, h⟩ := h
  exact ⟨p₁, p₂, rest ++ [a], operator, raw, by simp, h⟩

theorem Scripted.snoc {s : State} {acts : List Act} {k : Nat} {user : User} {newRole : UserRole}
    (h : Scripted env verifyAsync normalise s acts k user newRole) (a : Act) :
    Scripted env verifyAsync normalise s (acts ++ [a]) k user newRole := by
  obtain ⟨p, rest, operator, argv, args, rfl, h⟩ := h
  exact ⟨p, rest ++ [a], operator, argv, args, by simp, h⟩

theorem Granted.snoc {s : State} {acts : List Act} {id : Id} {role : UserRole}
    (h : Granted env verifyAsync normalise s acts id role) (a : Act) :
    Granted env verifyAsync normalise s (acts ++ [a]) id role := by
  cases h with
  | founder hu => exact .founder hu
  | listed h => exact .listed (h.snoc a)
  | scripted h => exact .scripted (h.snoc a)
  | @requested _ p₁ p₂ rest r q now actor target hacts hguards hlive hactor htarget hid hstatus =>
      have hlater : acts ++ [a] =
          p₁ ++ .request r (.arrive q now) :: p₂ ++ .request r .check :: (rest ++ [a]) := by
        rw [hacts, List.append_assoc, List.cons_append]
      exact .requested hlater hguards hlive hactor htarget hid hstatus

theorem Authorized.snoc {s : State} {acts : List Act} {r : Nat} {actor : AuthenticatedUser}
    {q : RoleRequest} (h : Authorized env verifyAsync normalise s acts r actor q) (a : Act) :
    Authorized env verifyAsync normalise s (acts ++ [a]) r actor q := by
  obtain ⟨p, rest, now, rfl, h⟩ := h
  exact ⟨p, rest ++ [a], now, by simp, h⟩

theorem Checked.snoc {s : State} {acts : List Act} {r : Nat} {actor : AuthenticatedUser}
    {q : RoleRequest} {target : User}
    (h : Checked env verifyAsync normalise s acts r actor q target) (a : Act) :
    Checked env verifyAsync normalise s (acts ++ [a]) r actor q target := by
  obtain ⟨p, rest, rfl, h⟩ := h
  exact ⟨p, rest ++ [a], by simp, h⟩

theorem Given.snoc {acts : List Act} {k : Nat} {hashes : List String}
    (h : Given normalise acts k hashes) (a : Act) : Given normalise (acts ++ [a]) k hashes := by
  obtain ⟨p, rest, operator, raw, rfl, h⟩ := h
  exact ⟨p, rest ++ [a], operator, raw, by simp, h⟩

theorem RequestTraced.snoc {s : State} {acts : List Act} {r : Nat} {x : Request}
    (h : RequestTraced env verifyAsync normalise s acts r x) (a : Act) :
    RequestTraced env verifyAsync normalise s (acts ++ [a]) r x := by
  cases x with
  | idle => trivial
  | authorized actor q => exact Authorized.snoc h a
  | checked actor q target => exact Checked.snoc h a
  | updated actor q target => exact Checked.snoc h a
  | audited actor q target => exact Checked.snoc h a

theorem BootTraced.snoc {s : State} {acts : List Act} {k : Nat} {x : Boot}
    (h : BootTraced env verifyAsync normalise s acts k x) (a : Act) :
    BootTraced env verifyAsync normalise s (acts ++ [a]) k x := by
  cases x with
  | idle => trivial
  | running operator hashes => exact Given.snoc h a
  | found operator user rest => exact ⟨h.1.snoc a, h.2.snoc a⟩
  | promoted operator user rest => exact ⟨h.1.snoc a, h.2.snoc a⟩

theorem ScriptTraced.snoc {s : State} {acts : List Act} {k : Nat} {x : Script}
    (h : ScriptTraced env verifyAsync normalise s acts k x) (a : Act) :
    ScriptTraced env verifyAsync normalise s (acts ++ [a]) k x := by
  cases x with
  | idle => trivial
  | found operator args user newRole => exact Scripted.snoc h a
  | changed operator args user newRole => exact Scripted.snoc h a

theorem RolesGranted.snoc {s : State} {acts : List Act} {db : Db}
    (h : RolesGranted env verifyAsync normalise s acts db) (a : Act) :
    RolesGranted env verifyAsync normalise s (acts ++ [a]) db :=
  fun u hu hrole => (h u hu hrole).snoc a

/-! ## The guards and the checks -/

/-- Who passes the guards of an admin endpoint. -/
theorem guards_ok {now : Time} {authorization : Option String} {db : Db} {actor : AuthenticatedUser}
    (h : guards env verifyAsync [.admin] now authorization db = .ok actor) : LiveAdmin now db actor := by
  unfold guards at h
  split at h
  · cases h
  · rename_i user huser
    have hadmin : user.role = .admin := by
      unfold adminRoleGuard at h
      by_cases hr : user.role = .admin
      · exact hr
      · have hnot : [UserRole.admin].contains user.role = false := by
          rw [List.contains_cons, List.contains_nil, Bool.or_false, beq_eq_false_iff_ne]
          exact hr
        simp only [List.isEmpty_cons, Bool.false_eq_true, if_false, hnot] at h
        cases h
    have hactor : user = actor := by
      split at h
      · cases h
      · exact Except.ok.inj h
    subst hactor
    unfold canActivate at huser
    split at huser
    · cases huser
    split at huser
    · cases huser
    split at huser
    · cases huser
    rename_i payload _ _ session hsession
    split at huser
    · cases huser
    rename_i u hu
    split at huser
    · cases huser
    rename_i hsound
    split at huser
    · cases huser
    rename_i hactive
    obtain rfl := Except.ok.inj huser
    simp only [not_or, not_not, not_le, Bool.not_eq_true, Option.isSome_eq_false_iff,
      Option.isNone_iff_eq_none] at hsound
    obtain ⟨hsub, hrevoked, hexpires⟩ := hsound
    obtain ⟨hmem, hid⟩ := findUser_some hu
    refine ⟨⟨session, List.mem_of_find?_eq_some hsession, ?_, hsub, hrevoked, hexpires⟩,
      u, hmem, hid.trans hsub, hadmin, hactive⟩
    simpa using List.find?_some hsession

theorem changeRoleCheck_ok {targetUserId : Id} {newRole : UserRole} {db : Db} {target : User}
    (h : changeRoleCheck targetUserId newRole db = .ok target) :
    target ∈ db.users ∧ target.id = targetUserId ∧ (target.status = .suspended → newRole = .user) := by
  unfold changeRoleCheck at h
  split at h
  · cases h
  · rename_i user hfind
    split at h
    · cases h
    · rename_i hallowed
      obtain rfl := Except.ok.inj h
      obtain ⟨hmem, hid⟩ := findUser_some hfind
      refine ⟨hmem, hid, ?_⟩
      intro hs
      by_contra hne
      exact hallowed ⟨hs, hne⟩

theorem Checked.granted {s : State} {acts : List Act} {r : Nat} {actor : AuthenticatedUser}
    {q : RoleRequest} {target : User}
    (h : Checked env verifyAsync normalise s acts r actor q target) :
    Granted env verifyAsync normalise s acts q.targetUserId q.newRole := by
  obtain ⟨_, rest, rfl, ⟨p₁, p₂, now, rfl, hguards, hlive, hactor⟩, htarget, hid, hstatus⟩ := h
  exact .requested rfl hguards hlive hactor htarget hid hstatus

/-! ## Every step -/

theorem RolesGranted.setRole {s : State} {acts : List Act} {db : Db} {id : Id} {role : UserRole}
    (h : RolesGranted env verifyAsync normalise s acts db)
    (hgranted : Granted env verifyAsync normalise s acts id role) :
    RolesGranted env verifyAsync normalise s acts (setRole id role db) := by
  intro v hv hrole
  rcases mem_updateUser.mp hv with ⟨u, hu, hid, rfl⟩ | ⟨hv, _⟩
  · show Granted env verifyAsync normalise s acts u.id role
    rw [hid]
    exact hgranted
  · exact h v hv hrole

/-- The rest of the program hands on the roles it finds. -/
theorem RolesGranted.rest {s : State} {acts : List Act} {db : Db}
    (h : RolesGranted env verifyAsync normalise s acts db) (db' : Db) :
    RolesGranted env verifyAsync normalise s acts (keepRoles db db') := by
  intro v hv hrole
  obtain ⟨u, _, rfl⟩ := List.mem_map.mp hv
  unfold storedRole at hrole ⊢
  cases hfind : findUser u.id db with
  | none =>
      rw [hfind] at hrole
      exact absurd rfl hrole
  | some w =>
      rw [hfind] at hrole
      obtain ⟨hw, hid⟩ := findUser_some hfind
      show Granted env verifyAsync normalise s acts u.id w.role
      rw [← hid]
      exact h w hw hrole

theorem requestStep_traced {s : State} {acts : List Act} {db : Db} (r : Nat) (x : Request)
    (a : RequestAct) (hdb : db = (run (step env verifyAsync normalise) s acts).db)
    (hroles : RolesGranted env verifyAsync normalise s acts db)
    (hx : RequestTraced env verifyAsync normalise s acts r x) :
    RequestTraced env verifyAsync normalise s (acts ++ [.request r a]) r
        (requestStep env verifyAsync db x a).1 ∧
      RolesGranted env verifyAsync normalise s (acts ++ [.request r a])
        (requestStep env verifyAsync db x a).2 := by
  have hroles' := hroles.snoc (.request r a)
  have hx' := hx.snoc (.request r a)
  fun_cases requestStep env verifyAsync db x a with
  | case1 q now e hguards => exact ⟨trivial, hroles'⟩
  | case2 q now actor hguards =>
      have hlive := guards_ok hguards
      obtain ⟨u, hu, hid, hadmin, _⟩ := hlive.2
      refine ⟨⟨acts, [], now, rfl, hdb ▸ hguards, hdb ▸ hlive, ?_⟩, hroles'⟩
      rw [← hid, ← hadmin]
      exact hroles u hu (by rw [hadmin]; decide)
  | case3 actor q hadmin => exact ⟨trivial, hroles'⟩
  | case4 actor q hadmin e hcheck => exact ⟨trivial, hroles'⟩
  | case5 actor q hadmin target hcheck =>
      obtain ⟨htarget, hid, hstatus⟩ := changeRoleCheck_ok hcheck
      exact ⟨⟨acts, [], rfl, hx, hdb ▸ htarget, hid, hstatus⟩, hroles'⟩
  | case6 => exact ⟨trivial, hroles'⟩
  | case7 => exact ⟨hx', hroles'⟩
  | case8 => exact ⟨hx', hroles'⟩
  | case9 actor q target => exact ⟨trivial, hroles'.setRole (Checked.granted hx')⟩
  | case10 => exact ⟨trivial, hroles'⟩
  | case11 => exact ⟨hx', hroles'⟩

theorem Given.tail {acts : List Act} {k : Nat} {h : String} {hashes : List String}
    (hgiven : Given normalise acts k (h :: hashes)) : Given normalise acts k hashes := by
  obtain ⟨p, rest, operator, raw, hacts, hin⟩ := hgiven
  exact ⟨p, rest, operator, raw, hacts, fun x hx => hin x (List.mem_cons_of_mem _ hx)⟩

theorem bootStep_traced {s : State} {acts : List Act} {db : Db} (k : Nat) (x : Boot)
    (a : BootAct) (hdb : db = (run (step env verifyAsync normalise) s acts).db)
    (hroles : RolesGranted env verifyAsync normalise s acts db)
    (hx : BootTraced env verifyAsync normalise s acts k x) :
    BootTraced env verifyAsync normalise s (acts ++ [.boot k a]) k (bootStep normalise db x a).1 ∧
      RolesGranted env verifyAsync normalise s (acts ++ [.boot k a]) (bootStep normalise db x a).2 := by
  have hroles' := hroles.snoc (.boot k a)
  have hx' := hx.snoc (.boot k a)
  fun_cases bootStep normalise db x a with
  | case1 operator raw => exact ⟨⟨acts, [], operator, raw, rfl, fun h hh => hh⟩, hroles'⟩
  | case2 operator phoneHash rest hfind => exact ⟨Given.tail hx', hroles'⟩
  | case3 operator phoneHash rest user hfind hadmin => exact ⟨Given.tail hx', hroles'⟩
  | case4 operator phoneHash rest user hfind hadmin =>
      obtain ⟨p, q, operator', raw, hacts, hin⟩ := hx
      have hhash : user.phoneHash = phoneHash := by simpa using List.find?_some hfind
      refine ⟨⟨⟨p, q, [], operator', raw, by rw [hacts], ?_, ?_⟩, Given.tail hx'⟩, hroles'⟩
      · rw [hhash]
        exact hin phoneHash List.mem_cons_self
      · rw [← hacts, ← hdb]
        exact List.mem_of_find?_eq_some hfind
  | case5 => exact ⟨trivial, hroles'⟩
  | case6 operator user rest => exact ⟨hx', hroles'.setRole (.listed hx'.1)⟩
  | case7 operator user rest => exact ⟨hx'.2, hroles'⟩
  | case8 => exact ⟨trivial, hroles'⟩
  | case9 => exact ⟨hx', hroles'⟩

theorem scriptStep_traced {s : State} {acts : List Act} {db : Db} (k : Nat) (x : Script)
    (a : ScriptAct) (hdb : db = (run (step env verifyAsync normalise) s acts).db)
    (hroles : RolesGranted env verifyAsync normalise s acts db)
    (hx : ScriptTraced env verifyAsync normalise s acts k x) :
    ScriptTraced env verifyAsync normalise s (acts ++ [.script k a]) k (scriptStep env db x a).1 ∧
      RolesGranted env verifyAsync normalise s (acts ++ [.script k a]) (scriptStep env db x a).2 := by
  have hroles' := hroles.snoc (.script k a)
  have hx' := hx.snoc (.script k a)
  fun_cases scriptStep env db x a with
  | case1 => exact ⟨trivial, hroles'⟩
  | case2 => exact ⟨trivial, hroles'⟩
  | case3 operator argv args hargs newRole u hrole hfind hsame =>
      refine ⟨⟨acts, [], operator, argv, args, rfl, hargs, hrole, ?_, ?_⟩, hroles'⟩
      · exact hdb ▸ List.mem_of_find?_eq_some hfind
      · simpa using List.find?_some hfind
  | case4 => exact ⟨trivial, hroles'⟩
  | case5 => exact ⟨trivial, hroles'⟩
  | case6 operator args user newRole => exact ⟨hx', hroles'.setRole (.scripted hx')⟩
  | case7 => exact ⟨trivial, hroles'⟩
  | case8 => exact ⟨trivial, hroles'⟩
  | case9 => exact ⟨hx', hroles'⟩

theorem Traced.snoc {s : State} {acts : List Act} (a : Act)
    (h : Traced env verifyAsync normalise s acts (run (step env verifyAsync normalise) s acts)) :
    Traced env verifyAsync normalise s (acts ++ [a])
      (step env verifyAsync normalise (run (step env verifyAsync normalise) s acts) a) := by
  have hrequests := fun r => (h.requests r).snoc a
  have hboots := fun k => (h.boots k).snoc a
  have hscripts := fun k => (h.scripts k).snoc a
  cases a with
  | rest db => exact ⟨(h.roles.snoc _).rest db, hrequests, hboots, hscripts⟩
  | request r a =>
      obtain ⟨hmoved, hroles⟩ := requestStep_traced r _ a rfl h.roles (h.requests r)
      refine ⟨hroles, ?_, hboots, hscripts⟩
      intro r'
      by_cases hr : r' = r
      · subst hr
        simpa only [step, Function.update_self] using hmoved
      · simpa only [step, Function.update_of_ne hr] using hrequests r'
  | boot k a =>
      obtain ⟨hmoved, hroles⟩ := bootStep_traced k _ a rfl h.roles (h.boots k)
      refine ⟨hroles, hrequests, ?_, hscripts⟩
      intro k'
      by_cases hk : k' = k
      · subst hk
        simpa only [step, Function.update_self] using hmoved
      · simpa only [step, Function.update_of_ne hk] using hboots k'
  | script k a =>
      obtain ⟨hmoved, hroles⟩ := scriptStep_traced k _ a rfl h.roles (h.scripts k)
      refine ⟨hroles, hrequests, hboots, ?_⟩
      intro k'
      by_cases hk : k' = k
      · subst hk
        simpa only [step, Function.update_self] using hmoved
      · simpa only [step, Function.update_of_ne hk] using hscripts k'

theorem run_traced (env : AuthEnv) (verifyAsync : String → Option AccessTokenPayload)
    (normalise : String → String) (db : Db) (acts : List Act) :
    Traced env verifyAsync normalise (start db) acts
      (run (step env verifyAsync normalise) (start db) acts) := by
  refine run_history (I := Traced env verifyAsync normalise (start db)) ?_ ?_ acts
  · refine ⟨?_, fun _ => trivial, fun _ => trivial, fun _ => trivial⟩
    intro u hu _
    exact .founder hu
  · intro pre a h
    exact h.snoc a

/-- In every run, whatever the interleaving, every role above the default goes back, through
requests of users who were live and unsuspended admins when their guards ran, to a role of the
start, to a hash a process was started with, or to a call of the admin script. -/
theorem roles_granted (env : AuthEnv) (verifyAsync : String → Option AccessTokenPayload)
    (normalise : String → String) (db : Db) (acts : List Act) :
    ∀ u ∈ (run (step env verifyAsync normalise) (start db) acts).db.users, u.role ≠ .user →
      Granted env verifyAsync normalise (start db) acts u.id u.role :=
  (run_traced env verifyAsync normalise db acts).roles

/-- In every run: a set of users who hold no role at the start, whom neither a start of the
process nor the script gives one, and whom nobody but themselves asks to promote, stays without
roles, whatever its members send and in whatever order. -/
theorem outsiders_stay_users (env : AuthEnv) (verifyAsync : String → Option AccessTokenPayload)
    (normalise : String → String) (db : Db) (acts : List Act) (outsider : Id → Prop)
    (hstart : ∀ u ∈ db.users, outsider u.id → u.role = .user)
    (hlisted : ∀ k user, Listed env verifyAsync normalise (start db) acts k user → ¬ outsider user.id)
    (hscripted : ∀ k user newRole, Scripted env verifyAsync normalise (start db) acts k user newRole →
      newRole ≠ .user → ¬ outsider user.id)
    (hrequests : ∀ p rest r q now actor, acts = p ++ .request r (.arrive q now) :: rest →
      guards env verifyAsync [.admin] now q.authorization
        (run (step env verifyAsync normalise) (start db) p).db = .ok actor →
      outsider q.targetUserId → q.newRole ≠ .user → outsider actor.userId) :
    ∀ u ∈ (run (step env verifyAsync normalise) (start db) acts).db.users, outsider u.id →
      u.role = .user := by
  have hnone : ∀ pre id role, Granted env verifyAsync normalise (start db) pre id role →
      ∀ rest, acts = pre ++ rest → outsider id → role = .user := by
    intro pre id role h
    induction h with
    | founder hu => exact fun _ _ hout => hstart _ hu hout
    | @listed pre k user h =>
        intro rest hpre hout
        obtain ⟨p₁, p₂, rest', operator, raw, rfl, h⟩ := h
        exact absurd hout (hlisted k user ⟨p₁, p₂, rest' ++ rest, operator, raw, by simp [hpre], h⟩)
    | @scripted pre k user newRole h =>
        intro rest hpre hout
        obtain ⟨p, rest', operator, argv, args, rfl, h⟩ := h
        by_contra hrole
        exact hscripted k user newRole ⟨p, rest' ++ rest, operator, argv, args, by simp [hpre], h⟩
          hrole hout
    | @requested pre p₁ p₂ rest' r q now actor target hpre' hguards hlive hactor htarget hid hstatus ih =>
        intro rest hpre hout
        by_contra hrole
        -- then the admin who asked is one of them, and was given the role before
        have hacts : acts = p₁ ++ .request r (.arrive q now) ::
            (p₂ ++ .request r .check :: (rest' ++ rest)) := by
          rw [hpre, hpre']
          simp
        have hadmin := ih _ hacts (hrequests p₁ _ r q now actor hacts hguards hout hrole)
        cases hadmin
  intro u hu hout
  by_contra hrole
  exact hrole (hnone acts u.id u.role (roles_granted env verifyAsync normalise db acts u hu hrole)
    [] (List.append_nil _).symm hout)

/-! ## A sample run -/

def sampleVerify : String → Option AccessTokenPayload
  | "alice" => some ⟨"alice", "s1"⟩
  | "bob" => some ⟨"bob", "s2"⟩
  | "mallory" => some ⟨"mallory", "s3"⟩
  | _ => none

def sampleSession (id userId : Id) : RefreshToken :=
  { id, userId, tokenHash := id, familyId := id, expiresAt := 1000, createdAt := 0 }

def sampleDb : Db :=
  { users := [{ id := "alice", phoneHash := "1", role := .admin }, { id := "bob", phoneHash := "2" },
      { id := "carol", phoneHash := "3" }, { id := "mallory", phoneHash := "4" }]
    refreshTokens := [sampleSession "s1" "alice", sampleSession "s2" "bob",
      sampleSession "s3" "mallory"] }

def sampleRequest (caller : String) (targetUserId : Id) (newRole : UserRole) : RoleRequest :=
  { authorization := some ("Bearer " ++ caller), targetUserId, newRole, reason := none }

/-- Mallory asks for a role and is refused; Alice promotes Bob, and Bob promotes Carol. -/
def sampleActs : List Act :=
  .request 0 (.arrive (sampleRequest "mallory" "mallory" .admin) 5) ::
    ([.arrive (sampleRequest "alice" "bob" .admin) 5, .check, .update, .audit, .commit].map
      (.request 1)) ++
    ([.arrive (sampleRequest "bob" "carol" .moderator) 6, .check, .update, .audit, .commit].map
      (.request 2))

theorem carols_role_granted :
    ∃ u ∈ (run (step sampleEnv sampleVerify id) (start sampleDb) sampleActs).db.users,
      u.id = "carol" ∧ u.role = .moderator ∧
      Granted sampleEnv sampleVerify id (start sampleDb) sampleActs u.id u.role := by
  have hcarol : ∃ u ∈ (run (step sampleEnv sampleVerify id) (start sampleDb) sampleActs).db.users,
      u.id = "carol" ∧ u.role = .moderator := by decide
  obtain ⟨u, hu, hid, hrole⟩ := hcarol
  refine ⟨u, hu, hid, hrole, roles_granted sampleEnv sampleVerify id sampleDb sampleActs u hu ?_⟩
  rw [hrole]
  decide

def Act.isRequest : Act → Bool
  | .request _ _ => true
  | _ => false

theorem mallory_stays_user :
    ∃ u ∈ (run (step sampleEnv sampleVerify id) (start sampleDb) sampleActs).db.users,
      u.id = "mallory" ∧ u.role = .user := by
  have hmallory : ∃ u ∈ (run (step sampleEnv sampleVerify id) (start sampleDb) sampleActs).db.users,
      u.id = "mallory" := by decide
  obtain ⟨u, hu, hid⟩ := hmallory
  have honly : ∀ a ∈ sampleActs, a.isRequest = true := by decide
  refine ⟨u, hu, hid, outsiders_stay_users sampleEnv sampleVerify id sampleDb sampleActs
    (· = "mallory") (by decide) ?_ ?_ ?_ u hu hid⟩
  · intro k v h
    obtain ⟨p₁, p₂, rest, operator, raw, hacts, _⟩ := h
    exact absurd (honly (.boot k .lookup) (by rw [hacts]; simp)) Bool.false_ne_true
  · intro k v newRole h
    obtain ⟨p, rest, operator, argv, args, hacts, _⟩ := h
    exact absurd (honly (.script k (.start operator argv)) (by rw [hacts]; simp)) Bool.false_ne_true
  · intro p rest r q now actor hacts hguards hout hrole
    cases p with
    | nil =>
        obtain ⟨hfirst, _⟩ := List.cons_eq_cons.mp hacts
        cases hfirst
        -- her own request does not pass the guards
        have hrefused : (guards sampleEnv sampleVerify [.admin] 5
            (sampleRequest "mallory" "mallory" .admin).authorization sampleDb).toOption.isNone := by
          decide
        rw [show guards sampleEnv sampleVerify [.admin] 5
          (sampleRequest "mallory" "mallory" .admin).authorization sampleDb = .ok actor from hguards]
          at hrefused
        cases hrefused
    | cons a p =>
        obtain ⟨_, htail⟩ := List.cons_eq_cons.mp hacts
        have hmem : Act.request r (.arrive q now) ∈ sampleActs.tail := by
          rw [show sampleActs.tail = _ from htail]
          simp
        simp [sampleActs] at hmem
        rcases hmem with ⟨_, rfl, _⟩ | ⟨_, rfl, _⟩
        · exact absurd hout (by decide)
        · exact absurd hout (by decide)

end Birgap.Moderation.Provenance
