import Birgap.Auth.Service
import Birgap.Lib.Run
import Mathlib.Logic.Function.Basic

/-!
# One account for each phone

`AuthService.findOrCreateUser` statement by statement: the look-up by the keyed hash, the
look-up by the plain hash that older rows still carry, and then the migration of such a row
or the insert of a new one. Any number of calls interleave; the unique indexes on the id and
on `phoneHash` are checked by the two writes.
-/
namespace Birgap.Auth

set_option autoImplicit false

open Birgap.Common Birgap.Lib Birgap.Lib.Run Birgap.Moderation

/-- What is assumed of the two digests: no collisions, and no value in common. -/
structure Separate (env : AuthEnv) : Prop where
  hmac : ∀ a b, env.hmacSha256 a env.phoneHashPepper = env.hmacSha256 b env.phoneHashPepper → a = b
  sha : ∀ a b, env.sha256 a = env.sha256 b → a = b
  apart : ∀ a b, env.hmacSha256 a env.phoneHashPepper ≠ env.sha256 b

namespace Accounts

/-- The hash a login looks for first and stores. -/
def keyedHash (env : AuthEnv) (phone : String) : String :=
  env.hmacSha256 phone env.phoneHashPepper

/-- `user.update({ where: { id }, data: { phoneHash } })`. -/
def migrateUser (phoneHash : String) (userId : Id) (db : Db) : Except Err Db :=
  if (findUser userId db).isNone then .error (.failure "Record to update not found.")
  else if db.users.any fun u => u.phoneHash == phoneHash && u.id != userId then
    .error .uniqueConstraint
  else .ok (updateUser userId (fun u => { u with phoneHash }) db)

def newUser (phone phoneHash : String) (userId : Id) : User :=
  { id := userId, phoneHash, phoneMasked := some (maskPhone phone) }

/-- `user.create`, under an id the database draws. -/
def createUser (phone phoneHash : String) (userId : Id) (db : Db) : Except Err Db :=
  if db.users.any fun u => u.id == userId || u.phoneHash == phoneHash then .error .uniqueConstraint
  else .ok { db with users := db.users ++ [newUser phone phoneHash userId] }

/-- Where a call stands. -/
inductive Proc where
  | idle
  | missed (phone : String)
  | migrating (phone : String) (userId : Id)
  | creating (phone : String)

/-- What a call returned. -/
structure Returned where
  phone : String
  userId : Id
  deriving DecidableEq

structure State where
  db : Db
  procs : Nat → Proc
  returned : List Returned

inductive Act where
  | find (pid : Nat) (phone : String)
  | findLegacy (pid : Nat)
  | migrate (pid : Nat)
  | create (pid : Nat) (userId : Id)

def State.set (s : State) (pid : Nat) (p : Proc) : State :=
  { s with procs := Function.update s.procs pid p }

def State.answer (s : State) (phone : String) (userId : Id) : State :=
  { s with returned := ⟨phone, userId⟩ :: s.returned }

def step (env : AuthEnv) (s : State) : Act → State
  | .find pid phone =>
      match s.procs pid with
      | .idle =>
          match s.db.users.find? (·.phoneHash == keyedHash env phone) with
          | some existing => s.answer phone existing.id
          | none => s.set pid (.missed phone)
      | _ => s
  | .findLegacy pid =>
      match s.procs pid with
      | .missed phone =>
          match s.db.users.find? (·.phoneHash == env.sha256 phone) with
          | some legacy => s.set pid (.migrating phone legacy.id)
          | none => s.set pid (.creating phone)
      | _ => s
  | .migrate pid =>
      match s.procs pid with
      | .migrating phone userId =>
          match migrateUser (keyedHash env phone) userId s.db with
          | .ok db => ({ s with db := db }.answer phone userId).set pid .idle
          | .error _ => s.set pid .idle
      | _ => s
  | .create pid userId =>
      match s.procs pid with
      | .creating phone =>
          match createUser phone (keyedHash env phone) userId s.db with
          | .ok db => ({ s with db := db }.answer phone userId).set pid .idle
          | .error _ => s.set pid .idle
      | _ => s

def start (db : Db) : State := { db, procs := fun _ => .idle, returned := [] }

/-- The user rows of a phone, under either hash. -/
def accountsOf (env : AuthEnv) (phone : String) (db : Db) : List User :=
  db.users.filter fun u => u.phoneHash == keyedHash env phone || u.phoneHash == env.sha256 phone

/-- Each phone has at most one user row. -/
def Single (env : AuthEnv) (db : Db) : Prop := ∀ phone, (accountsOf env phone db).length ≤ 1

/-- Every call has returned the id of the one row of its phone. -/
def ReturnsAccount (env : AuthEnv) (s : State) : Prop :=
  ∀ r ∈ s.returned, (accountsOf env r.phone s.db).map (·.id) = [r.userId]

/-- A row of a phone is still a row of that phone later, under its id. -/
def KeepsIds (env : AuthEnv) (db db' : Db) : Prop :=
  ∀ phone, ∀ u ∈ accountsOf env phone db, ∃ v ∈ accountsOf env phone db', v.id = u.id

section

variable {env : AuthEnv}

theorem mem_accountsOf {phone : String} {db : Db} {u : User} :
    u ∈ accountsOf env phone db ↔
      u ∈ db.users ∧ (u.phoneHash = keyedHash env phone ∨ u.phoneHash = env.sha256 phone) := by
  simp [accountsOf]

/-! ## One step -/

/-- What a step can do. -/
inductive Effect (env : AuthEnv) (s : State) : State → Prop where
  | stay : Effect env s s
  | found {phone : String} {u : User} (hu : u ∈ accountsOf env phone s.db) :
      Effect env s (s.answer phone u.id)
  | move (pid : Nat) {p : Proc} (hmigrating : ∀ phone userId, p ≠ .migrating phone userId)
      (hcreating : ∀ phone, p ≠ .creating phone) : Effect env s (s.set pid p)
  | legacy (pid : Nat) {phone : String} {u : User} (hu : u ∈ accountsOf env phone s.db) :
      Effect env s (s.set pid (.migrating phone u.id))
  | absent (pid : Nat) {phone : String} (habsent : ∀ u ∈ s.db.users, u.phoneHash ≠ env.sha256 phone) :
      Effect env s (s.set pid (.creating phone))
  | migrate {pid : Nat} {phone : String} {userId : Id} (hp : s.procs pid = .migrating phone userId)
      (hfree : ∀ u ∈ s.db.users, u.phoneHash = keyedHash env phone → u.id = userId) :
      Effect env s (({ s with
        db := updateUser userId (fun u => { u with phoneHash := keyedHash env phone })
          s.db }.answer phone userId).set pid .idle)
  | create {pid : Nat} {phone : String} {userId : Id} (hp : s.procs pid = .creating phone)
      (hfree : ∀ u ∈ s.db.users, u.id ≠ userId ∧ u.phoneHash ≠ keyedHash env phone) :
      Effect env s (({ s with
        db := { s.db with users := s.db.users ++ [newUser phone (keyedHash env phone) userId] }
        }.answer phone userId).set pid .idle)

theorem move_idle (s : State) (pid : Nat) : Effect env s (s.set pid .idle) :=
  .move pid (fun _ _ => Proc.noConfusion) fun _ => Proc.noConfusion

theorem find?_account {phone h : String} {db : Db} {u : User}
    (hh : h = keyedHash env phone ∨ h = env.sha256 phone)
    (hfind : db.users.find? (·.phoneHash == h) = some u) : u ∈ accountsOf env phone db := by
  have hu : u.phoneHash = h := by simpa using List.find?_some hfind
  refine mem_accountsOf.mpr ⟨List.mem_of_find?_eq_some hfind, ?_⟩
  rw [hu]
  exact hh

theorem migrateUser_ok {phoneHash : String} {userId : Id} {db db' : Db}
    (h : migrateUser phoneHash userId db = .ok db') :
    db' = updateUser userId (fun u => { u with phoneHash }) db ∧
      ∀ u ∈ db.users, u.phoneHash = phoneHash → u.id = userId := by
  unfold migrateUser at h
  split at h
  · cases h
  · split at h
    · cases h
    · rename_i hindex
      refine ⟨(Except.ok.inj h).symm, ?_⟩
      intro u hu hhash
      by_contra hid
      apply hindex
      exact List.any_eq_true.mpr ⟨u, hu, by simp [hhash, hid]⟩

theorem createUser_ok {phone phoneHash : String} {userId : Id} {db db' : Db}
    (h : createUser phone phoneHash userId db = .ok db') :
    db' = { db with users := db.users ++ [newUser phone phoneHash userId] } ∧
      ∀ u ∈ db.users, u.id ≠ userId ∧ u.phoneHash ≠ phoneHash := by
  unfold createUser at h
  split at h
  · cases h
  · rename_i hindex
    refine ⟨(Except.ok.inj h).symm, ?_⟩
    intro u hu
    refine ⟨?_, ?_⟩
    · intro hid
      exact hindex (List.any_eq_true.mpr ⟨u, hu, by simp [hid]⟩)
    · intro hhash
      exact hindex (List.any_eq_true.mpr ⟨u, hu, by simp [hhash]⟩)

theorem step_cases (s : State) (a : Act) : Effect env s (step env s a) := by
  cases a with
  | find pid phone =>
      simp only [step]
      split
      · split
        · rename_i hfind
          exact .found (find?_account (Or.inl rfl) hfind)
        · exact .move pid (fun _ _ => Proc.noConfusion) fun _ => Proc.noConfusion
      · exact .stay
  | findLegacy pid =>
      simp only [step]
      split
      · split
        · rename_i hfind
          exact .legacy pid (find?_account (Or.inr rfl) hfind)
        · rename_i hfind
          refine .absent pid ?_
          intro u hu hhash
          exact List.find?_eq_none.mp hfind u hu (beq_iff_eq.mpr hhash)
      · exact .stay
  | migrate pid =>
      simp only [step]
      split
      · rename_i hp
        split
        · rename_i hdb
          obtain ⟨rfl, hfree⟩ := migrateUser_ok hdb
          exact .migrate hp hfree
        · exact move_idle s pid
      · exact .stay
  | create pid userId =>
      simp only [step]
      split
      · rename_i hp
        split
        · rename_i hdb
          obtain ⟨rfl, hfree⟩ := createUser_ok hdb
          exact .create hp hfree
        · exact move_idle s pid
      · exact .stay

/-- The steps of one call with nothing in between are `findOrCreateUser`. -/
theorem run_alone (phone : String) (d : Draws) (db : Db) :
    let s := run (step env) (start db) [.find 0 phone, .findLegacy 0, .migrate 0, .create 0 d.userId]
    s.db = (findOrCreateUser env phone (keyedHash env phone) d db).2 ∧
      (∀ userId, (findOrCreateUser env phone (keyedHash env phone) d db).1 = .ok userId →
        s.returned = [⟨phone, userId⟩]) := by
  intro s
  unfold findOrCreateUser
  cases hfind : db.users.find? (·.phoneHash == keyedHash env phone) with
  | some existing =>
      have hs : s = (start db).answer phone existing.id := by
        simp [s, run, step, start, State.answer, hfind]
      rw [hs]
      refine ⟨rfl, ?_⟩
      intro userId h
      obtain rfl := Except.ok.inj h
      rfl
  | none =>
      have hnone : ∀ u ∈ db.users, u.phoneHash ≠ keyedHash env phone := by
        intro u hu hhash
        exact List.find?_eq_none.mp hfind u hu (beq_iff_eq.mpr hhash)
      cases hlegacy : db.users.find? (·.phoneHash == env.sha256 phone) with
      | some legacy =>
          have hfound : (findUser legacy.id db).isSome := by
            rw [findUser, List.find?_isSome]
            exact ⟨legacy, List.mem_of_find?_eq_some hlegacy, beq_self_eq_true _⟩
          have hindex : (db.users.any fun u =>
              u.phoneHash == keyedHash env phone && u.id != legacy.id) = false := by
            rw [List.any_eq_false]
            intro u hu
            simp [hnone u hu]
          have hmigrate : migrateUser (keyedHash env phone) legacy.id db =
              .ok (updateUser legacy.id (fun u => { u with phoneHash := keyedHash env phone }) db) := by
            unfold migrateUser
            rw [if_neg (by rw [Option.isNone_iff_eq_none]; exact Option.isSome_iff_ne_none.mp hfound),
              if_neg (by rw [hindex]; decide)]
          simp only [s, run, List.foldl_cons, List.foldl_nil, step, start, hfind, State.set,
            Function.update_self, hlegacy, hmigrate, State.answer]
          refine ⟨trivial, ?_⟩
          intro userId h
          obtain rfl := Except.ok.inj h
          rfl
      | none =>
          have hclash : (db.users.any fun u => u.id == d.userId || u.phoneHash == keyedHash env phone) =
              db.users.any (·.id == d.userId) := by
            rw [Bool.eq_iff_iff, List.any_eq_true, List.any_eq_true]
            refine exists_congr fun u => and_congr_right fun hu => ?_
            simp [hnone u hu]
          cases hused : db.users.any (·.id == d.userId) with
          | true =>
              simp only [s, run, List.foldl_cons, List.foldl_nil, step, start, hfind, State.set,
                Function.update_self, hlegacy, createUser, hclash, hused, if_true]
              refine ⟨trivial, ?_⟩
              intro userId h
              cases h
          | false =>
              simp only [s, run, List.foldl_cons, List.foldl_nil, step, start, hfind, State.set,
                Function.update_self, hlegacy, createUser, hclash, hused, Bool.false_eq_true,
                if_false, State.answer]
              refine ⟨rfl, ?_⟩
              intro userId h
              obtain rfl := Except.ok.inj h
              rfl

/-- What holds between steps: ids and the row of a phone are unique, a call that is about to
migrate a row has found a row of its phone, and one about to insert a row knows that no row
under the plain hash is left. No statement ever stores a plain hash, so that stays so. -/
structure Inv (env : AuthEnv) (s : State) : Prop where
  ids : Rows.Unique (·.id) s.db.users
  single : ∀ phone, ∀ u ∈ accountsOf env phone s.db, ∀ v ∈ accountsOf env phone s.db, u.id = v.id
  migrating : ∀ pid phone userId, s.procs pid = .migrating phone userId →
    ∃ u ∈ accountsOf env phone s.db, u.id = userId
  creating : ∀ pid phone, s.procs pid = .creating phone →
    ∀ u ∈ s.db.users, u.phoneHash ≠ env.sha256 phone
  returned : ∀ r ∈ s.returned, ∃ u ∈ accountsOf env r.phone s.db, u.id = r.userId

theorem KeepsIds.refl (db : Db) : KeepsIds env db db :=
  fun _ u hu => ⟨u, hu, rfl⟩

theorem KeepsIds.trans {db db' db'' : Db} (h : KeepsIds env db db') (h' : KeepsIds env db' db'') :
    KeepsIds env db db'' := by
  intro phone u hu
  obtain ⟨v, hv, hvu⟩ := h phone u hu
  obtain ⟨w, hw, hwv⟩ := h' phone v hv
  exact ⟨w, hw, hwv.trans hvu⟩

/-- A row belongs to one phone. -/
theorem account_phone (hsep : Separate env) {p q : String} {db db' : Db} {u v : User}
    (hp : u ∈ accountsOf env p db) (hq : v ∈ accountsOf env q db') (he : u.phoneHash = v.phoneHash) :
    p = q := by
  have hp' := (mem_accountsOf.mp hp).2
  have hq' := (mem_accountsOf.mp hq).2
  rw [← he] at hq'
  rcases hp' with hp' | hp'
  · rcases hq' with hq' | hq'
    · exact hsep.hmac p q (hp'.symm.trans hq')
    · exact absurd (hp'.symm.trans hq') (hsep.apart p q)
  · rcases hq' with hq' | hq'
    · exact absurd (hq'.symm.trans hp') (hsep.apart q p)
    · exact hsep.sha p q (hp'.symm.trans hq')

theorem Inv.set {s : State} (h : Inv env s) (pid : Nat) {p : Proc}
    (hm : ∀ phone userId, p = .migrating phone userId → ∃ u ∈ accountsOf env phone s.db, u.id = userId)
    (hc : ∀ phone, p = .creating phone → ∀ u ∈ s.db.users, u.phoneHash ≠ env.sha256 phone) :
    Inv env (s.set pid p) := by
  refine ⟨h.ids, h.single, ?_, ?_, h.returned⟩
  · intro q phone userId hq
    simp only [State.set, Function.update_apply] at hq
    split at hq
    · exact hm phone userId hq
    · exact h.migrating q phone userId hq
  · intro q phone hq
    simp only [State.set, Function.update_apply] at hq
    split at hq
    · exact hc phone hq
    · exact h.creating q phone hq

theorem Inv.idle {s : State} (h : Inv env s) (pid : Nat) : Inv env (s.set pid .idle) :=
  h.set pid (fun _ _ => Proc.noConfusion) fun _ => Proc.noConfusion

theorem Inv.answer {s : State} (h : Inv env s) {phone : String} {userId : Id}
    (hu : ∃ u ∈ accountsOf env phone s.db, u.id = userId) : Inv env (s.answer phone userId) := by
  refine ⟨h.ids, h.single, h.migrating, h.creating, ?_⟩
  intro r hr
  rcases List.mem_cons.mp hr with rfl | hr
  · exact hu
  · exact h.returned r hr

/-- A write of the users that keeps the accounts, adds none to a phone that has one and stores
no plain hash. -/
theorem Inv.store {s : State} (h : Inv env s) {db : Db} (hids : Rows.Unique (·.id) db.users)
    (hkeeps : KeepsIds env s.db db)
    (hsingle : ∀ phone, ∀ u ∈ accountsOf env phone db, ∀ v ∈ accountsOf env phone db, u.id = v.id)
    (hplain : ∀ v ∈ db.users, v ∈ s.db.users ∨ ∀ phone, v.phoneHash ≠ env.sha256 phone) :
    Inv env { s with db := db } := by
  refine ⟨hids, hsingle, ?_, ?_, ?_⟩
  · intro pid phone userId hp
    obtain ⟨u, hu, hid⟩ := h.migrating pid phone userId hp
    obtain ⟨v, hv, hvu⟩ := hkeeps phone u hu
    exact ⟨v, hv, hvu.trans hid⟩
  · intro pid phone hp v hv
    rcases hplain v hv with hold | hnew
    · exact h.creating pid phone hp v hold
    · exact hnew phone
  · intro r hr
    obtain ⟨u, hu, hid⟩ := h.returned r hr
    obtain ⟨v, hv, hvu⟩ := hkeeps r.phone u hu
    exact ⟨v, hv, hvu.trans hid⟩

/-! ## The migration -/

section

variable {s : State} {pid : Nat} {phone : String} {userId : Id}

/-- A row with the id of the migrated one is that row, and it belongs to the phone. -/
theorem Inv.migrating_row (h : Inv env s) (hp : s.procs pid = .migrating phone userId) {u : User}
    (hu : u ∈ s.db.users) (hid : u.id = userId) : u ∈ accountsOf env phone s.db := by
  obtain ⟨w, hw, hwid⟩ := h.migrating pid phone userId hp
  have hwu : w = u := h.ids.eq (mem_accountsOf.mp hw).1 hu (hwid.trans hid.symm)
  exact hwu ▸ hw

theorem migrated_keeps (hsep : Separate env) (h : Inv env s)
    (hp : s.procs pid = .migrating phone userId) :
    KeepsIds env s.db
      (updateUser userId (fun u => { u with phoneHash := keyedHash env phone }) s.db) := by
  intro q u hu
  by_cases hid : u.id = userId
  · have hthis := h.migrating_row hp (mem_accountsOf.mp hu).1 hid
    obtain rfl : phone = q := account_phone hsep hthis hu rfl
    refine ⟨{ u with phoneHash := keyedHash env phone }, ?_, rfl⟩
    exact mem_accountsOf.mpr
      ⟨mem_updateUser.mpr (Or.inl ⟨u, (mem_accountsOf.mp hu).1, hid, rfl⟩), Or.inl rfl⟩
  · obtain ⟨hmem, hhash⟩ := mem_accountsOf.mp hu
    exact ⟨u, mem_accountsOf.mpr ⟨mem_updateUser.mpr (Or.inr ⟨hmem, hid⟩), hhash⟩, rfl⟩

/-- Every account after the migration was one before it. -/
theorem migrated_old (hsep : Separate env) (h : Inv env s)
    (hp : s.procs pid = .migrating phone userId) :
    KeepsIds env (updateUser userId (fun u => { u with phoneHash := keyedHash env phone }) s.db)
      s.db := by
  intro q v hv
  obtain ⟨hmem, hhash⟩ := mem_accountsOf.mp hv
  rcases mem_updateUser.mp hmem with ⟨u, hu, hid, rfl⟩ | ⟨hold, _⟩
  · have hthis := h.migrating_row hp hu hid
    have hq : phone = q := by
      rcases hhash with hhash | hhash
      · exact hsep.hmac phone q hhash
      · exact absurd hhash (hsep.apart phone q)
    exact ⟨u, hq ▸ hthis, rfl⟩
  · exact ⟨v, mem_accountsOf.mpr ⟨hold, hhash⟩, rfl⟩

theorem Inv.migrate (hsep : Separate env) (h : Inv env s)
    (hp : s.procs pid = .migrating phone userId) :
    Inv env { s with
      db := updateUser userId (fun u => { u with phoneHash := keyedHash env phone }) s.db } := by
  have hids : Rows.Unique (·.id) (updateUser userId
      (fun u => { u with phoneHash := keyedHash env phone }) s.db).users := by
    apply Rows.unique_updateMany _ h.ids
    intro u
    rfl
  refine h.store hids (migrated_keeps hsep h hp) ?_ ?_
  · intro q u hu v hv
    obtain ⟨u', hu', hu'id⟩ := migrated_old hsep h hp q u hu
    obtain ⟨v', hv', hv'id⟩ := migrated_old hsep h hp q v hv
    rw [← hu'id, ← hv'id]
    exact h.single q u' hu' v' hv'
  · intro v hv
    rcases mem_updateUser.mp hv with ⟨u, _, _, rfl⟩ | ⟨hold, _⟩
    · exact Or.inr fun q => hsep.apart phone q
    · exact Or.inl hold

/-! ## The insert -/

theorem created_keeps (db : Db) (user : User) :
    KeepsIds env db { db with users := db.users ++ [user] } := by
  intro q u hu
  obtain ⟨hmem, hhash⟩ := mem_accountsOf.mp hu
  exact ⟨u, mem_accountsOf.mpr ⟨List.mem_append_left _ hmem, hhash⟩, rfl⟩

theorem Inv.create (hsep : Separate env) (h : Inv env s) (hp : s.procs pid = .creating phone)
    (hfree : ∀ u ∈ s.db.users, u.id ≠ userId ∧ u.phoneHash ≠ keyedHash env phone) :
    Inv env { s with
      db := { s.db with users := s.db.users ++ [newUser phone (keyedHash env phone) userId] } } := by
  -- the phone of the new row has no other row, under neither hash
  have hnew : ∀ q, ∀ u ∈ s.db.users, newUser phone (keyedHash env phone) userId ∈ accountsOf env q
      { s.db with users := s.db.users ++ [newUser phone (keyedHash env phone) userId] } →
      u ∉ accountsOf env q s.db := by
    intro q u hu hq hold
    have hthis : phone = q := by
      rcases (mem_accountsOf.mp hq).2 with hhash | hhash
      · exact hsep.hmac phone q hhash
      · exact absurd hhash (hsep.apart phone q)
    obtain rfl := hthis
    rcases (mem_accountsOf.mp hold).2 with hhash | hhash
    · exact (hfree u hu).2 hhash
    · exact h.creating pid phone hp u hu hhash
  refine h.store (Rows.unique_append h.ids fun u hu => (hfree u hu).1) (created_keeps _ _) ?_ ?_
  · intro q u hu v hv
    have hu' := mem_accountsOf.mp hu
    have hv' := mem_accountsOf.mp hv
    rcases List.mem_append.mp hu'.1 with hu₀ | hu₀
    · rcases List.mem_append.mp hv'.1 with hv₀ | hv₀
      · exact h.single q u (mem_accountsOf.mpr ⟨hu₀, hu'.2⟩) v (mem_accountsOf.mpr ⟨hv₀, hv'.2⟩)
      · obtain rfl := List.mem_singleton.mp hv₀
        exact absurd (mem_accountsOf.mpr ⟨hu₀, hu'.2⟩) (hnew q u hu₀ hv)
    · obtain rfl := List.mem_singleton.mp hu₀
      rcases List.mem_append.mp hv'.1 with hv₀ | hv₀
      · exact absurd (mem_accountsOf.mpr ⟨hv₀, hv'.2⟩) (hnew q v hv₀ hu)
      · rw [List.mem_singleton.mp hv₀]
  · intro v hv
    rcases List.mem_append.mp hv with hold | hnew'
    · exact Or.inl hold
    · rw [List.mem_singleton.mp hnew']
      exact Or.inr fun q => hsep.apart phone q

end

/-! ## Every run -/

theorem Effect.keeps (hsep : Separate env) {s s' : State} (heff : Effect env s s') (h : Inv env s) :
    KeepsIds env s.db s'.db := by
  cases heff with
  | migrate hp hfree => exact migrated_keeps hsep h hp
  | create hp hfree => exact created_keeps _ _
  | _ => exact KeepsIds.refl _

theorem Effect.inv (hsep : Separate env) {s s' : State} (heff : Effect env s s') (h : Inv env s) :
    Inv env s' := by
  cases heff with
  | stay => exact h
  | found hu => exact h.answer ⟨_, hu, rfl⟩
  | move pid hm hc =>
      exact h.set pid (fun phone userId he => absurd he (hm phone userId))
        fun phone he => absurd he (hc phone)
  | legacy pid hu =>
      refine h.set pid ?_ fun _ => Proc.noConfusion
      intro phone userId he
      obtain ⟨rfl, rfl⟩ := Proc.migrating.inj he
      exact ⟨_, hu, rfl⟩
  | absent pid habsent =>
      refine h.set pid (fun _ _ => Proc.noConfusion) ?_
      intro phone he
      obtain rfl := Proc.creating.inj he
      exact habsent
  | migrate hp hfree =>
      obtain ⟨u, hu, hid⟩ := h.migrating _ _ _ hp
      obtain ⟨v, hv, hvu⟩ := migrated_keeps hsep h hp _ u hu
      exact ((h.migrate hsep hp).answer ⟨v, hv, hvu.trans hid⟩).idle _
  | create hp hfree =>
      refine ((h.create hsep hp hfree).answer ?_).idle _
      exact ⟨_, mem_accountsOf.mpr ⟨List.mem_append_right _ List.mem_cons_self, Or.inl rfl⟩, rfl⟩

theorem start_inv {db : Db} (hids : Rows.Unique (·.id) db.users) (hone : Single env db) :
    Inv env (start db) := by
  refine ⟨hids, ?_, ?_, ?_, ?_⟩
  · intro phone u hu v hv
    have hu' : u ∈ accountsOf env phone db := hu
    have hv' : v ∈ accountsOf env phone db := hv
    cases hrows : accountsOf env phone db with
    | nil =>
        rw [hrows] at hu'
        cases hu'
    | cons w rest =>
        have hlen := hone phone
        rw [hrows, List.length_cons] at hlen
        have hrest : rest = [] := List.length_eq_zero_iff.mp (by omega)
        rw [hrows, hrest, List.mem_singleton] at hu' hv'
        rw [hu', hv']
  · intro pid phone userId hp
    cases hp
  · intro pid phone hp
    cases hp
  · intro r hr
    cases hr

/-- The rows of a phone that has one are that row alone. -/
theorem Inv.accounts_eq {s : State} (h : Inv env s) {phone : String} {u : User}
    (hu : u ∈ accountsOf env phone s.db) : accountsOf env phone s.db = [u] := by
  have hall : ∀ v ∈ accountsOf env phone s.db, v = u := by
    intro v hv
    exact h.ids.eq (mem_accountsOf.mp hv).1 (mem_accountsOf.mp hu).1 (h.single phone v hv u hu)
  have hnodup : (accountsOf env phone s.db).Nodup := List.Nodup.of_map _ (h.ids.filter _)
  cases hrows : accountsOf env phone s.db with
  | nil =>
      rw [hrows] at hu
      cases hu
  | cons v rest =>
      rw [hrows] at hall hnodup
      cases rest with
      | nil => rw [hall v List.mem_cons_self]
      | cons w rest =>
          have hvu := hall v List.mem_cons_self
          have hwu := hall w (List.mem_cons_of_mem _ List.mem_cons_self)
          have hne := (List.nodup_cons.mp hnodup).1
          rw [hvu, hwu] at hne
          exact absurd List.mem_cons_self hne

theorem Inv.single_length {s : State} (h : Inv env s) : Single env s.db := by
  intro phone
  cases hrows : accountsOf env phone s.db with
  | nil => exact Nat.zero_le 1
  | cons u rest =>
      have hu : u ∈ accountsOf env phone s.db := by
        rw [hrows]
        exact List.mem_cons_self
      rw [← hrows, h.accounts_eq hu]
      exact Nat.le_refl 1

theorem Inv.returns {s : State} (h : Inv env s) : ReturnsAccount env s := by
  intro r hr
  obtain ⟨u, hu, hid⟩ := h.returned r hr
  rw [h.accounts_eq hu, List.map_singleton, hid]

variable (env) in
/-- From a table with at most one row for each phone, under every interleaving of calls: each
phone has at most one row, the row of a phone keeps its id, also when it is migrated, and what
a call returned is the id of the row of its phone. -/
theorem account_never_forks (hsep : Separate env) (db : Db) (hids : Rows.Unique (·.id) db.users)
    (hone : Single env db) (ls : List Act) :
    Always (step env) (fun s => Single env s.db ∧ ReturnsAccount env s) (start db) ls ∧
      Later (step env) (fun s s' => KeepsIds env s.db s'.db) (start db) ls := by
  have hinv : ∀ s a, Inv env s → Inv env (step env s a) :=
    fun s a h => (step_cases s a).inv hsep h
  have hstart : Inv env (start db) := start_inv hids hone
  refine ⟨?_, ?_⟩
  · intro pre _
    have h : Inv env (run (step env) (start db) pre) := run_invariant hinv pre _ hstart
    exact ⟨h.single_length, h.returns⟩
  · refine (later_iff_along (R := fun s s' : State => KeepsIds env s.db s'.db)
      (fun s => KeepsIds.refl s.db) (fun _ _ _ => KeepsIds.trans) _ ls).mpr ?_
    intro pre a _
    exact (step_cases _ a).keeps hsep (run_invariant hinv pre _ hstart)

end

/-- Digests that keep their input readable. -/
def plainEnv : AuthEnv :=
  { sha256 := fun s => "sha256:" ++ s, hmacSha256 := fun s k => "hmac:" ++ k ++ ":" ++ s
    phoneHashPepper := "pepper" }

theorem plainEnv_separate : Separate plainEnv := by
  have hcancel : ∀ tag a b : String, tag ++ a = tag ++ b → a = b := by
    intro tag a b h
    have hlist := congrArg String.toList h
    rw [String.toList_append, String.toList_append] at hlist
    exact String.toList_inj.mp (List.append_cancel_left hlist)
  refine ⟨fun a b => hcancel _ a b, fun a b => hcancel _ a b, ?_⟩
  intro a b h
  have hhead := congrArg (fun s => s.toList.head?) h
  simp [plainEnv] at hhead

/-- Two logins of a phone that is stored under its plain hash; the second has missed it when
the first migrates it, and its insert is refused. -/
theorem overtaken_login_adds_no_row :
    (accountsOf plainEnv "+1" (run (step plainEnv)
      (start { users := [{ id := "u1", phoneHash := "sha256:+1" }] })
      [.find 1 "+1", .find 2 "+1", .findLegacy 1, .migrate 1, .findLegacy 2,
       .create 2 "u2"]).db).map (·.id) = ["u1"] := by
  have hone : Single plainEnv { users := [{ id := "u1", phoneHash := "sha256:+1" }] } := by
    intro phone
    exact List.length_filter_le _ _
  have hrun := account_never_forks plainEnv plainEnv_separate
    { users := [{ id := "u1", phoneHash := "sha256:+1" }] } (by decide) hone
    [.find 1 "+1", .find 2 "+1", .findLegacy 1, .migrate 1, .findLegacy 2, .create 2 "u2"]
  exact (hrun.1 _ (List.prefix_refl _)).2 ⟨"+1", "u1"⟩ (by decide)

end Accounts

end Birgap.Auth
