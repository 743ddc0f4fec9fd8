import Birgap.Moderation.Suspension
import Birgap.Lib.Run
import Mathlib.Logic.Function.Basic

/-!
# The suspension flag and the suspension history

`suspendUser`, `unsuspendUser` and the reactivation job run concurrently: the reads of a
call and its transaction are separate steps, and other calls may commit in between. The
flag on the user and the unrevoked rows of the history agree in every state of a run
exactly when every transaction still finds what its reads promised.
-/
namespace Birgap.Moderation.Agreement

set_option autoImplicit false

open Birgap.Lib Birgap.Lib.Run Birgap.Moderation

/-- How far a call in flight has come. -/
inductive Flight where
  | idle
  | suspending (actorUserId targetUserId : Id) (dto : SuspendUserDto)
  | unsuspending (actorUserId targetUserId : Id) (reason : Option String)
  | lifting (actorUserId targetUserId : Id) (reason : Option String) (activeId : Id)
  | reactivating (now : Time) (rest : List UserSuspension)

structure State where
  db : Db
  flights : Nat → Flight

/-- One step of the call with number `pid`: a preliminary read, a transaction, or a
failure of the transaction. -/
inductive Act where
  | suspendRead (pid : Nat) (now : Time) (actorUserId : Id) (actorRole : UserRole)
      (targetUserId : Id) (dto : SuspendUserDto)
  | suspendCommit (pid : Nat) (now : Time) (suspensionId : Id)
  | unsuspendRead (pid : Nat) (actorUserId : Id) (actorRole : UserRole) (targetUserId : Id)
      (reason : Option String)
  | unsuspendFind (pid : Nat)
  | unsuspendCommit (pid : Nat) (now : Time)
  | cronRead (pid : Nat) (now : Time)
  | cronCommit (pid : Nat)
  | fail (pid : Nat)

def State.set (s : State) (pid : Nat) (f : Flight) (db : Db) : State :=
  { db := db, flights := Function.update s.flights pid f }

def step (s : State) : Act → State
  | .suspendRead pid now actor role target dto =>
      match s.flights pid, suspendCheck now actor role target dto s.db with
      | .idle, .ok () => s.set pid (.suspending actor target dto) s.db
      | _, _ => s
  | .suspendCommit pid now sid =>
      match s.flights pid with
      | .suspending actor target dto =>
          match suspendTx now sid actor target dto s.db with
          | .ok (_, db) => s.set pid .idle db
          | .error _ => s.set pid .idle s.db
      | _ => s
  | .unsuspendRead pid actor role target reason =>
      match s.flights pid, unsuspendCheck role target s.db with
      | .idle, .ok () => s.set pid (.unsuspending actor target reason) s.db
      | _, _ => s
  | .unsuspendFind pid =>
      match s.flights pid with
      | .unsuspending actor target reason =>
          match findActive target s.db with
          | none => s.set pid .idle s.db
          | some active => s.set pid (.lifting actor target reason active.id) s.db
      | _ => s
  | .unsuspendCommit pid now =>
      match s.flights pid with
      | .lifting actor target reason activeId =>
          s.set pid .idle (unsuspendTx now actor target reason activeId s.db)
      | _ => s
  | .cronRead pid now =>
      match s.flights pid with
      | .idle => s.set pid (.reactivating now (findExpired now s.db)) s.db
      | _ => s
  | .cronCommit pid =>
      match s.flights pid with
      | .reactivating now (x :: rest) =>
          s.set pid (.reactivating now rest)
            (reactivateOne x.id x.userId (x.expiresAt.getD now) now s.db)
      | _ => s
  | .fail pid =>
      match s.flights pid with
      | .reactivating now (_ :: rest) => s.set pid (.reactivating now rest) s.db
      | _ => s.set pid .idle s.db

/-- A user is flagged exactly when an unrevoked suspension of the user is stored, and at
most one is. -/
structure Agree (db : Db) : Prop where
  flag : ∀ u ∈ db.users, u.status = .suspended ↔
    ∃ x ∈ db.userSuspensions, x.userId = u.id ∧ x.revokedAt = none
  single : ∀ x ∈ db.userSuspensions, ∀ y ∈ db.userSuspensions,
    x.revokedAt = none → y.revokedAt = none → x.userId = y.userId → x = y

/-- The suspension is still unrevoked, or the user is not suspended at all. -/
def StillActive (suspensionId userId : Id) (db : Db) : Prop :=
  (∃ x ∈ db.userSuspensions, x.id = suspensionId ∧ x.revokedAt = none) ∨
  ∀ u ∈ db.users, u.id = userId → u.status ≠ .suspended

/-- What a transaction relies on still holds when it runs: a suspension finds its target
not suspended, a lift finds its suspension unrevoked or the user not suspended. -/
def ReadsStillHold (s : State) : Act → Prop
  | .suspendCommit pid _ sid => ∀ actor target dto, s.flights pid = .suspending actor target dto →
      (∀ x ∈ s.db.userSuspensions, x.id ≠ sid) →
      ∀ u ∈ s.db.users, u.id = target → u.status ≠ .suspended
  | .unsuspendCommit pid _ => ∀ actor target reason activeId,
      s.flights pid = .lifting actor target reason activeId → StillActive activeId target s.db
  | .cronCommit pid => ∀ now x rest, s.flights pid = .reactivating now (x :: rest) →
      StillActive x.id x.userId s.db
  | _ => True

/-- The suspension a flight works on is stored, for the user it works on. -/
def Flight.Known (db : Db) : Flight → Prop
  | .lifting _ target _ activeId => ∃ x ∈ db.userSuspensions, x.id = activeId ∧ x.userId = target
  | .reactivating _ rest => ∀ y ∈ rest, ∃ x ∈ db.userSuspensions, x.id = y.id ∧ x.userId = y.userId
  | _ => True

/-- What every step keeps, whatever the interleaving. -/
structure Wf (s : State) : Prop where
  userKeys : Rows.Unique (·.id) s.db.users
  suspensionKeys : Rows.Unique (·.id) s.db.userSuspensions
  owner : ∀ x ∈ s.db.userSuspensions, ∃ u ∈ s.db.users, u.id = x.userId
  known : ∀ pid, (s.flights pid).Known s.db

/-! ## The two tables after a transaction -/

theorem suspendTx_ok {now : Time} {sid actor target : Id} {dto : SuspendUserDto} {db db' : Db}
    {r : SuspendResult} (h : suspendTx now sid actor target dto db = .ok (r, db')) :
    (∀ x ∈ db.userSuspensions, x.id ≠ sid) ∧ (∃ u ∈ db.users, u.id = target) ∧
    db'.users = Rows.updateMany (·.id == target) (strike now) db.users ∧
    db'.userSuspensions = db.userSuspensions ++ [newSuspension now sid actor target dto] := by
  unfold suspendTx at h
  split at h
  · cases h
  · rename_i hid
    split at h
    · cases h
    · rename_i hu
      have hnew : ∀ x ∈ db.userSuspensions, x.id ≠ sid := by
        intro x hx he
        exact hid (List.any_eq_true.mpr ⟨x, hx, by simp [he]⟩)
      obtain ⟨u, hfind⟩ := Option.ne_none_iff_exists'.mp (by simpa using hu)
      have hmem := List.mem_of_find?_eq_some hfind
      have hkey : u.id = target := by simpa using List.find?_some hfind
      simp only [Except.ok.injEq, Prod.mk.injEq] at h
      obtain ⟨_, rfl⟩ := h
      refine ⟨hnew, ⟨u, hmem, hkey⟩, ?_, ?_⟩
      · unfold auditWrite
        dsimp only
        split <;> split <;> rfl
      · unfold auditWrite
        dsimp only
        split <;> split <;> rfl

theorem suspendTx_error {now : Time} {sid actor target : Id} {dto : SuspendUserDto} {db : Db}
    {e : Err} (h : suspendTx now sid actor target dto db = .error e) :
    (∃ x ∈ db.userSuspensions, x.id = sid) ∨ ∀ u ∈ db.users, u.id ≠ target := by
  unfold suspendTx at h
  split at h
  · rename_i hid
    obtain ⟨x, hx, he⟩ := List.any_eq_true.mp hid
    exact Or.inl ⟨x, hx, by simpa using he⟩
  · split at h
    · rename_i hu
      refine Or.inr ?_
      intro u hm he
      have hf := List.find?_eq_none.mp (Option.isNone_iff_eq_none.mp hu) u hm
      simp [he] at hf
    · cases h

theorem mem_liftSuspension {at_ : Time} {by_ : Option Id} {reason : Option String}
    {sid userId : Id} {db : Db} {x' : UserSuspension} :
    x' ∈ (liftSuspension at_ by_ reason sid userId db).userSuspensions ↔
      ∃ x ∈ db.userSuspensions, x' = if x.id == sid then
        { x with revokedAt := some at_, revokedByUserId := by_, revokeReason := reason } else x :=
  Rows.mem_updateMany

/-- The rows left unrevoked by a lift are the earlier unrevoked ones with another id. -/
theorem unrevoked_after_lift (at_ : Time) (by_ : Option Id) (reason : Option String)
    (sid userId : Id) (db : Db) (x : UserSuspension) :
    (x ∈ (liftSuspension at_ by_ reason sid userId db).userSuspensions ∧ x.revokedAt = none) ↔
      (x ∈ db.userSuspensions ∧ x.revokedAt = none ∧ x.id ≠ sid) := by
  constructor
  · rintro ⟨hm, hrev⟩
    obtain ⟨y, hy, rfl⟩ := mem_liftSuspension.mp hm
    by_cases he : y.id = sid
    · simp [he] at hrev
    · simp only [beq_iff_eq, he, ↓reduceIte] at hrev ⊢
      exact ⟨hy, hrev, he⟩
  · rintro ⟨hm, hrev, he⟩
    refine ⟨mem_liftSuspension.mpr ⟨x, hm, ?_⟩, hrev⟩
    simp [he]

/-- Lifting the only unrevoked suspension of a user keeps the agreement. -/
theorem agree_lift (at_ : Time) (by_ : Option Id) (reason : Option String) {sid userId : Id}
    {db : Db} (hsid : ∀ x ∈ db.userSuspensions, x.id = sid → x.userId = userId)
    (honly : ∀ x ∈ db.userSuspensions, x.revokedAt = none → x.userId = userId → x.id = sid)
    (ha : Agree db) : Agree (liftSuspension at_ by_ reason sid userId db) := by
  have hleft := unrevoked_after_lift at_ by_ reason sid userId db
  constructor
  · intro u' hu'
    obtain ⟨u, hu, rfl⟩ := Rows.mem_updateMany.mp hu'
    by_cases he : u.id = userId
    · simp only [he, beq_self_eq_true, ↓reduceIte, reduceCtorEq, false_iff]
      rintro ⟨x, hx, hxuser, hxrev⟩
      obtain ⟨hx, hxrev, hxid⟩ := (hleft _).mp ⟨hx, hxrev⟩
      exact hxid (honly x hx hxrev hxuser)
    · simp only [beq_iff_eq, he, ↓reduceIte]
      rw [ha.flag u hu]
      constructor
      · rintro ⟨x, hx, hxuser, hxrev⟩
        have hxid : x.id ≠ sid := fun hxe => he (hxuser.symm.trans (hsid x hx hxe))
        have hx' := (hleft _).mpr ⟨hx, hxrev, hxid⟩
        exact ⟨x, hx'.1, hxuser, hx'.2⟩
      · rintro ⟨x, hx, hxuser, hxrev⟩
        obtain ⟨hx, hxrev, _⟩ := (hleft _).mp ⟨hx, hxrev⟩
        exact ⟨x, hx, hxuser, hxrev⟩
  · intro x hx y hy hxrev hyrev he
    obtain ⟨hx, hxrev, _⟩ := (hleft _).mp ⟨hx, hxrev⟩
    obtain ⟨hy, hyrev, _⟩ := (hleft _).mp ⟨hy, hyrev⟩
    exact ha.single x hx y hy hxrev hyrev he

/-- A lift keeps the agreement exactly when its suspension is still unrevoked or its
user is not suspended. -/
theorem lift_agree_iff (at_ : Time) (by_ : Option Id) (reason : Option String) (sid userId : Id)
    (db : Db) (hsk : Rows.Unique (·.id) db.userSuspensions)
    (hown : ∀ x ∈ db.userSuspensions, ∃ u ∈ db.users, u.id = x.userId)
    (hknown : ∃ x ∈ db.userSuspensions, x.id = sid ∧ x.userId = userId) (ha : Agree db) :
    Agree (liftSuspension at_ by_ reason sid userId db) ↔ StillActive sid userId db := by
  have hsid : ∀ x ∈ db.userSuspensions, x.id = sid → x.userId = userId := by
    obtain ⟨r, hr, hrid, hruser⟩ := hknown
    intro x hx hxid
    rw [hsk.eq hx hr (hxid.trans hrid.symm)]
    exact hruser
  constructor
  · intro h
    by_contra hn
    obtain ⟨hrev, hsusp⟩ := not_or.mp hn
    push Not at hrev hsusp
    obtain ⟨u, hu, hue, hus⟩ := hsusp
    obtain ⟨q, hq, hquser, hqrev⟩ := (ha.flag u hu).mp hus
    have hqid : q.id ≠ sid := fun he => hrev q hq he hqrev
    -- `q` is still unrevoked, yet its user is active now
    have hq' := (unrevoked_after_lift at_ by_ reason sid userId db _).mpr ⟨hq, hqrev, hqid⟩
    have hu' : { u with status := .active } ∈
        (liftSuspension at_ by_ reason sid userId db).users :=
      Rows.mem_updateMany.mpr ⟨u, hu, by simp [hue]⟩
    have hflag := (h.flag _ hu').mpr ⟨q, hq'.1, hquser, hq'.2⟩
    cases hflag
  · intro h
    apply agree_lift at_ by_ reason hsid _ ha
    intro x hx hxrev hxuser
    rcases h with ⟨y, hy, hyid, hyrev⟩ | hactive
    · rw [ha.single x hx y hy hxrev hyrev (hxuser.trans (hsid y hy hyid).symm), hyid]
    · obtain ⟨v, hv, hvid⟩ := hown x hx
      have hs := (ha.flag v hv).mpr ⟨x, hx, hvid.symm, hxrev⟩
      exact absurd hs (hactive v hv (hvid.trans hxuser))

/-- A committed suspension keeps the agreement exactly when its target was not suspended. -/
theorem suspend_agree_iff {now : Time} {sid actor target : Id} {dto : SuspendUserDto} {db db' : Db}
    {r : SuspendResult} (h : suspendTx now sid actor target dto db = .ok (r, db'))
    (ha : Agree db) :
    Agree db' ↔ ∀ u ∈ db.users, u.id = target → u.status ≠ .suspended := by
  obtain ⟨hnew, ⟨v, hv, hve⟩, husers, hrows⟩ := suspendTx_ok h
  have hmem : ∀ x, x ∈ db'.userSuspensions ↔
      x ∈ db.userSuspensions ∨ x = newSuspension now sid actor target dto := by
    intro x
    rw [hrows, List.mem_append, List.mem_singleton]
  constructor
  · intro h' u hu hue hus
    obtain ⟨q, hq, hquser, hqrev⟩ := (ha.flag u hu).mp hus
    have heq := h'.single q ((hmem q).mpr (Or.inl hq)) _ ((hmem _).mpr (Or.inr rfl)) hqrev rfl
      (hquser.trans hue)
    apply hnew q hq
    rw [heq]
    rfl
  · intro hactive
    have hnone : ∀ x ∈ db.userSuspensions, x.revokedAt = none → x.userId ≠ target := by
      intro x hx hxrev hxuser
      exact hactive v hv hve ((ha.flag v hv).mpr ⟨x, hx, by rw [hve]; exact hxuser, hxrev⟩)
    constructor
    · intro u' hu'
      rw [husers] at hu'
      obtain ⟨u, hu, rfl⟩ := Rows.mem_updateMany.mp hu'
      by_cases he : u.id = target
      · simp only [he, beq_self_eq_true, ↓reduceIte, strike, true_iff]
        exact ⟨_, (hmem _).mpr (Or.inr rfl), rfl, rfl⟩
      · simp only [beq_iff_eq, he, ↓reduceIte]
        rw [ha.flag u hu]
        constructor
        · rintro ⟨x, hx, hxuser, hxrev⟩
          exact ⟨x, (hmem x).mpr (Or.inl hx), hxuser, hxrev⟩
        · rintro ⟨x, hx, hxuser, hxrev⟩
          rcases (hmem x).mp hx with hx | rfl
          · exact ⟨x, hx, hxuser, hxrev⟩
          · exact absurd hxuser.symm he
    · intro x hx y hy hxrev hyrev he
      rcases (hmem x).mp hx with hx | rfl <;> rcases (hmem y).mp hy with hy | rfl
      · exact ha.single x hx y hy hxrev hyrev he
      · exact absurd he (hnone x hx hxrev)
      · exact absurd he.symm (hnone y hy hyrev)
      · rfl

theorem agree_auditWrite (row : AdminAuditLog) (db : Db) : Agree (auditWrite row db) ↔ Agree db :=
  ⟨fun h => ⟨h.flag, h.single⟩, fun h => ⟨h.flag, h.single⟩⟩

/-! ## Well-formedness along a run -/

/-- The keys and owners survive, and no suspension row disappears. -/
structure Carries (db db' : Db) : Prop where
  userKeys : Rows.Unique (·.id) db.users → Rows.Unique (·.id) db'.users
  suspensionKeys : Rows.Unique (·.id) db.userSuspensions → Rows.Unique (·.id) db'.userSuspensions
  owner : (∀ x ∈ db.userSuspensions, ∃ u ∈ db.users, u.id = x.userId) →
    ∀ x ∈ db'.userSuspensions, ∃ u ∈ db'.users, u.id = x.userId
  rows : ∀ x ∈ db.userSuspensions, ∃ x' ∈ db'.userSuspensions, x'.id = x.id ∧ x'.userId = x.userId

theorem Carries.refl (db : Db) : Carries db db :=
  ⟨id, id, id, fun x hx => ⟨x, hx, rfl, rfl⟩⟩

theorem Carries.auditWrite {db db' : Db} (h : Carries db db') (row : AdminAuditLog) :
    Carries db (auditWrite row db') :=
  ⟨h.userKeys, h.suspensionKeys, h.owner, h.rows⟩

/-- An update of one user that keeps its id keeps an owner for every row that had one. -/
theorem owner_updateUser (id : Id) (f : User → User) (hf : ∀ u, (f u).id = u.id)
    {users : List User} {userId : Id} (h : ∃ u ∈ users, u.id = userId) :
    ∃ u ∈ Rows.updateMany (·.id == id) f users, u.id = userId := by
  obtain ⟨u, hu, he⟩ := h
  refine ⟨_, Rows.mem_updateMany.mpr ⟨u, hu, rfl⟩, ?_⟩
  split
  · rw [hf]; exact he
  · exact he

theorem lift_carries (at_ : Time) (by_ : Option Id) (reason : Option String) (sid userId : Id)
    (db : Db) : Carries db (liftSuspension at_ by_ reason sid userId db) where
  userKeys h := by
    apply Rows.unique_updateMany _ h
    intro u
    rfl
  suspensionKeys h := by
    apply Rows.unique_updateMany _ h
    intro x
    rfl
  owner h := by
    intro x' hx'
    obtain ⟨x, hx, rfl⟩ := mem_liftSuspension.mp hx'
    have ho := owner_updateUser userId (fun u => { u with status := .active }) (fun _ => rfl) (h x hx)
    split <;> exact ho
  rows := by
    intro x hx
    refine ⟨_, mem_liftSuspension.mpr ⟨x, hx, rfl⟩, ?_⟩
    split <;> exact ⟨rfl, rfl⟩

theorem suspendTx_carries {now : Time} {sid actor target : Id} {dto : SuspendUserDto} {db db' : Db}
    {r : SuspendResult} (h : suspendTx now sid actor target dto db = .ok (r, db')) :
    Carries db db' := by
  obtain ⟨hnew, hv, husers, hrows⟩ := suspendTx_ok h
  constructor
  · intro hk
    rw [husers]
    apply Rows.unique_updateMany _ hk
    intro u
    rfl
  · intro hk
    rw [hrows]
    exact Rows.unique_append hk hnew
  · intro ho x hx
    rw [husers]
    rw [hrows, List.mem_append, List.mem_singleton] at hx
    apply owner_updateUser target (strike now) (fun _ => rfl)
    rcases hx with hx | rfl
    · exact ho x hx
    · exact hv
  · intro x hx
    rw [hrows]
    exact ⟨x, List.mem_append_left _ hx, rfl, rfl⟩

theorem Flight.Known.carry {db db' : Db} (h : Carries db db') {f : Flight} (hf : f.Known db) :
    f.Known db' := by
  cases f with
  | idle => trivial
  | suspending _ _ _ => trivial
  | unsuspending _ _ _ => trivial
  | lifting _ target _ activeId =>
      obtain ⟨x, hx, hid, huser⟩ := hf
      obtain ⟨x', hx', hid', huser'⟩ := h.rows x hx
      exact ⟨x', hx', hid'.trans hid, huser'.trans huser⟩
  | reactivating _ rest =>
      intro y hy
      obtain ⟨x, hx, hid, huser⟩ := hf y hy
      obtain ⟨x', hx', hid', huser'⟩ := h.rows x hx
      exact ⟨x', hx', hid'.trans hid, huser'.trans huser⟩

theorem Wf.set {s : State} (h : Wf s) (pid : Nat) {f : Flight} {db : Db} (hc : Carries s.db db)
    (hf : f.Known db) : Wf (s.set pid f db) where
  userKeys := hc.userKeys h.userKeys
  suspensionKeys := hc.suspensionKeys h.suspensionKeys
  owner := hc.owner h.owner
  known := (Function.forall_update_iff s.flights fun _ f => f.Known db).mpr
    ⟨hf, fun p _ => (h.known p).carry hc⟩

theorem findActive_known {target : Id} {db : Db} {x : UserSuspension}
    (h : findActive target db = some x) : x ∈ db.userSuspensions ∧ x.userId = target := by
  have hm := List.mem_filter.mp (Rows.newest_mem h)
  exact ⟨hm.1, by simpa using (Bool.and_eq_true_iff.mp hm.2).1⟩

theorem step_wf (s : State) (a : Act) (h : Wf s) : Wf (step s a) := by
  cases a with
  | suspendRead pid now actor role target dto =>
      simp only [step]
      split
      · exact h.set pid (.refl _) trivial
      · exact h
  | suspendCommit pid now sid =>
      simp only [step]
      split
      · split
        · rename_i htx
          exact h.set pid (suspendTx_carries htx) trivial
        · exact h.set pid (.refl _) trivial
      · exact h
  | unsuspendRead pid actor role target reason =>
      simp only [step]
      split
      · exact h.set pid (.refl _) trivial
      · exact h
  | unsuspendFind pid =>
      simp only [step]
      split
      · split
        · exact h.set pid (.refl _) trivial
        · rename_i x hx
          obtain ⟨hm, hu⟩ := findActive_known hx
          exact h.set pid (.refl _) ⟨x, hm, rfl, hu⟩
      · exact h
  | unsuspendCommit pid now =>
      simp only [step]
      split
      · rename_i actor target reason activeId _
        have hc := lift_carries now (some actor) reason activeId target s.db
        exact h.set pid (hc.auditWrite _) trivial
      · exact h
  | cronRead pid now =>
      simp only [step]
      split
      · apply h.set pid (.refl _)
        intro y hy
        exact ⟨y, List.mem_of_mem_filter hy, rfl, rfl⟩
      · exact h
  | cronCommit pid =>
      simp only [step]
      split
      · rename_i now x rest hfl
        have hc := lift_carries now none (some "auto: expired") x.id x.userId s.db
        have hk := h.known pid
        rw [hfl] at hk
        have hrest : (Flight.reactivating now rest).Known s.db :=
          fun y hy => hk y (List.mem_cons_of_mem _ hy)
        exact h.set pid (hc.auditWrite _) (hrest.carry (hc.auditWrite _))
      · exact h
  | fail pid =>
      simp only [step]
      split
      · rename_i now x rest hfl
        have hk := h.known pid
        rw [hfl] at hk
        exact h.set pid (.refl _) fun y hy => hk y (List.mem_cons_of_mem _ hy)
      · exact h.set pid (.refl _) trivial

/-! ## Agreement along a run -/

/-- From a state that agrees, a step agrees again exactly when its reads still hold. -/
theorem step_agree_iff (s : State) (a : Act) (h : Wf s) (ha : Agree s.db) :
    Agree (step s a).db ↔ ReadsStillHold s a := by
  cases a with
  | suspendRead pid now actor role target dto =>
      simp only [step, ReadsStillHold, iff_true]
      split <;> exact ha
  | suspendCommit pid now sid =>
      simp only [step, ReadsStillHold]
      split
      · rename_i actor target dto hfl
        split
        · rename_i r db' htx
          rw [State.set, suspend_agree_iff htx ha]
          constructor
          · intro hact actor' target' dto' he _ u hu hue
            rw [hfl] at he
            cases he
            exact hact u hu hue
          · intro hact
            exact hact actor target dto hfl (suspendTx_ok htx).1
        · rename_i e htx
          refine ⟨fun _ => ?_, fun _ => ha⟩
          intro actor' target' dto' he hnew u hu hue
          rw [hfl] at he
          cases he
          rcases suspendTx_error htx with ⟨x, hx, hxe⟩ | hmissing
          · exact absurd hxe (hnew x hx)
          · exact absurd hue (hmissing u hu)
      · rename_i hfl
        refine ⟨fun _ => ?_, fun _ => ha⟩
        intro actor target dto he
        exact absurd he (hfl actor target dto)
  | unsuspendRead pid actor role target reason =>
      simp only [step, ReadsStillHold, iff_true]
      split <;> exact ha
  | unsuspendFind pid =>
      simp only [step, ReadsStillHold, iff_true]
      split
      · split <;> exact ha
      · exact ha
  | unsuspendCommit pid now =>
      simp only [step, ReadsStillHold]
      split
      · rename_i actor target reason activeId hfl
        have hk := h.known pid
        rw [hfl] at hk
        rw [State.set, unsuspendTx, agree_auditWrite,
          lift_agree_iff now (some actor) reason activeId target s.db h.suspensionKeys h.owner hk ha]
        constructor
        · intro hact actor' target' reason' id' he
          rw [hfl] at he
          cases he
          exact hact
        · intro hact
          exact hact actor target reason activeId hfl
      · rename_i hfl
        refine ⟨fun _ => ?_, fun _ => ha⟩
        intro actor target reason id he
        exact absurd he (hfl actor target reason id)
  | cronRead pid now =>
      simp only [step, ReadsStillHold, iff_true]
      split <;> exact ha
  | cronCommit pid =>
      simp only [step, ReadsStillHold]
      split
      · rename_i now x rest hfl
        have hk := h.known pid
        rw [hfl] at hk
        rw [State.set, reactivateOne, agree_auditWrite,
          lift_agree_iff now none (some "auto: expired") x.id x.userId s.db h.suspensionKeys h.owner
            (hk x List.mem_cons_self) ha]
        constructor
        · intro hact now' x' rest' he
          rw [hfl] at he
          cases he
          exact hact
        · intro hact
          exact hact now x rest hfl
      · rename_i hfl
        refine ⟨fun _ => ?_, fun _ => ha⟩
        intro now x rest he
        exact absurd he (hfl now x rest)
  | fail pid =>
      simp only [step, ReadsStillHold, iff_true]
      split <;> exact ha

/-- No call in flight. -/
def start (db : Db) : State := { db := db, flights := fun _ => .idle }

/-- No suspension is stored and no user is flagged. -/
structure NoSuspensions (db : Db) : Prop where
  keys : Rows.Unique (·.id) db.users
  rows : db.userSuspensions = []
  active : ∀ u ∈ db.users, u.status ≠ .suspended

theorem start_wf {db : Db} (h : NoSuspensions db) : Wf (start db) where
  userKeys := h.keys
  suspensionKeys := by simp [start, h.rows, Rows.Unique]
  owner := by simp [start, h.rows]
  known _ := trivial

theorem start_agree {db : Db} (h : NoSuspensions db) : Agree db where
  flag u hu := by simp [h.rows, h.active u hu]
  single := by simp [h.rows]

/-- In every interleaving, flag and history agree in all states exactly when every
transaction still finds what its preliminary reads promised. -/
theorem agree_always_iff (db : Db) (h : NoSuspensions db) (acts : List Act) :
    Always step (fun s => Agree s.db) (start db) acts ↔
      Along step ReadsStillHold (start db) acts :=
  always_iff_along (fun s a hw => step_wf s a hw)
    (fun s a hw ha => step_agree_iff s a hw ha) acts (start db) (start_wf h) (start_agree h)

/-- Two admins and the user they are about to suspend. -/
def sampleDb : Db :=
  { users := [{ id := "admin1", phoneHash := "h1", role := .admin },
              { id := "admin2", phoneHash := "h2", role := .admin },
              { id := "mallory", phoneHash := "h3" }] }

theorem sampleDb_noSuspensions : NoSuspensions sampleDb :=
  ⟨by decide, rfl, by decide⟩

/-- Both admins pass the check before either commits. -/
def doubleSuspend : List Act :=
  [.suspendRead 0 10 "admin1" .admin "mallory" {}, .suspendRead 1 11 "admin2" .admin "mallory" {},
   .suspendCommit 0 12 "x1", .suspendCommit 1 13 "x2"]

/-- The overlapping suspensions leave two unrevoked rows for one user. -/
theorem double_suspend_disagrees :
    ¬ ∀ db, NoSuspensions db → ∀ acts, Always step (fun s => Agree s.db) (start db) acts := by
  intro h
  have hend := h sampleDb sampleDb_noSuspensions doubleSuspend doubleSuspend (List.prefix_refl _)
  have heq := hend.single (newSuspension 12 "x1" "admin1" "mallory" {}) (by decide)
    (newSuspension 13 "x2" "admin2" "mallory" {}) (by decide) rfl rfl rfl
  revert heq
  decide

/-- A suspension that nothing overtakes keeps flag and history in agreement. -/
theorem single_suspend_agrees :
    NoSuspensions sampleDb ∧ Always step (fun s => Agree s.db) (start sampleDb)
      [.suspendRead 0 10 "admin1" .admin "mallory" {}, .suspendCommit 0 12 "x1"] := by
  refine ⟨sampleDb_noSuspensions, (agree_always_iff sampleDb sampleDb_noSuspensions _).mpr ?_⟩
  have hactive : ∀ u ∈ (step (start sampleDb)
      (.suspendRead 0 10 "admin1" .admin "mallory" {})).db.users, u.status ≠ .suspended := by decide
  rw [along_cons, along_cons]
  exact ⟨trivial, fun _ _ _ _ _ u hu _ => hactive u hu, along_nil _ _ _⟩

end Birgap.Moderation.Agreement
