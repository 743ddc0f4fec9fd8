import Birgap.Moderation.Agreement
import Birgap.Moderation.Audited
import Birgap.Lib.Run

/-!
# Roles against suspensions

`changeUserRole` refuses to promote a suspended user and `suspendUser` refuses to suspend an
admin. `AdminBootstrapService` gives the admin role to every user whose phone hash is listed
in `ADMIN_PHONE_HASHES` when the process starts, without a look at the status. Operations run
one after the other.
-/
namespace Birgap.Moderation.Roles

set_option autoImplicit false

open Birgap.Common Birgap.Lib Birgap.Lib.Run Birgap.Moderation
open Birgap.Moderation.Agreement (suspendTx_ok)
open Birgap.Moderation.Audited (changeRoleCheck roleAudit roleRank)

/-- `ModerationService.changeUserRole`, run alone. -/
def changeUserRole (actorUserId : Id) (actorRole : UserRole) (targetUserId : Id)
    (newRole : UserRole) (reason : Option String) (db : Db) : Except Err (Id × UserRole) × Db :=
  if actorRole ≠ .admin then (.error (.forbidden "Admin role required to change user roles"), db)
  else
    match changeRoleCheck targetUserId newRole db with
    | .error e => (.error e, db)
    | .ok target =>
        (.ok (targetUserId, newRole),
          auditWrite (roleAudit actorUserId targetUserId target.role newRole reason)
            (updateUser targetUserId (fun u => { u with role := newRole }) db))

section

-- what `trim().toLowerCase()` makes of an entry
variable (normalise : String → String)

/-- The entries of `ADMIN_PHONE_HASHES`. -/
def listedHashes (raw : Option String) : List String :=
  match truthy raw with
  | none => []
  | some raw =>
      (((raw.toList.splitOn ',').map String.ofList).map normalise).filter (· ≠ "")

def bootstrapAudit (operator : String) (user : User) : AdminAuditLog :=
  { actorUserId := none, action := .rolePromote, targetType := .user, targetId := user.id
    metadata := .roleChangeBy "env" operator user.role .admin }

/-- The body of the loop. -/
def promoteListed (operator : String) (db : Db) (phoneHash : String) : Db :=
  match db.users.find? (·.phoneHash == phoneHash) with
  | none => db
  | some user =>
      if user.role = .admin then db
      else
        auditWrite (bootstrapAudit operator user)
          (updateUser user.id (fun u => { u with role := .admin }) db)

/-- `AdminBootstrapService.onApplicationBootstrap`. -/
def onApplicationBootstrap (operator : String) (raw : Option String) (db : Db) : Db :=
  (listedHashes normalise raw).foldl (promoteListed operator) db

/-- The operations that write a role or a status. -/
inductive Op where
  | suspendUser (now : Time) (suspensionId actorUserId : Id) (actorRole : UserRole)
      (targetUserId : Id) (dto : SuspendUserDto)
  | unsuspendUser (now : Time) (actorUserId : Id) (actorRole : UserRole) (targetUserId : Id)
      (reason : Option String)
  | changeUserRole (actorUserId : Id) (actorRole : UserRole) (targetUserId : Id)
      (newRole : UserRole) (reason : Option String)
  | reactivateExpired (now : Time) (fails : Id → Bool)
  | bootstrap (operator : String) (adminPhoneHashes : Option String)

def step (db : Db) : Op → Db
  | .suspendUser now suspensionId actorUserId actorRole targetUserId dto =>
      (suspendUser now suspensionId actorUserId actorRole targetUserId dto db).2
  | .unsuspendUser now actorUserId actorRole targetUserId reason =>
      (unsuspendUser now actorUserId actorRole targetUserId reason db).2
  | .changeUserRole actorUserId actorRole targetUserId newRole reason =>
      (changeUserRole actorUserId actorRole targetUserId newRole reason db).2
  | .reactivateExpired now fails => (runReactivation now fails db).2
  | .bootstrap operator adminPhoneHashes =>
      onApplicationBootstrap normalise operator adminPhoneHashes db

/-- No admin is suspended. -/
def NoSuspendedAdmin (db : Db) : Prop :=
  ∀ u ∈ db.users, u.role = .admin → u.status ≠ .suspended

/-- The step does not raise the role of a suspended user. -/
def NoRaise (db : Db) (o : Op) : Prop :=
  ∀ u ∈ db.users, u.status = .suspended → ∀ v ∈ (step normalise db o).users, v.id = u.id →
    roleRank v.role ≤ roleRank u.role

/-- A start of the process finds no listed user suspended. -/
def ListedActive (db : Db) : Op → Prop
  | .bootstrap _ adminPhoneHashes => ∀ u ∈ db.users,
      u.phoneHash ∈ listedHashes normalise adminPhoneHashes → u.status ≠ .suspended
  | _ => True

/-- The unique indexes on the users. -/
structure Keyed (db : Db) : Prop where
  ids : Rows.Unique (·.id) db.users
  hashes : Rows.Unique (·.phoneHash) db.users

end

/-! ## What an operation does to the users -/

/-- Every user is still there under its id and hash, and `P` relates its two rows. -/
structure Rewrites (P : User → User → Prop) (db db' : Db) : Prop where
  ids : db'.users.map (·.id) = db.users.map (·.id)
  hashes : db'.users.map (·.phoneHash) = db.users.map (·.phoneHash)
  rows : ∀ v ∈ db'.users, ∃ u ∈ db.users, u.id = v.id ∧ P u v

theorem Rewrites.keyed {P : User → User → Prop} {db db' : Db} (h : Rewrites P db db')
    (hk : Keyed db) : Keyed db' := by
  refine ⟨?_, ?_⟩
  · rw [Rows.Unique, h.ids]
    exact hk.ids
  · rw [Rows.Unique, h.hashes]
    exact hk.hashes

theorem rewrites_refl {P : User → User → Prop} (hP : ∀ u, P u u) (db : Db) : Rewrites P db db :=
  ⟨rfl, rfl, fun v hv => ⟨v, hv, rfl, hP v⟩⟩

theorem Rewrites.trans {P : User → User → Prop} (hP : ∀ u v w, P u v → P v w → P u w)
    {db db' db'' : Db} (h : Rewrites P db db') (h' : Rewrites P db' db'') : Rewrites P db db'' := by
  refine ⟨h'.ids.trans h.ids, h'.hashes.trans h.hashes, ?_⟩
  intro w hw
  obtain ⟨v, hv, hvw, hP'⟩ := h'.rows w hw
  obtain ⟨u, hu, huv, hP''⟩ := h.rows v hv
  exact ⟨u, hu, huv.trans hvw, hP u v w hP'' hP'⟩

/-- An update of the users that leaves their keys alone. -/
theorem rewrites_updateMany {P : User → User → Prop} {db db' : Db} {p : User → Bool}
    {f : User → User} (husers : db'.users = Rows.updateMany p f db.users)
    (hids : ∀ u, (f u).id = u.id) (hhashes : ∀ u, (f u).phoneHash = u.phoneHash)
    (hP : ∀ u ∈ db.users, P u (if p u then f u else u)) : Rewrites P db db' := by
  refine ⟨?_, ?_, ?_⟩
  · rw [husers]
    exact Rows.map_updateMany hids _
  · rw [husers]
    exact Rows.map_updateMany hhashes _
  · intro v hv
    rw [husers] at hv
    obtain ⟨u, hu, rfl⟩ := Rows.mem_updateMany.mp hv
    refine ⟨u, hu, ?_, hP u hu⟩
    split
    · exact (hids u).symm
    · rfl

/-- The row of a user neither becomes that of a suspended admin nor, while suspended, gets a
higher role. -/
structure Sane (u v : User) : Prop where
  admin : v.role = .admin → v.status = .suspended → u.role = .admin ∧ u.status = .suspended
  raise : u.status = .suspended → roleRank v.role ≤ roleRank u.role

theorem Sane.refl (u : User) : Sane u u := ⟨fun hr hs => ⟨hr, hs⟩, fun _ => Nat.le_refl _⟩

/-- The role is kept and a suspension at most lifted. -/
def Lifted (u v : User) : Prop := v.role = u.role ∧ (v.status = .suspended → u.status = .suspended)

theorem Lifted.sane {u v : User} (h : Lifted u v) : Sane u v := by
  refine ⟨fun hr hs => ⟨h.1 ▸ hr, h.2 hs⟩, ?_⟩
  intro _
  rw [h.1]

theorem Rewrites.mono {P Q : User → User → Prop} (hPQ : ∀ u v, P u v → Q u v) {db db' : Db}
    (h : Rewrites P db db') : Rewrites Q db db' := by
  refine ⟨h.ids, h.hashes, ?_⟩
  intro v hv
  obtain ⟨u, hu, hid, hP⟩ := h.rows v hv
  exact ⟨u, hu, hid, hPQ u v hP⟩

theorem Rewrites.noSuspendedAdmin {db db' : Db} (h : Rewrites Sane db db')
    (hn : NoSuspendedAdmin db) : NoSuspendedAdmin db' := by
  intro v hv hr hs
  obtain ⟨u, hu, _, hsane⟩ := h.rows v hv
  obtain ⟨hr', hs'⟩ := hsane.admin hr hs
  exact hn u hu hr' hs'

theorem suspendUser_rewrites (now : Time) (sid actor : Id) (role : UserRole) (target : Id)
    (dto : SuspendUserDto) {db : Db} (hk : Keyed db) :
    Rewrites Sane db (suspendUser now sid actor role target dto db).2 := by
  unfold suspendUser
  cases hcheck : suspendCheck now actor role target dto db with
  | error e => exact rewrites_refl Sane.refl db
  | ok _ =>
      cases htx : suspendTx now sid actor target dto db with
      | error e => exact rewrites_refl Sane.refl db
      | ok r =>
          obtain ⟨_, db'⟩ := r
          obtain ⟨_, _, husers, _⟩ := suspendTx_ok htx
          show Rewrites Sane db db'
          refine rewrites_updateMany husers (fun _ => rfl) (fun _ => rfl) ?_
          intro u hu
          by_cases hid : u.id = target
          · rw [if_pos (beq_iff_eq.mpr hid)]
            refine ⟨fun hr _ => ?_, fun _ => Nat.le_refl _⟩
            -- the check has found this row, and it is no admin's
            unfold suspendCheck at hcheck
            rw [findUser, ← hid, hk.ids.find?_eq hu] at hcheck
            simp only [show u.role = .admin from hr, if_true] at hcheck
            split at hcheck
            · cases hcheck
            · split at hcheck <;> cases hcheck
          · rw [if_neg fun hc => hid (beq_iff_eq.mp hc)]
            exact Sane.refl u

theorem lift_rewrites (at_ : Time) (by_ : Option Id) (reason : Option String) (sid userId : Id)
    (row : AdminAuditLog) (db : Db) :
    Rewrites Lifted db (auditWrite row (liftSuspension at_ by_ reason sid userId db)) := by
  refine rewrites_updateMany (f := fun u => { u with status := .active }) rfl (fun _ => rfl)
    (fun _ => rfl) ?_
  intro u _
  split
  · exact ⟨rfl, fun h => by cases h⟩
  · exact ⟨rfl, fun h => h⟩

theorem unsuspendUser_rewrites (now : Time) (actor : Id) (role : UserRole) (target : Id)
    (reason : Option String) (db : Db) :
    Rewrites Sane db (unsuspendUser now actor role target reason db).2 := by
  unfold unsuspendUser
  split
  · exact rewrites_refl Sane.refl db
  · split
    · exact rewrites_refl Sane.refl db
    · exact (lift_rewrites _ _ _ _ _ _ db).mono fun _ _ => Lifted.sane

theorem runReactivation_rewrites (now : Time) (fails : Id → Bool) (db : Db) :
    Rewrites Sane db (runReactivation now fails db).2 := by
  have hgo : ∀ (rest : List UserSuspension) (n : Nat) (db' : Db), Rewrites Lifted db db' →
      Rewrites Lifted db (rest.foldl (fun (acc : Nat × Db) suspension =>
        if fails suspension.id then acc
        else (acc.1 + 1, reactivateOne suspension.id suspension.userId
          (suspension.expiresAt.getD now) now acc.2)) (n, db')).2 := by
    intro rest
    induction rest with
    | nil => intro n db' h; exact h
    | cons x rest ih =>
        intro n db' h
        rw [List.foldl_cons]
        split
        · exact ih n db' h
        · refine ih _ _ (h.trans ?_ (lift_rewrites _ _ _ _ _ _ _))
          intro u v w huv hvw
          exact ⟨hvw.1.trans huv.1, fun hs => huv.2 (hvw.2 hs)⟩
  exact (hgo _ 0 db (rewrites_refl (fun _ => ⟨rfl, fun h => h⟩) db)).mono fun _ _ => Lifted.sane

theorem changeUserRole_rewrites (actor : Id) (role : UserRole) (target : Id) (newRole : UserRole)
    (reason : Option String) {db : Db} (hk : Keyed db) :
    Rewrites Sane db (changeUserRole actor role target newRole reason db).2 := by
  unfold changeUserRole
  split
  · exact rewrites_refl Sane.refl db
  · cases hcheck : changeRoleCheck target newRole db with
    | error e => exact rewrites_refl Sane.refl db
    | ok t =>
        refine rewrites_updateMany (f := fun u => { u with role := newRole }) rfl (fun _ => rfl)
          (fun _ => rfl) ?_
        intro u hu
        by_cases hid : u.id = target
        · rw [if_pos (beq_iff_eq.mpr hid)]
          -- the check has found this row: it is not suspended, or it loses every right
          have hallowed : ¬ (u.status = .suspended ∧ newRole ≠ .user) := by
            unfold changeRoleCheck at hcheck
            rw [findUser, ← hid, hk.ids.find?_eq hu] at hcheck
            intro hc
            simp only [hc, ne_eq, not_false_eq_true, and_self, if_true] at hcheck
            cases hcheck
          refine ⟨?_, ?_⟩
          · intro hr hs
            exact absurd ⟨hs, by rw [show newRole = .admin from hr]; decide⟩ hallowed
          · intro hs
            have huser : newRole = .user := by
              by_contra hne
              exact hallowed ⟨hs, hne⟩
            simp only [huser, roleRank]
            exact Nat.zero_le _
        · rw [if_neg fun hc => hid (beq_iff_eq.mp hc)]
          exact Sane.refl u

/-! ## The start of the process -/

def promote (u : User) : User := { u with role := .admin }

/-- One entry of the list promotes the user who has its hash. -/
theorem promoteListed_users (operator : String) {db : Db} (hk : Keyed db) (phoneHash : String) :
    (promoteListed operator db phoneHash).users =
      Rows.updateMany (·.phoneHash == phoneHash) promote db.users := by
  unfold promoteListed
  cases hfind : db.users.find? (·.phoneHash == phoneHash) with
  | none =>
      refine (Rows.updateMany_eq_self ?_).symm
      intro u hu
      exact Bool.eq_false_iff.mpr (List.find?_eq_none.mp hfind u hu)
  | some user =>
      have huser : user ∈ db.users := List.mem_of_find?_eq_some hfind
      have hhash : user.phoneHash = phoneHash := by simpa using List.find?_some hfind
      have hrow : ∀ u ∈ db.users, (u.phoneHash == phoneHash) = (u.id == user.id) := by
        intro u hu
        rw [Bool.eq_iff_iff, beq_iff_eq, beq_iff_eq, ← hhash]
        constructor
        · intro he
          rw [hk.hashes.eq hu huser he]
        · intro he
          rw [hk.ids.eq hu huser he]
      have hsame : Rows.updateMany (·.phoneHash == phoneHash) promote db.users =
          Rows.updateMany (·.id == user.id) promote db.users := by
        apply List.map_congr_left
        intro u hu
        by_cases hu' : u.id = user.id
        · rw [if_pos ((hrow u hu).trans (beq_iff_eq.mpr hu')), if_pos (beq_iff_eq.mpr hu')]
        · rw [if_neg fun hc => hu' (beq_iff_eq.mp ((hrow u hu).symm.trans hc)),
            if_neg fun hc => hu' (beq_iff_eq.mp hc)]
      rw [hsame]
      dsimp only
      by_cases hadmin : user.role = .admin
      · rw [if_pos hadmin]
        -- the update would not change the row
        refine (List.map_id _).symm.trans (List.map_congr_left ?_)
        intro u hu
        by_cases hid : u.id = user.id
        · rw [if_pos (beq_iff_eq.mpr hid), hk.ids.eq hu huser hid, promote, ← hadmin]
          rfl
        · rw [if_neg fun hc => hid (beq_iff_eq.mp hc)]
          rfl
      · rw [if_neg hadmin]
        rfl

theorem promote_rewrites {db db' : Db} {p : User → Bool}
    (husers : db'.users = Rows.updateMany p promote db.users) :
    Rewrites (fun _ _ => True) db db' :=
  rewrites_updateMany husers (fun _ => rfl) (fun _ => rfl) fun _ _ => trivial

/-- The loop promotes the users whose hash is listed. -/
theorem promoteAll_users (operator : String) (hashes : List String) :
    ∀ db : Db, Keyed db → (hashes.foldl (promoteListed operator) db).users =
      Rows.updateMany (fun u => hashes.contains u.phoneHash) promote db.users := by
  induction hashes with
  | nil =>
      intro db _
      exact (Rows.updateMany_eq_self fun _ _ => rfl).symm
  | cons h hashes ih =>
      intro db hk
      have hone := promoteListed_users operator hk h
      rw [List.foldl_cons, ih _ ((promote_rewrites hone).keyed hk), hone, Rows.updateMany,
        Rows.updateMany, Rows.updateMany, List.map_map]
      apply List.map_congr_left
      intro u _
      by_cases hu : u.phoneHash = h
      · simp [hu, promote]
      · simp [hu, promote]

theorem bootstrap_users (normalise : String → String) (operator : String) (raw : Option String)
    {db : Db} (hk : Keyed db) :
    (onApplicationBootstrap normalise operator raw db).users =
      Rows.updateMany (fun u => (listedHashes normalise raw).contains u.phoneHash) promote db.users :=
  promoteAll_users operator _ db hk

/-- Promoting no suspended user is harmless. -/
theorem bootstrap_rewrites (normalise : String → String) (operator : String) (raw : Option String)
    {db : Db} (hk : Keyed db)
    (h : ∀ u ∈ db.users, u.phoneHash ∈ listedHashes normalise raw → u.status ≠ .suspended) :
    Rewrites Sane db (onApplicationBootstrap normalise operator raw db) := by
  refine rewrites_updateMany (bootstrap_users normalise operator raw hk) (fun _ => rfl)
    (fun _ => rfl) ?_
  intro u hu
  split
  · rename_i hlisted
    have hactive := h u hu (List.contains_iff_mem.mp hlisted)
    exact ⟨fun _ hs => absurd hs hactive, fun hs => absurd hs hactive⟩
  · exact Sane.refl u

/-- A listed user who is suspended becomes a suspended admin. -/
theorem listed_of_noSuspendedAdmin (normalise : String → String) (operator : String)
    (raw : Option String) {db : Db} (hk : Keyed db)
    (h : NoSuspendedAdmin (onApplicationBootstrap normalise operator raw db)) :
    ∀ u ∈ db.users, u.phoneHash ∈ listedHashes normalise raw → u.status ≠ .suspended := by
  intro u hu hlisted hs
  have hmem : promote u ∈ (onApplicationBootstrap normalise operator raw db).users := by
    rw [bootstrap_users normalise operator raw hk]
    exact Rows.mem_updateMany.mpr ⟨u, hu, by rw [if_pos (List.contains_iff_mem.mpr hlisted)]⟩
  exact h (promote u) hmem rfl hs

/-! ## Every run -/

variable (normalise : String → String)

theorem step_sane {db : Db} (hk : Keyed db) (o : Op) (hc : ListedActive normalise db o) :
    Rewrites Sane db (step normalise db o) := by
  cases o with
  | suspendUser now sid actor role target dto =>
      exact suspendUser_rewrites now sid actor role target dto hk
  | unsuspendUser now actor role target reason =>
      exact unsuspendUser_rewrites now actor role target reason db
  | changeUserRole actor role target newRole reason =>
      exact changeUserRole_rewrites actor role target newRole reason hk
  | reactivateExpired now fails => exact runReactivation_rewrites now fails db
  | bootstrap operator raw => exact bootstrap_rewrites normalise operator raw hk hc

theorem step_keyed (db : Db) (o : Op) (hk : Keyed db) : Keyed (step normalise db o) := by
  cases o with
  | bootstrap operator raw => exact (promote_rewrites (bootstrap_users normalise operator raw hk)).keyed hk
  | suspendUser now sid actor role target dto =>
      exact (suspendUser_rewrites now sid actor role target dto hk).keyed hk
  | unsuspendUser now actor role target reason =>
      exact (unsuspendUser_rewrites now actor role target reason db).keyed hk
  | changeUserRole actor role target newRole reason =>
      exact (changeUserRole_rewrites actor role target newRole reason hk).keyed hk
  | reactivateExpired now fails => exact (runReactivation_rewrites now fails db).keyed hk

theorem step_noSuspendedAdmin_iff (db : Db) (o : Op) (hk : Keyed db) (hn : NoSuspendedAdmin db) :
    NoSuspendedAdmin (step normalise db o) ↔ ListedActive normalise db o := by
  constructor
  · intro h
    cases o with
    | bootstrap operator raw => exact listed_of_noSuspendedAdmin normalise operator raw hk h
    | _ => trivial
  · intro hc
    exact (step_sane normalise hk o hc).noSuspendedAdmin hn

theorem step_noRaise {db : Db} {o : Op} (hk : Keyed db) (hc : ListedActive normalise db o) :
    NoRaise normalise db o := by
  intro u hu hs v hv hid
  obtain ⟨w, hw, hwv, hsane⟩ := (step_sane normalise hk o hc).rows v hv
  have hwu : w = u := hk.ids.eq hw hu (hwv.trans hid)
  rw [hwu] at hsane
  exact hsane.raise hs

/-- From users that are all active, a run reaches no suspended admin and raises no suspended
user exactly when every start of the process finds no listed user suspended. -/
theorem no_suspended_admin_iff (db : Db) (hk : Keyed db) (hactive : ∀ u ∈ db.users, u.status = .active)
    (ops : List Op) :
    (Always (step normalise) NoSuspendedAdmin db ops ∧ Along (step normalise) (NoRaise normalise) db ops) ↔
      Along (step normalise) (ListedActive normalise) db ops := by
  have hstart : NoSuspendedAdmin db := by
    intro u hu _ hs
    rw [hactive u hu] at hs
    cases hs
  have hiff : Always (step normalise) NoSuspendedAdmin db ops ↔
      Along (step normalise) (ListedActive normalise) db ops :=
    always_iff_along (step_keyed normalise) (step_noSuspendedAdmin_iff normalise) ops db hk hstart
  constructor
  · intro h
    exact hiff.mp h.1
  · intro h
    refine ⟨hiff.mpr h, ?_⟩
    exact along_of_along (fun db o hk _ => step_keyed normalise db o hk)
      (fun db o hk hc => step_noRaise normalise hk hc) ops db hk h

/-- A moderator whose hash is listed, and an admin. -/
def sampleDb : Db :=
  { users := [{ id := "root", phoneHash := "h0", role := .admin },
              { id := "mod", phoneHash := "h1", role := .moderator }] }

def suspendMod : Op := .suspendUser 0 "s1" "root" .admin "mod" {}

theorem bootstrap_promotes_suspended :
    ¬ ∀ (normalise : String → String) (db : Db), Keyed db → (∀ u ∈ db.users, u.status = .active) →
      ∀ ops : List Op, Always (step normalise) NoSuspendedAdmin db ops ∧
        Along (step normalise) (NoRaise normalise) db ops := by
  intro h
  have hrun := h id sampleDb ⟨by decide, by decide⟩ (by decide)
    [suspendMod, .bootstrap "deploy" (some "h1")]
  have hend := hrun.1 _ (List.prefix_refl _)
  revert hend
  unfold NoSuspendedAdmin
  decide

/-- Unsuspended before the next start, the moderator becomes an admin. -/
theorem bootstrap_after_unsuspend :
    Always (step id) NoSuspendedAdmin sampleDb
      [suspendMod, .unsuspendUser 1 "root" .admin "mod" none, .bootstrap "deploy" (some "h1")] := by
  refine ((no_suspended_admin_iff id sampleDb ⟨by decide, by decide⟩ (by decide) _).mpr ?_).1
  simp only [along_cons]
  refine ⟨trivial, trivial, ?_, along_nil _ _ _⟩
  unfold ListedActive
  decide

end Birgap.Moderation.Roles
