import Birgap.Common.Crypto
import Birgap.Lib.Rows

/-!
# Suspending, unsuspending and reactivating users

`ModerationService.suspendUser`, `unsuspendUser` and `SuspensionReactivationService`.
Each operation decides on reads made before its transaction; the reads and the
transaction are separate definitions, composed for a call that runs alone.
-/
namespace Birgap.Moderation

set_option autoImplicit false

open Birgap.Common Birgap.Lib

structure SuspendUserDto where
  reason : Option String := none
  expiresAt : Option Time := none
  reportId : Option Id := none

structure SuspendResult where
  suspensionId : Id
  tombstonedMessageCount : Nat
  deriving DecidableEq

def findUser (id : Id) (db : Db) : Option User := db.users.find? (·.id == id)

def updateUser (id : Id) (f : User → User) (db : Db) : Db :=
  { db with users := Rows.updateMany (·.id == id) f db.users }

theorem findUser_some {id : Id} {db : Db} {u : User} (h : findUser id db = some u) :
    u ∈ db.users ∧ u.id = id :=
  ⟨List.mem_of_find?_eq_some h, by simpa using List.find?_some h⟩

theorem mem_updateUser {userId : Id} {f : User → User} {db : Db} {v : User} :
    v ∈ (updateUser userId f db).users ↔
      (∃ u ∈ db.users, u.id = userId ∧ v = f u) ∨ (v ∈ db.users ∧ v.id ≠ userId) := by
  constructor
  · intro h
    obtain ⟨u, hu, rfl⟩ := Rows.mem_updateMany.mp h
    by_cases hid : u.id = userId
    · rw [if_pos (beq_iff_eq.mpr hid)]
      exact Or.inl ⟨u, hu, hid, rfl⟩
    · rw [if_neg fun hc => hid (beq_iff_eq.mp hc)]
      exact Or.inr ⟨hu, hid⟩
  · rintro (⟨u, hu, hid, rfl⟩ | ⟨hv, hid⟩)
    · exact Rows.mem_updateMany.mpr ⟨u, hu, by rw [if_pos (beq_iff_eq.mpr hid)]⟩
    · exact Rows.mem_updateMany.mpr ⟨v, hv, by rw [if_neg fun hc => hid (beq_iff_eq.mp hc)]⟩

def updateSuspension (id : Id) (f : UserSuspension → UserSuspension) (db : Db) : Db :=
  { db with userSuspensions := Rows.updateMany (·.id == id) f db.userSuspensions }

/-- `AuditLogService.write`. -/
def auditWrite (row : AdminAuditLog) (db : Db) : Db :=
  { db with adminAuditLog := db.adminAuditLog ++ [row] }

/-- The checks and reads of `suspendUser` before its transaction. -/
def suspendCheck (now : Time) (actorUserId : Id) (actorRole : UserRole) (targetUserId : Id)
    (dto : SuspendUserDto) (db : Db) : Except Err Unit :=
  if actorRole ≠ .admin then .error (.forbidden "Admin role required to suspend users")
  else if targetUserId = actorUserId then .error (.badRequest "You cannot suspend yourself")
  else
    match findUser targetUserId db with
    | none => .error (.notFound "User not found")
    | some target =>
        if target.role = .admin then .error (.forbidden "Cannot suspend an admin — demote first")
        else if target.status = .suspended then .error (.conflict "User is already suspended")
        else if dto.expiresAt.any (· ≤ now) then
          .error (.badRequest "expiresAt must be in the future")
        else .ok ()

def isOpenOrInReview (r : Report) : Bool := r.status == .open || r.status == .inReview

def closeReport (actorUserId : Id) (at_ : Time) (r : Report) : Report :=
  { r with
    status := .closed
    resolution := some .autoClosedSuspended
    reviewedByUserId := some actorUserId
    reviewedAt := some at_ }

def revokeUserTokens (userId : Id) (at_ : Time) (db : Db) : Db :=
  { db with
    refreshTokens := Rows.updateMany (fun t => t.userId == userId && t.revokedAt.isNone)
      (fun t => { t with revokedAt := some at_ }) db.refreshTokens }

def strike (now : Time) (u : User) : User :=
  { u with status := .suspended, strikeCount := u.strikeCount + 1, lastStrikeAt := some now }

def newSuspension (now : Time) (suspensionId actorUserId targetUserId : Id)
    (dto : SuspendUserDto) : UserSuspension :=
  { id := suspensionId, userId := targetUserId, suspendedByUserId := actorUserId
    reason := dto.reason.getD "No reason provided", suspendedAt := now
    expiresAt := dto.expiresAt }

/-- Tombstones the target's remaining messages, closes the open reports on them and
writes one audit row for each. -/
def tombstoneAll (now : Time) (suspensionId actorUserId : Id) (messageIds : List Id) (db : Db) : Db :=
  { db with
    messages := Rows.updateMany (fun m => messageIds.contains m.id)
      (fun m => { m with deletedAt := some now }) db.messages
    reports := Rows.updateMany (fun r => messageIds.contains r.messageId && isOpenOrInReview r)
      (closeReport actorUserId now) db.reports
    adminAuditLog := db.adminAuditLog ++ messageIds.map fun id =>
      { actorUserId := some actorUserId, action := .messageTombstone, targetType := .message,
        targetId := id, metadata := .cascadeTombstone suspensionId } }

/-- The transaction of `suspendUser`. -/
def suspendTx (now : Time) (suspensionId actorUserId targetUserId : Id) (dto : SuspendUserDto)
    (db : Db) : Except Err (SuspendResult × Db) :=
  if db.userSuspensions.any (·.id == suspensionId) then .error .uniqueConstraint
  else if (findUser targetUserId db).isNone then .error (.failure "Record to update not found.")
  else
    let suspension := newSuspension now suspensionId actorUserId targetUserId dto
    let db := { db with userSuspensions := db.userSuspensions ++ [suspension] }
    let db := updateUser targetUserId (strike now) db
    let db := revokeUserTokens targetUserId now db
    let messageIds := (db.messages.filter fun m =>
      m.senderUserId == targetUserId && m.deletedAt.isNone).map (·.id)
    let db := if messageIds.isEmpty then db
      else tombstoneAll now suspensionId actorUserId messageIds db
    let db := match truthy dto.reportId with
      | none => db
      | some reportId =>
          { db with
            reports := Rows.updateMany (fun r => r.id == reportId && isOpenOrInReview r)
              (closeReport actorUserId now) db.reports }
    let db := auditWrite
      { actorUserId := some actorUserId, action := .userSuspend, targetType := .user
        targetId := targetUserId, reason := dto.reason
        metadata := .suspend suspensionId dto.expiresAt messageIds.length dto.reportId } db
    .ok (⟨suspensionId, messageIds.length⟩, db)

/-- `suspendUser`, run alone. -/
def suspendUser (now : Time) (suspensionId actorUserId : Id) (actorRole : UserRole)
    (targetUserId : Id) (dto : SuspendUserDto) (db : Db) : Except Err SuspendResult × Db :=
  match suspendCheck now actorUserId actorRole targetUserId dto db with
  | .error e => (.error e, db)
  | .ok () =>
      match suspendTx now suspensionId actorUserId targetUserId dto db with
      | .error e => (.error e, db)
      | .ok (r, db') => (.ok r, db')

/-- The first read of `unsuspendUser`: the caller's role and the user's flag. -/
def unsuspendCheck (actorRole : UserRole) (targetUserId : Id) (db : Db) : Except Err Unit :=
  if actorRole ≠ .admin then .error (.forbidden "Admin role required to unsuspend users")
  else
    match findUser targetUserId db with
    | none => .error (.notFound "User not found")
    | some target =>
        if target.status ≠ .suspended then .error (.badRequest "User is not suspended")
        else .ok ()

/-- The second read of `unsuspendUser`: the newest unrevoked suspension of the user. -/
def findActive (targetUserId : Id) (db : Db) : Option UserSuspension :=
  Rows.newest (·.suspendedAt)
    (db.userSuspensions.filter fun s => s.userId == targetUserId && s.revokedAt.isNone)

/-- The writes `unsuspendUser` and `reactivateOne` share: revoke one suspension by its
id, and make the user active again. -/
def liftSuspension (at_ : Time) (by_ : Option Id) (reason : Option String)
    (suspensionId userId : Id) (db : Db) : Db :=
  updateUser userId (fun u => { u with status := .active })
    (updateSuspension suspensionId (fun s =>
      { s with revokedAt := some at_, revokedByUserId := by_, revokeReason := reason }) db)

/-- The transaction of `unsuspendUser`. -/
def unsuspendTx (now : Time) (actorUserId targetUserId : Id) (reason : Option String)
    (activeId : Id) (db : Db) : Db :=
  auditWrite
    { actorUserId := some actorUserId, action := .userUnsuspend, targetType := .user
      targetId := targetUserId, reason := reason, metadata := .unsuspend activeId }
    (liftSuspension now (some actorUserId) reason activeId targetUserId db)

/-- `unsuspendUser`, run alone. -/
def unsuspendUser (now : Time) (actorUserId : Id) (actorRole : UserRole) (targetUserId : Id)
    (reason : Option String) (db : Db) : Except Err Id × Db :=
  match unsuspendCheck actorRole targetUserId db with
  | .error e => (.error e, db)
  | .ok () =>
      match findActive targetUserId db with
      | none => (.error (.badRequest "No active suspension found"), db)
      | some active => (.ok active.id, unsuspendTx now actorUserId targetUserId reason active.id db)

/-- The list `SuspensionReactivationService.run` fetches before it starts. -/
def findExpired (now : Time) (db : Db) : List UserSuspension :=
  db.userSuspensions.filter fun s => s.revokedAt.isNone && s.expiresAt.any (· < now)

/-- The transaction of `reactivateOne`. -/
def reactivateOne (suspensionId userId : Id) (expiresAt : Time) (now : Time) (db : Db) : Db :=
  auditWrite
    { actorUserId := none, action := .userUnsuspend, targetType := .user, targetId := userId
      reason := some "auto: expired", metadata := .autoReactivation suspensionId expiresAt }
    (liftSuspension now none (some "auto: expired") suspensionId userId db)

/-- `SuspensionReactivationService.run`, run alone: the number of users reactivated. A
transaction that throws is logged and passed over; `fails` says which ones do. -/
def runReactivation (now : Time) (fails : Id → Bool) (db : Db) : Nat × Db :=
  (findExpired now db).foldl (fun (acc : Nat × Db) suspension =>
    if fails suspension.id then acc
    else (acc.1 + 1, reactivateOne suspension.id suspension.userId
      (suspension.expiresAt.getD now) now acc.2)) (0, db)

end Birgap.Moderation
