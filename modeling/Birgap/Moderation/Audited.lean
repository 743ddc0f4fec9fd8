import Birgap.Moderation.Reports
import Birgap.Messages.Delete
import Birgap.Lib.Clients

/-!
# Mutations and their audit rows

The ten operations that write the audit log, statement by statement, each statement with
the client it goes through. Five write the audit row with the transaction's client. Three
open a transaction and still write the audit row through the base client, and the two
operations on a report open none.
-/
namespace Birgap.Moderation.Audited

set_option autoImplicit false

open Birgap.Lib Birgap.Lib.Clients Birgap.Common Birgap.Messages Birgap.Moderation

/-- What a write is for. -/
inductive Part where
  | mutation
  | audit (row : AdminAuditLog)
  deriving DecidableEq

abbrev Program := Prog Db Err Part

/-- How an operation ends outside its transaction. -/
abbrev Answer := Ending Db Err Part

def transaction {α : Type} (body : Program α) : Program (Answer α) := .done (.transaction body)

def finish {α : Type} (a : α) : Program (Answer α) := .done (.result a)

/-- The error of an `update` that finds no row. -/
def recordFound (found : Bool) : Except Err Unit :=
  if found then .ok () else .error (.failure "Record to update not found.")

/-- A write of the operation itself. -/
def mutate (c : Client) (guard : Db → Except Err Unit) (effect : Db → Db) : Program Db :=
  .write c .mutation guard effect .done

/-- `AuditLogService.write` with the client it is given. -/
def audit (c : Client) (row : AdminAuditLog) : Program Unit :=
  .write c (.audit row) (fun _ => .ok ()) (auditWrite row) fun _ => .done ()

def always (_ : Db) : Except Err Unit := .ok ()

def updateUserRow (c : Client) (userId : Id) (f : User → User) : Program Db :=
  mutate c (fun db => recordFound (findUser userId db).isSome) (updateUser userId f)

def updateMessageRow (c : Client) (messageId : Id) (f : Message → Message) : Program Db :=
  mutate c (fun db => recordFound (db.messages.any (·.id == messageId))) fun db =>
    { db with messages := Rows.updateMany (·.id == messageId) f db.messages }

def updateReportRow (c : Client) (reportId : Id) (f : Report → Report) : Program Db :=
  mutate c (fun db => recordFound (db.reports.any (·.id == reportId))) fun db =>
    { db with reports := Rows.updateMany (·.id == reportId) f db.reports }

/-! ## Messages -/

/-- `cascadeCloseReports`, or the `updateMany` that stands in its place. -/
def closeReportRows (now : Time) (actorUserId messageId : Id) (dto : TombstoneMessageDto) :
    Program Db :=
  match truthy dto.reportId with
  | some reportId => do
      let _ ← mutate .tx always (closeReportsOf messageId .autoClosedTombstoned now actorUserId)
      updateReportRow .tx reportId fun r =>
        { r with reviewedByUserId := some actorUserId, reviewedAt := some now }
  | none => mutate .tx always (closeReportsOf messageId .autoClosedTombstoned now actorUserId)

/-- `ModerationService.tombstoneMessage`. -/
def tombstoneMessage (now : Time) (actorUserId : Id) (actorRole : UserRole) (messageId : Id)
    (dto : TombstoneMessageDto) : Program (Answer (Id × Time)) := do
  ensure (actorRole == .moderator || actorRole == .admin)
    (.forbidden "Moderator or admin role required")
  let _ ← fetch .base (tombstoneCheck actorRole messageId)
  transaction do
    let _ ← updateMessageRow .tx messageId fun m => { m with deletedAt := some now }
    let _ ← closeReportRows now actorUserId messageId dto
    audit .tx (tombstoneAudit actorUserId messageId dto)
    pure (messageId, now)

/-- The checks of `untombstoneMessage` on the message it reads. -/
def untombstoneCheck (messageId : Id) (db : Db) : Except Err Message :=
  match db.messages.find? (·.id == messageId) with
  | none => .error (.notFound "Message not found")
  | some message =>
      if message.deletedAt.isNone then .error (.badRequest "Message is not tombstoned")
      else .ok message

def untombstoneAudit (actorUserId messageId : Id) (reason : Option String) : AdminAuditLog :=
  { actorUserId := some actorUserId, action := .messageUntombstone, targetType := .message
    targetId := messageId, reason, metadata := .jsonNull }

/-- `ModerationService.untombstoneMessage`. -/
def untombstoneMessage (actorUserId : Id) (actorRole : UserRole) (messageId : Id)
    (reason : Option String) : Program (Answer (Option Message)) := do
  ensure (actorRole == .admin) (.forbidden "Admin role required")
  let _ ← fetch .base (untombstoneCheck messageId)
  transaction do
    let db ← updateMessageRow .tx messageId fun m => { m with deletedAt := none }
    audit .tx (untombstoneAudit actorUserId messageId reason)
    pure (db.messages.find? (·.id == messageId))

/-- The reads of `MessagesService.assertMessageAccess`: the message with its thread, and for
a group message the membership. -/
def messageAccess (userId messageId : Id) : Program Message := do
  let message ← fetch .base fun db =>
    match db.messages.find? (·.id == messageId) with
    | none => .error (.notFound "Message not found")
    | some m => if m.threadId.isSome then (hasAccess userId m db).map fun _ => m else .ok m
  if message.threadId.isNone && message.groupId.isSome then
    fetch .base fun db => (hasAccess userId message db).map fun _ => message
  else pure message

def groupDeleteAudit (userId messageId : Id) : AdminAuditLog :=
  { actorUserId := some userId, action := .messageTombstone, targetType := .message
    targetId := messageId, reason := some "group_admin_delete", metadata := .groupDelete }

/-- The transaction of `MessagesService.delete` for everyone. -/
def deleteBody (now : Time) (userId messageId : Id) : DeletedBy → Program DeletedBy
  | .sender => do
      let _ ← updateMessageRow .tx messageId (tombstoned now)
      pure .sender
  | .admin => do
      let _ ← updateMessageRow .tx messageId (tombstoned now)
      audit .tx (groupDeleteAudit userId messageId)
      pure .admin

/-- Who deletes; only for another's message the membership is read. -/
def deleter (userId : Id) (message : Message) : Program DeletedBy :=
  if message.senderUserId = userId then pure .sender
  else if message.groupId.isNone then
    .throw (.forbidden "Only the sender can delete a direct message for everyone")
  else fetch .base (deletedBy userId message)

/-- `MessagesService.delete` for everyone. -/
def deleteForEveryone (limit : EditLimit) (now : Time) (userId messageId deviceId : Id) :
    Program (Answer DeletedBy) := do
  fetch .base (assertActiveDevice userId deviceId)
  let message ← messageAccess userId messageId
  let who ← deleter userId message
  ensure (!limit.enabled || decide (now - message.createdAt ≤ limit.hours * 60 * 60 * 1000))
    (.forbidden ("Delete for everyone is only allowed within " ++ toString limit.hours ++ " hours"))
  transaction (deleteBody now userId messageId who)

/-! ## Users -/

def suspensionAudit (suspensionId actorUserId targetUserId : Id) (dto : SuspendUserDto)
    (messageCount : Nat) : AdminAuditLog :=
  { actorUserId := some actorUserId, action := .userSuspend, targetType := .user
    targetId := targetUserId, reason := dto.reason
    metadata := .suspend suspensionId dto.expiresAt messageCount dto.reportId }

def cascadeAudit (suspensionId actorUserId messageId : Id) : AdminAuditLog :=
  { actorUserId := some actorUserId, action := .messageTombstone, targetType := .message
    targetId := messageId, metadata := .cascadeTombstone suspensionId }

/-- What appending the row of an audit write does; a mutation is never written this way. -/
def appendRow : Part → Db → Db
  | .mutation => id
  | .audit row => auditWrite row

/-- The messages of a suspended user, the open reports on them, and a row for each. -/
def tombstoneRows (now : Time) (suspensionId actorUserId : Id) (messageIds : List Id) :
    Program Unit :=
  if messageIds.isEmpty then pure ()
  else do
    let _ ← mutate .tx always fun db =>
      { db with
        messages := Rows.updateMany (fun m => messageIds.contains m.id)
          (fun m => { m with deletedAt := some now }) db.messages }
    let _ ← mutate .tx always fun db =>
      { db with
        reports := Rows.updateMany (fun r => messageIds.contains r.messageId && isOpenOrInReview r)
          (closeReport actorUserId now) db.reports }
    writeAll .tx appendRow (messageIds.map fun id => .audit (cascadeAudit suspensionId actorUserId id))

/-- The report named in a suspension: read, and closed unless it is closed already. -/
def closeNamedReport (now : Time) (actorUserId : Id) (reportId : Option Id) : Program Unit :=
  match truthy reportId with
  | none => pure ()
  | some reportId => do
      let report ← fetch .tx fun db => .ok (findReport reportId db)
      if report.any isOpenOrInReview then
        let _ ← updateReportRow .tx reportId (closeReport actorUserId now)
        pure ()
      else pure ()

/-- The transaction of `suspendUser`. -/
def suspendBody (now : Time) (suspensionId actorUserId targetUserId : Id) (dto : SuspendUserDto) :
    Program SuspendResult := do
  let _ ← mutate .tx
    (fun db => if db.userSuspensions.any (·.id == suspensionId) then .error .uniqueConstraint
      else .ok ())
    (fun db => { db with
      userSuspensions := db.userSuspensions ++
        [newSuspension now suspensionId actorUserId targetUserId dto] })
  let _ ← updateUserRow .tx targetUserId (strike now)
  let _ ← mutate .tx always (revokeUserTokens targetUserId now)
  let messageIds ← fetch .tx fun db => .ok ((db.messages.filter fun m =>
    m.senderUserId == targetUserId && m.deletedAt.isNone).map (·.id))
  tombstoneRows now suspensionId actorUserId messageIds
  closeNamedReport now actorUserId dto.reportId
  audit .tx (suspensionAudit suspensionId actorUserId targetUserId dto messageIds.length)
  pure ⟨suspensionId, messageIds.length⟩

/-- `ModerationService.suspendUser`. -/
def suspendUser (now : Time) (suspensionId actorUserId : Id) (actorRole : UserRole)
    (targetUserId : Id) (dto : SuspendUserDto) : Program (Answer SuspendResult) := do
  ensure (actorRole == .admin) (.forbidden "Admin role required to suspend users")
  ensure (targetUserId != actorUserId) (.badRequest "You cannot suspend yourself")
  fetch .base (suspendCheck now actorUserId actorRole targetUserId dto)
  transaction (suspendBody now suspensionId actorUserId targetUserId dto)

/-- The two updates that end a suspension. -/
def liftRows (at_ : Time) (by_ : Option Id) (reason : Option String) (suspensionId userId : Id) :
    Program Db := do
  let _ ← mutate .tx (fun db => recordFound (db.userSuspensions.any (·.id == suspensionId)))
    (updateSuspension suspensionId fun s =>
      { s with revokedAt := some at_, revokedByUserId := by_, revokeReason := reason })
  updateUserRow .tx userId fun u => { u with status := .active }

def unsuspendAudit (actorUserId targetUserId : Id) (reason : Option String) (activeId : Id) :
    AdminAuditLog :=
  { actorUserId := some actorUserId, action := .userUnsuspend, targetType := .user
    targetId := targetUserId, reason, metadata := .unsuspend activeId }

/-- `ModerationService.unsuspendUser`. The audit row does not go through the transaction. -/
def unsuspendUser (now : Time) (actorUserId : Id) (actorRole : UserRole) (targetUserId : Id)
    (reason : Option String) : Program (Answer Id) := do
  ensure (actorRole == .admin) (.forbidden "Admin role required to unsuspend users")
  fetch .base (unsuspendCheck actorRole targetUserId)
  let active ← fetch .base fun db =>
    match findActive targetUserId db with
    | none => .error (.badRequest "No active suspension found")
    | some active => .ok active
  transaction do
    let _ ← liftRows now (some actorUserId) reason active.id targetUserId
    audit .base (unsuspendAudit actorUserId targetUserId reason active.id)
    pure active.id

def reactivationAudit (suspensionId userId : Id) (expiresAt : Time) : AdminAuditLog :=
  { actorUserId := none, action := .userUnsuspend, targetType := .user, targetId := userId
    reason := some "auto: expired", metadata := .autoReactivation suspensionId expiresAt }

/-- `SuspensionReactivationService.reactivateOne`. -/
def reactivateOne (suspensionId userId : Id) (expiresAt now : Time) : Program (Answer Unit) :=
  transaction do
    let _ ← liftRows now none (some "auto: expired") suspensionId userId
    audit .tx (reactivationAudit suspensionId userId expiresAt)

/-- The read of `resetStrikes`. -/
def resetCheck (targetUserId : Id) (db : Db) : Except Err User :=
  match findUser targetUserId db with
  | none => .error (.notFound "User not found")
  | some target =>
      if target.strikeCount = 0 then .error (.badRequest "User has no strikes to reset")
      else .ok target

def resetAudit (actorUserId targetUserId : Id) (reason : String) (previousCount : Nat) :
    AdminAuditLog :=
  { actorUserId := some actorUserId, action := .strikeReset, targetType := .user
    targetId := targetUserId, reason := some reason, metadata := .strikeReset previousCount }

/-- `ModerationService.resetStrikes`. The audit row does not go through the transaction. -/
def resetStrikes (actorUserId : Id) (actorRole : UserRole) (targetUserId : Id) (reason : String) :
    Program (Answer (Option User)) := do
  ensure (actorRole == .admin) (.forbidden "Admin role required to reset strikes")
  let target ← fetch .base (resetCheck targetUserId)
  transaction do
    let db ← updateUserRow .tx targetUserId fun u => { u with strikeCount := 0, lastStrikeAt := none }
    audit .base (resetAudit actorUserId targetUserId reason target.strikeCount)
    pure (findUser targetUserId db)

def roleRank : UserRole → Nat
  | .admin => 2
  | .moderator => 1
  | .user => 0

/-- The read of `changeUserRole`. -/
def changeRoleCheck (targetUserId : Id) (newRole : UserRole) (db : Db) : Except Err User :=
  match findUser targetUserId db with
  | none => .error (.notFound "User not found")
  | some target =>
      if target.status = .suspended ∧ newRole ≠ .user then
        .error (.badRequest "Cannot promote a suspended user — unsuspend first")
      else .ok target

def roleAudit (actorUserId targetUserId : Id) (oldRole newRole : UserRole) (reason : Option String) :
    AdminAuditLog :=
  { actorUserId := some actorUserId
    action := if roleRank oldRole < roleRank newRole then .rolePromote else .roleDemote
    targetType := .user, targetId := targetUserId, reason, metadata := .roleChange oldRole newRole }

/-- `ModerationService.changeUserRole`. The audit row does not go through the transaction. -/
def changeUserRole (actorUserId : Id) (actorRole : UserRole) (targetUserId : Id)
    (newRole : UserRole) (reason : Option String) : Program (Answer (Option User)) := do
  ensure (actorRole == .admin) (.forbidden "Admin role required to change user roles")
  let target ← fetch .base (changeRoleCheck targetUserId newRole)
  transaction do
    let db ← updateUserRow .tx targetUserId fun u => { u with role := newRole }
    audit .base (roleAudit actorUserId targetUserId target.role newRole reason)
    pure (findUser targetUserId db)

/-! ## Reports -/

/-- `ReportsService.markInReview`: no transaction. -/
def markInReview (now : Time) (actorUserId reportId : Id) : Program (Answer (Option Report)) := do
  let existing ← fetch .base (reviewCheck reportId)
  if existing.status = .inReview then
    let report ← fetch .base fun db =>
      match findReport reportId db with
      | none => .error (.notFound "Report not found")
      | some report => .ok report
    finish (some report)
  else
    let db ← updateReportRow .base reportId (inReview now actorUserId)
    audit .base (reviewStartAudit actorUserId reportId)
    finish (findReport reportId db)

/-- `ReportsService.dismiss`: no transaction. -/
def dismiss (now : Time) (actorUserId reportId : Id) (dto : DismissReportDto) :
    Program (Answer (Option Report)) := do
  let _ ← fetch .base (reviewCheck reportId)
  let db ← updateReportRow .base reportId (closedAs .dismissed now actorUserId)
  audit .base (dismissAudit actorUserId reportId dto)
  finish (findReport reportId db)

/-! ## The ten operations -/

inductive AdminOp where
  | tombstoneMessage (now : Time) (actorUserId : Id) (actorRole : UserRole) (messageId : Id)
      (dto : TombstoneMessageDto)
  | untombstoneMessage (actorUserId : Id) (actorRole : UserRole) (messageId : Id)
      (reason : Option String)
  | suspendUser (now : Time) (suspensionId actorUserId : Id) (actorRole : UserRole)
      (targetUserId : Id) (dto : SuspendUserDto)
  | unsuspendUser (now : Time) (actorUserId : Id) (actorRole : UserRole) (targetUserId : Id)
      (reason : Option String)
  | resetStrikes (actorUserId : Id) (actorRole : UserRole) (targetUserId : Id) (reason : String)
  | changeUserRole (actorUserId : Id) (actorRole : UserRole) (targetUserId : Id)
      (newRole : UserRole) (reason : Option String)
  | markInReview (now : Time) (actorUserId reportId : Id)
  | dismiss (now : Time) (actorUserId reportId : Id) (dto : DismissReportDto)
  | reactivateOne (suspensionId userId : Id) (expiresAt now : Time)
  | groupAdminDelete (limit : EditLimit) (now : Time) (userId messageId deviceId : Id)

/-- What a failing statement or commit throws. -/
def lost : Err := .failure "Connection to the database was lost."

/-- What is stored once the operation has ended. -/
def AdminOp.ended (o : AdminOp) (fault : Fault) (db : Db) : Session Db Part :=
  match o with
  | .tombstoneMessage now actor role messageId dto =>
      (perform lost fault (Audited.tombstoneMessage now actor role messageId dto) db).2
  | .untombstoneMessage actor role messageId reason =>
      (perform lost fault (Audited.untombstoneMessage actor role messageId reason) db).2
  | .suspendUser now suspensionId actor role target dto =>
      (perform lost fault (Audited.suspendUser now suspensionId actor role target dto) db).2
  | .unsuspendUser now actor role target reason =>
      (perform lost fault (Audited.unsuspendUser now actor role target reason) db).2
  | .resetStrikes actor role target reason =>
      (perform lost fault (Audited.resetStrikes actor role target reason) db).2
  | .changeUserRole actor role target newRole reason =>
      (perform lost fault (Audited.changeUserRole actor role target newRole reason) db).2
  | .markInReview now actor reportId =>
      (perform lost fault (Audited.markInReview now actor reportId) db).2
  | .dismiss now actor reportId dto =>
      (perform lost fault (Audited.dismiss now actor reportId dto) db).2
  | .reactivateOne suspensionId userId expiresAt now =>
      (perform lost fault (Audited.reactivateOne suspensionId userId expiresAt now) db).2
  | .groupAdminDelete limit now userId messageId deviceId =>
      (perform lost fault (deleteForEveryone limit now userId messageId deviceId) db).2

/-- A deletion by a group admin is one of a message the caller did not send. -/
def AdminOp.Moderates (db : Db) : AdminOp → Prop
  | .groupAdminDelete _ _ userId messageId _ =>
      ∀ m ∈ db.messages, m.id = messageId → m.senderUserId ≠ userId
  | _ => True

def MutationStored (s : Session Db Part) : Prop := .mutation ∈ s.labels

def AuditStored (s : Session Db Part) : Prop := ∃ row, .audit row ∈ s.labels

/-- Where mutation and audit row part: the commit of one of the three operations that write
the row outside their transaction, and the audit statement of the two that have no
transaction, each after its checks have passed. -/
def AdminOp.Exposed (fault : Fault) (db : Db) : AdminOp → Prop
  | .resetStrikes _ role target _ =>
      fault = .commit ∧ role = .admin ∧ ∃ u, resetCheck target db = .ok u
  | .unsuspendUser _ _ role target _ =>
      fault = .commit ∧ unsuspendCheck role target db = .ok () ∧ ∃ x, findActive target db = some x
  | .changeUserRole _ role target newRole _ =>
      fault = .commit ∧ role = .admin ∧ ∃ u, changeRoleCheck target newRole db = .ok u
  | .markInReview _ _ reportId =>
      fault = .statement 2 ∧ ∃ r, reviewCheck reportId db = .ok r ∧ r.status ≠ .inReview
  | .dismiss _ _ reportId _ => fault = .statement 2 ∧ ∃ r, reviewCheck reportId db = .ok r
  | _ => False

/-- The database an operation leaves is what its stored writes make of the one it found, so
`MutationStored` and `AuditStored` speak about the database. -/
theorem ended_stored (o : AdminOp) (fault : Fault) (db : Db) :
    (o.ended fault db).stored = applyAll (o.ended fault db).kept db := by
  cases o <;> exact perform_stored lost fault _ db

/-! ## Bodies that write through their transaction -/

def Mutated (ls : List Part) : Prop := .mutation ∈ ls

def Complete (ls : List Part) : Prop := .mutation ∈ ls ∧ ∃ row, .audit row ∈ ls

theorem returns_mutate (c : Client) (guard : Db → Except Err Unit) (effect : Db → Db)
    (ls : List Part) : (mutate c guard effect).Returns Mutated ls :=
  fun _ => List.mem_append_right _ (List.mem_singleton.mpr rfl)

theorem mutated_stays {α : Type} (p : Program α) {ls : List Part} (h : Mutated ls) :
    p.Returns Mutated ls :=
  returns_of_append (P := Mutated) (fun _ _ h => List.mem_append_left _ h) p h

theorem returns_audit (c : Client) (row : AdminAuditLog) {ls : List Part} (h : Mutated ls) :
    (audit c row).Returns Complete ls :=
  fun _ => ⟨List.mem_append_left _ h, row, List.mem_append_right _ (List.mem_singleton.mpr rfl)⟩

theorem all_mutate_tx (guard : Db → Except Err Unit) (effect : Db → Db) :
    (mutate .tx guard effect).All fun c _ _ => c = .tx :=
  ⟨rfl, fun _ => trivial⟩

theorem all_audit_tx (row : AdminAuditLog) : (audit .tx row).All fun c _ _ => c = .tx :=
  ⟨rfl, fun _ => trivial⟩

/-- A transaction that mutates first, and writes its audit row with its own client after
whatever else it does. -/
theorem audited_body {α β γ : Type} {f : Program α} {m : α → Program β}
    (r : α → β → AdminAuditLog) (g : α → β → γ)
    (hfirst : f.All fun c _ _ => c = .tx) (hmutates : f.Returns Mutated [])
    (hmiddle : ∀ a, (m a).All fun c _ _ => c = .tx) :
    (((do let a ← f; let b ← m a; audit .tx (r a b); pure (g a b)) :
        Program γ).All fun c _ _ => c = .tx) ∧
      ((do let a ← f; let b ← m a; audit .tx (r a b); pure (g a b)) :
        Program γ).Returns Complete [] := by
  constructor
  · exact all_bind hfirst fun a => all_bind (hmiddle a) fun b =>
      all_bind (all_audit_tx _) fun _ => trivial
  · refine returns_bind (P := Mutated) (fun a ls h => ?_) hmutates
    refine returns_bind (P := Mutated) (fun b ls h => ?_) (mutated_stays _ h)
    refine returns_bind (P := Complete) (fun _ ls h => ?_) (returns_audit _ _ h)
    exact h

theorem all_closeReportRows (now : Time) (actorUserId messageId : Id) (dto : TombstoneMessageDto) :
    (closeReportRows now actorUserId messageId dto).All fun c _ _ => c = .tx := by
  unfold closeReportRows
  split
  · exact all_bind (all_mutate_tx _ _) fun _ => all_mutate_tx _ _
  · exact all_mutate_tx _ _

theorem all_tombstoneRows (now : Time) (suspensionId actorUserId : Id) (messageIds : List Id) :
    (tombstoneRows now suspensionId actorUserId messageIds).All fun c _ _ => c = .tx := by
  unfold tombstoneRows
  split
  · trivial
  · exact all_bind (all_mutate_tx _ _) fun _ => all_bind (all_mutate_tx _ _) fun _ =>
      all_writeAll _ fun _ _ => rfl

theorem all_closeNamedReport (now : Time) (actorUserId : Id) (reportId : Option Id) :
    (closeNamedReport now actorUserId reportId).All fun c _ _ => c = .tx := by
  unfold closeNamedReport
  split
  · trivial
  · refine all_bind (all_fetch _ _ _) fun report => ?_
    split
    · exact all_bind (all_mutate_tx _ _) fun _ => trivial
    · trivial

theorem all_suspendBody (now : Time) (suspensionId actorUserId targetUserId : Id)
    (dto : SuspendUserDto) :
    (suspendBody now suspensionId actorUserId targetUserId dto).All fun c _ _ => c = .tx := by
  unfold suspendBody
  refine all_bind (all_mutate_tx _ _) fun _ => all_bind (all_mutate_tx _ _) fun _ =>
    all_bind (all_mutate_tx _ _) fun _ => all_bind (all_fetch _ _ _) fun messageIds => ?_
  exact all_bind (all_tombstoneRows _ _ _ _) fun _ => all_bind (all_closeNamedReport _ _ _) fun _ =>
    all_bind (all_audit_tx _) fun _ => trivial

theorem returns_suspendBody (now : Time) (suspensionId actorUserId targetUserId : Id)
    (dto : SuspendUserDto) :
    (suspendBody now suspensionId actorUserId targetUserId dto).Returns Complete [] := by
  unfold suspendBody
  refine returns_bind (P := Mutated) (fun _ ls h => ?_) (returns_mutate _ _ _ _)
  refine returns_bind (P := Mutated) (fun _ ls h => ?_) (mutated_stays _ h)
  refine returns_bind (P := Mutated) (fun _ ls h => ?_) (mutated_stays _ h)
  refine returns_bind (P := Mutated) (fun _ ls h => ?_) (mutated_stays _ h)
  refine returns_bind (P := Mutated) (fun _ ls h => ?_) (mutated_stays _ h)
  refine returns_bind (P := Mutated) (fun _ ls h => ?_) (mutated_stays _ h)
  refine returns_bind (P := Complete) (fun _ ls h => ?_) (returns_audit _ _ h)
  exact h

theorem all_liftRows (at_ : Time) (by_ : Option Id) (reason : Option String)
    (suspensionId userId : Id) :
    (liftRows at_ by_ reason suspensionId userId).All fun c _ _ => c = .tx :=
  all_bind (all_mutate_tx _ _) fun _ => all_mutate_tx _ _

theorem returns_liftRows (at_ : Time) (by_ : Option Id) (reason : Option String)
    (suspensionId userId : Id) :
    (liftRows at_ by_ reason suspensionId userId).Returns Mutated [] :=
  returns_bind (P := Mutated) (fun _ _ h => mutated_stays _ h) (returns_mutate _ _ _ _)

theorem agree_of_atomic {s : Session Db Part} (h : s.labels = [] ∨ Complete s.labels) :
    MutationStored s ↔ AuditStored s := by
  rcases h with h | ⟨hm, ha⟩
  · simp [MutationStored, AuditStored, h]
  · exact ⟨fun _ => ha, fun _ => hm⟩

/-- What the checks before a transaction are asked for. -/
def OpensAtomic {α : Type} (e : Answer α) : Prop :=
  ∀ body, e = .transaction body → (body.All fun c _ _ => c = .tx) ∧ body.Returns Complete []

theorem opensAtomic_transaction {α : Type} {body : Program α}
    (h : (body.All fun c _ _ => c = .tx) ∧ body.Returns Complete []) (db : Db) :
    (transaction body).ReadsTo OpensAtomic db := by
  intro b hb
  obtain rfl := Ending.transaction.inj hb
  exact h

/-- No failure parts what one transaction writes. -/
theorem atomic_agree_iff {α : Type} {op : Program (Answer α)} {db : Db}
    (hop : op.ReadsTo OpensAtomic db) (fault : Fault) :
    (MutationStored (perform lost fault op db).2 ↔ AuditStored (perform lost fault op db).2) ↔
      ¬ False := by
  have hagree := agree_of_atomic (perform_atomic lost hop fault)
  exact ⟨fun _ h => h, fun _ => hagree⟩

theorem tombstoneMessage_atomic (now : Time) (actor : Id) (role : UserRole) (messageId : Id)
    (dto : TombstoneMessageDto) (db : Db) :
    (Audited.tombstoneMessage now actor role messageId dto).ReadsTo OpensAtomic db := by
  refine readsTo_bind (E := fun _ => True) (readsTo_ensure fun _ => trivial) fun _ _ => ?_
  refine readsTo_bind (E := fun _ => True) (readsTo_fetch fun _ _ => trivial) fun _ _ => ?_
  apply opensAtomic_transaction
  exact audited_body (fun _ _ => _) (fun _ _ => _) (all_mutate_tx _ _) (returns_mutate _ _ _ _)
    fun _ => all_closeReportRows now actor messageId dto

theorem untombstoneMessage_atomic (actor : Id) (role : UserRole) (messageId : Id)
    (reason : Option String) (db : Db) :
    (Audited.untombstoneMessage actor role messageId reason).ReadsTo OpensAtomic db := by
  refine readsTo_bind (E := fun _ => True) (readsTo_ensure fun _ => trivial) fun _ _ => ?_
  refine readsTo_bind (E := fun _ => True) (readsTo_fetch fun _ _ => trivial) fun _ _ => ?_
  apply opensAtomic_transaction
  exact audited_body (m := fun _ => pure ()) (fun _ _ => untombstoneAudit actor messageId reason)
    (fun db _ => db.messages.find? (·.id == messageId)) (all_mutate_tx _ _)
    (returns_mutate _ _ _ _) fun _ => trivial

theorem suspendUser_atomic (now : Time) (suspensionId actor : Id) (role : UserRole) (target : Id)
    (dto : SuspendUserDto) (db : Db) :
    (Audited.suspendUser now suspensionId actor role target dto).ReadsTo OpensAtomic db := by
  refine readsTo_bind (E := fun _ => True) (readsTo_ensure fun _ => trivial) fun _ _ => ?_
  refine readsTo_bind (E := fun _ => True) (readsTo_ensure fun _ => trivial) fun _ _ => ?_
  refine readsTo_bind (E := fun _ => True) (readsTo_fetch fun _ _ => trivial) fun _ _ => ?_
  exact opensAtomic_transaction ⟨all_suspendBody _ _ _ _ _, returns_suspendBody _ _ _ _ _⟩ db

theorem reactivateOne_atomic (suspensionId userId : Id) (expiresAt now : Time) (db : Db) :
    (Audited.reactivateOne suspensionId userId expiresAt now).ReadsTo OpensAtomic db := by
  apply opensAtomic_transaction
  exact audited_body (m := fun _ => pure ())
    (fun _ _ => reactivationAudit suspensionId userId expiresAt) (fun _ _ => ())
    (all_liftRows _ _ _ _ _) (returns_liftRows _ _ _ _ _) fun _ => trivial

theorem messageAccess_reads (userId messageId : Id) (db : Db) :
    (messageAccess userId messageId).ReadsTo (fun m => m ∈ db.messages ∧ m.id = messageId) db := by
  refine readsTo_bind (E := fun m => m ∈ db.messages ∧ m.id = messageId) (readsTo_fetch ?_) ?_
  · intro m hm
    split at hm
    · cases hm
    · rename_i m' hfind
      have hfound : m' ∈ db.messages ∧ m'.id = messageId :=
        ⟨List.mem_of_find?_eq_some hfind, by simpa using List.find?_some hfind⟩
      split at hm
      · cases haccess : hasAccess userId m' db with
        | error e =>
            rw [haccess] at hm
            cases hm
        | ok u =>
            rw [haccess] at hm
            obtain rfl := Except.ok.inj hm
            exact hfound
      · obtain rfl := Except.ok.inj hm
        exact hfound
  · intro m hm
    split
    · refine readsTo_fetch ?_
      intro m' hm'
      cases haccess : hasAccess userId m db with
      | error e =>
          rw [haccess] at hm'
          cases hm'
      | ok u =>
          rw [haccess] at hm'
          obtain rfl := Except.ok.inj hm'
          exact hm
    · exact hm

/-- Another's message is deleted as an admin or not at all. -/
theorem deleter_admin {userId : Id} {message : Message} (h : message.senderUserId ≠ userId)
    (db : Db) : (deleter userId message).ReadsTo (fun who => who = .admin) db := by
  unfold deleter
  rw [if_neg h]
  split
  · trivial
  · refine readsTo_fetch ?_
    intro who hwho
    unfold deletedBy at hwho
    rw [if_neg h] at hwho
    split at hwho
    · cases hwho
    · split at hwho
      · cases hwho
      · split at hwho
        · exact (Except.ok.inj hwho).symm
        · cases hwho

theorem groupAdminDelete_atomic (limit : EditLimit) (now : Time) {userId messageId : Id}
    (deviceId : Id) {db : Db} (h : ∀ m ∈ db.messages, m.id = messageId → m.senderUserId ≠ userId) :
    (deleteForEveryone limit now userId messageId deviceId).ReadsTo OpensAtomic db := by
  refine readsTo_bind (E := fun _ => True) (readsTo_fetch fun _ _ => trivial) fun _ _ => ?_
  refine readsTo_bind (messageAccess_reads userId messageId db) fun m hm => ?_
  refine readsTo_bind (deleter_admin (h m hm.1 hm.2) db) fun who hwho => ?_
  subst hwho
  refine readsTo_bind (E := fun _ => True) (readsTo_ensure fun _ => trivial) fun _ _ => ?_
  apply opensAtomic_transaction
  exact audited_body (m := fun _ => pure ()) (fun _ _ => groupDeleteAudit userId messageId)
    (fun _ _ => DeletedBy.admin) (all_mutate_tx _ _) (returns_mutate _ _ _ _) fun _ => trivial

/-! ## Audit rows outside the transaction -/

/-- The transaction mutates through its own client and then writes the audit row through
the base client. -/
def OpensOutside {α : Type} (e : Answer α) : Prop :=
  ∀ body, e = .transaction body →
    ∃ (γ : Type) (p : Program γ) (l : Part) (effect : Db → Db) (g : γ → α), (∃ row, l = .audit row) ∧
      (p.All fun c _ _ => c = .tx) ∧ p.Returns Mutated [] ∧
      body = p >>= fun a => .write .base l (fun _ => .ok ()) effect fun _ => .done (g a)

theorem agree_of_outside {α : Type} {op : Program (Answer α)} {db : Db} {fault : Fault}
    (hop : op.ReadsTo OpensOutside db) (hfault : fault ≠ .commit) :
    MutationStored (perform lost fault op db).2 ↔ AuditStored (perform lost fault op db).2 := by
  apply agree_of_atomic
  rcases perform_base_last lost hop hfault with hnone | ⟨l, ls, ⟨row, rfl⟩, hls, hkept⟩
  · exact Or.inl hnone
  · right
    rw [hkept]
    exact ⟨List.mem_cons_of_mem _ hls, row, List.mem_cons_self⟩

theorem opensOutside_transaction {α γ : Type} {p : Program γ} (row : AdminAuditLog) (g : γ → α)
    (hp : p.All fun c _ _ => c = .tx) (hmutates : p.Returns Mutated []) (db : Db) :
    (transaction (do let a ← p; audit .base row; pure (g a))).ReadsTo OpensOutside db := by
  intro b hb
  obtain rfl := Ending.transaction.inj hb
  exact ⟨γ, p, .audit row, auditWrite row, g, ⟨row, rfl⟩, hp, hmutates, rfl⟩

theorem resetStrikes_outside (actor : Id) (role : UserRole) (target : Id) (reason : String)
    (db : Db) : (Audited.resetStrikes actor role target reason).ReadsTo OpensOutside db := by
  refine readsTo_bind (E := fun _ => True) (readsTo_ensure fun _ => trivial) fun _ _ => ?_
  refine readsTo_bind (E := fun _ => True) (readsTo_fetch fun _ _ => trivial) fun _ _ => ?_
  exact opensOutside_transaction _ _ (all_mutate_tx _ _) (returns_mutate _ _ _ _) db

theorem unsuspendUser_outside (now : Time) (actor : Id) (role : UserRole) (target : Id)
    (reason : Option String) (db : Db) :
    (Audited.unsuspendUser now actor role target reason).ReadsTo OpensOutside db := by
  refine readsTo_bind (E := fun _ => True) (readsTo_ensure fun _ => trivial) fun _ _ => ?_
  refine readsTo_bind (E := fun _ => True) (readsTo_fetch fun _ _ => trivial) fun _ _ => ?_
  refine readsTo_bind (E := fun _ => True) (readsTo_fetch fun _ _ => trivial) fun _ _ => ?_
  exact opensOutside_transaction _ _ (all_liftRows _ _ _ _ _) (returns_liftRows _ _ _ _ _) db

theorem changeUserRole_outside (actor : Id) (role : UserRole) (target : Id) (newRole : UserRole)
    (reason : Option String) (db : Db) :
    (Audited.changeUserRole actor role target newRole reason).ReadsTo OpensOutside db := by
  refine readsTo_bind (E := fun _ => True) (readsTo_ensure fun _ => trivial) fun _ _ => ?_
  refine readsTo_bind (E := fun _ => True) (readsTo_fetch fun _ _ => trivial) fun _ _ => ?_
  exact opensOutside_transaction _ _ (all_mutate_tx _ _) (returns_mutate _ _ _ _) db

theorem resetCheck_ok {target : Id} {db : Db} {u : User} (h : resetCheck target db = .ok u) :
    findUser target db = some u := by
  unfold resetCheck at h
  split at h
  · cases h
  · rename_i v hv
    split at h
    · cases h
    · rw [hv, Except.ok.inj h]

theorem changeRoleCheck_ok {target : Id} {newRole : UserRole} {db : Db} {u : User}
    (h : changeRoleCheck target newRole db = .ok u) : findUser target db = some u := by
  unfold changeRoleCheck at h
  split at h
  · cases h
  · rename_i v hv
    split at h
    · cases h
    · rw [hv, Except.ok.inj h]

theorem unsuspendCheck_ok {role : UserRole} {target : Id} {db : Db}
    (h : unsuspendCheck role target db = .ok ()) :
    role = .admin ∧ (findUser target db).isSome = true := by
  unfold unsuspendCheck at h
  split at h
  · cases h
  · rename_i hrole
    split at h
    · cases h
    · rename_i u hu
      exact ⟨by simpa using hrole, by rw [hu]; rfl⟩

theorem findActive_stored {target : Id} {db : Db} {x : UserSuspension}
    (h : findActive target db = some x) : ∃ y ∈ db.userSuspensions, y.id = x.id :=
  ⟨x, (List.mem_filter.mp (Rows.newest_mem h)).1, rfl⟩

/-- When the commit fails, an operation whose checks pass has stored the row alone. -/
theorem resetStrikes_commit {actor : Id} {role : UserRole} {target : Id} {reason : String}
    {db : Db} {u : User} (hrole : role = .admin) (hcheck : resetCheck target db = .ok u) :
    (perform lost .commit (Audited.resetStrikes actor role target reason) db).2.labels =
      [.audit (resetAudit actor target reason u.strikeCount)] := by
  simp [perform, Audited.resetStrikes, Clients.ensure, fetch, Bind.bind, Prog.bind, exec,
    Fault.fuse, Session.view, hrole, hcheck, transaction, updateUserRow, mutate, audit,
    recordFound, resetCheck_ok hcheck, settle, Session.put,
    Session.rollback, Session.labels, applyAll, pure]

theorem changeUserRole_commit {actor : Id} {role : UserRole} {target : Id} {newRole : UserRole}
    {reason : Option String} {db : Db} {u : User} (hrole : role = .admin)
    (hcheck : changeRoleCheck target newRole db = .ok u) :
    (perform lost .commit (Audited.changeUserRole actor role target newRole reason) db).2.labels =
      [.audit (roleAudit actor target u.role newRole reason)] := by
  simp [perform, Audited.changeUserRole, Clients.ensure, fetch, Bind.bind, Prog.bind, exec,
    Fault.fuse, Session.view, hrole, hcheck, transaction, updateUserRow, mutate, audit,
    recordFound, changeRoleCheck_ok hcheck, settle, Session.put,
    Session.rollback, Session.labels, applyAll, pure]

theorem unsuspendUser_commit {now : Time} {actor : Id} {role : UserRole} {target : Id}
    {reason : Option String} {db : Db} {x : UserSuspension}
    (hcheck : unsuspendCheck role target db = .ok ()) (hactive : findActive target db = some x) :
    (perform lost .commit (Audited.unsuspendUser now actor role target reason) db).2.labels =
      [.audit (unsuspendAudit actor target reason x.id)] := by
  obtain ⟨hrole, huser⟩ := unsuspendCheck_ok hcheck
  subst hrole
  have huser' : (findUser target (updateSuspension x.id (fun s =>
      { s with revokedAt := some now, revokedByUserId := some actor, revokeReason := reason })
      db)).isSome = true := huser
  simp [perform, Audited.unsuspendUser, Clients.ensure, fetch, Bind.bind, Prog.bind, exec,
    Fault.fuse, Session.view, hcheck, hactive, transaction, liftRows, updateUserRow, mutate, audit,
    recordFound, findActive_stored hactive, huser', settle, Session.put,
    Session.rollback, Session.labels, applyAll, pure]

/-- An operation that gets no further than its checks agrees with itself. -/
theorem agree_of_unreached {α : Type} {op : Program (Answer α)} {C : Prop} {db : Db} (fault : Fault)
    (hop : op.ReadsTo (fun _ => C) db) (hc : ¬ C) :
    MutationStored (perform lost fault op db).2 ↔ AuditStored (perform lost fault op db).2 := by
  apply agree_of_atomic
  rcases perform_readsTo lost hop fault with hnone | ⟨_, _, hc', _⟩
  · rw [hnone]
    exact Or.inl rfl
  · exact absurd hc' hc

/-- A row stored alone is what the two sides differ in. -/
theorem disagree_of_row {s : Session Db Part} {row : AdminAuditLog} (h : s.labels = [.audit row]) :
    ¬ (MutationStored s ↔ AuditStored s) := by
  simp [MutationStored, AuditStored, h]

/-- Where only the commit can part the row from its mutation, it does so exactly when the
checks pass. -/
theorem outside_agree_iff {α : Type} {op : Program (Answer α)} {C : Prop} {db : Db} (fault : Fault)
    (hout : op.ReadsTo OpensOutside db) (hchecked : op.ReadsTo (fun _ => C) db)
    (hcommit : C → ∃ row, (perform lost .commit op db).2.labels = [.audit row]) :
    (MutationStored (perform lost fault op db).2 ↔ AuditStored (perform lost fault op db).2) ↔
      ¬ (fault = .commit ∧ C) := by
  constructor
  · rintro hagree ⟨rfl, hc⟩
    obtain ⟨row, hrow⟩ := hcommit hc
    exact disagree_of_row hrow hagree
  · intro hsafe
    by_cases hf : fault = .commit
    · exact agree_of_unreached fault hchecked fun hc => hsafe ⟨hf, hc⟩
    · exact agree_of_outside hout hf

theorem resetStrikes_checked (actor : Id) (role : UserRole) (target : Id) (reason : String)
    (db : Db) : (Audited.resetStrikes actor role target reason).ReadsTo
      (fun _ => role = .admin ∧ ∃ u, resetCheck target db = .ok u) db := by
  refine readsTo_bind (E := fun _ => role = .admin)
    (readsTo_ensure fun h => by simpa using h) fun _ hrole => ?_
  exact readsTo_bind (E := fun u => resetCheck target db = .ok u) (readsTo_fetch fun _ h => h)
    fun u hu => ⟨hrole, u, hu⟩

theorem changeUserRole_checked (actor : Id) (role : UserRole) (target : Id) (newRole : UserRole)
    (reason : Option String) (db : Db) :
    (Audited.changeUserRole actor role target newRole reason).ReadsTo
      (fun _ => role = .admin ∧ ∃ u, changeRoleCheck target newRole db = .ok u) db := by
  refine readsTo_bind (E := fun _ => role = .admin)
    (readsTo_ensure fun h => by simpa using h) fun _ hrole => ?_
  exact readsTo_bind (E := fun u => changeRoleCheck target newRole db = .ok u)
    (readsTo_fetch fun _ h => h) fun u hu => ⟨hrole, u, hu⟩

theorem unsuspendUser_checked (now : Time) (actor : Id) (role : UserRole) (target : Id)
    (reason : Option String) (db : Db) :
    (Audited.unsuspendUser now actor role target reason).ReadsTo
      (fun _ => unsuspendCheck role target db = .ok () ∧ ∃ x, findActive target db = some x) db := by
  refine readsTo_bind (E := fun _ => True) (readsTo_ensure fun _ => trivial) fun _ _ => ?_
  refine readsTo_bind (E := fun _ => unsuspendCheck role target db = .ok ())
    (readsTo_fetch fun _ h => h) fun _ hcheck => ?_
  refine readsTo_bind (E := fun x => findActive target db = some x) (readsTo_fetch ?_)
    fun x hx => ⟨hcheck, x, hx⟩
  intro x hx
  split at hx
  · cases hx
  · rename_i y hy
    rw [hy, Except.ok.inj hx]

/-! ## Reports, without a transaction -/

theorem reviewCheck_ok {reportId : Id} {db : Db} {r : Report} (h : reviewCheck reportId db = .ok r) :
    ∃ r ∈ db.reports, r.id = reportId := by
  unfold reviewCheck findReport at h
  split at h
  · cases h
  · rename_i r' hfind
    exact ⟨r', List.mem_of_find?_eq_some hfind, by simpa using List.find?_some hfind⟩

/-- What is stored of a review whose check passes depends on the failing statement alone:
the read, the update and the audit row are the statements 0, 1 and 2. -/
def reviewKept (row : AdminAuditLog) : Fault → List Part
  | .statement 0 => []
  | .statement 1 => []
  | .statement 2 => [.mutation]
  | _ => [.mutation, .audit row]

theorem dismiss_kept (now : Time) (actor : Id) {reportId : Id} (dto : DismissReportDto) {db : Db}
    {r : Report} (hcheck : reviewCheck reportId db = .ok r) (fault : Fault) :
    (perform lost fault (Audited.dismiss now actor reportId dto) db).2.labels =
      reviewKept (dismissAudit actor reportId dto) fault := by
  have hfound := reviewCheck_ok hcheck
  match fault with
  | .never | .commit | .statement 0 | .statement 1 | .statement 2 | .statement (n + 3) =>
      simp [perform, Audited.dismiss, fetch, updateReportRow, mutate, audit, finish, Bind.bind,
        Prog.bind, exec, Fault.fuse, Session.view, Session.put, Session.labels,
        recordFound, hcheck, hfound, reviewKept]

theorem markInReview_kept (now : Time) (actor : Id) {reportId : Id} {db : Db} {r : Report}
    (hcheck : reviewCheck reportId db = .ok r) (hopen : r.status ≠ .inReview) (fault : Fault) :
    (perform lost fault (Audited.markInReview now actor reportId) db).2.labels =
      reviewKept (reviewStartAudit actor reportId) fault := by
  have hfound := reviewCheck_ok hcheck
  match fault with
  | .never | .commit | .statement 0 | .statement 1 | .statement 2 | .statement (n + 3) =>
      simp [perform, Audited.markInReview, fetch, updateReportRow, mutate, audit, finish, Bind.bind,
        Prog.bind, exec, Fault.fuse, Session.view, Session.put, Session.labels,
        recordFound, hcheck, hfound, hopen, reviewKept]

theorem review_agree_iff {s : Session Db Part} {row : AdminAuditLog} {fault : Fault}
    (h : s.labels = reviewKept row fault) :
    (MutationStored s ↔ AuditStored s) ↔ fault ≠ .statement 2 := by
  unfold MutationStored AuditStored
  rw [h]
  match fault with
  | .never | .commit | .statement 0 | .statement 1 | .statement 2 | .statement (n + 3) =>
      simp [reviewKept]

theorem dismiss_checked (now : Time) (actor reportId : Id) (dto : DismissReportDto) (db : Db)
    (h : ¬ ∃ r, reviewCheck reportId db = .ok r) :
    (Audited.dismiss now actor reportId dto).ReadsTo (fun _ => False) db :=
  readsTo_bind (E := fun _ => False) (readsTo_fetch fun r hr => h ⟨r, hr⟩) fun _ hf => hf.elim

/-- A report in review already is read again and returned. -/
theorem markInReview_checked (now : Time) (actor reportId : Id) (db : Db)
    (h : ¬ ∃ r, reviewCheck reportId db = .ok r ∧ r.status ≠ .inReview) :
    (Audited.markInReview now actor reportId).ReadsTo (fun e => ∃ a, e = .result a) db := by
  refine readsTo_bind (E := fun r => r.status = .inReview) (readsTo_fetch fun r hr => ?_)
    fun r hr => ?_
  · by_contra hopen
    exact h ⟨r, hr, hopen⟩
  · rw [if_pos hr]
    exact readsTo_bind (E := fun _ => True) (readsTo_fetch fun _ _ => trivial) fun a _ => ⟨_, rfl⟩

theorem markInReview_unreached {now : Time} {actor reportId : Id} {db : Db} (fault : Fault)
    (h : ¬ ∃ r, reviewCheck reportId db = .ok r ∧ r.status ≠ .inReview) :
    MutationStored (perform lost fault (Audited.markInReview now actor reportId) db).2 ↔
      AuditStored (perform lost fault (Audited.markInReview now actor reportId) db).2 := by
  apply agree_of_atomic
  rcases perform_readsTo lost (markInReview_checked now actor reportId db h) fault
    with hnone | ⟨body, _, ⟨a, ha⟩, _⟩
  · rw [hnone]
    exact Or.inl rfl
  · cases ha

/-! ## All operations -/

/-- Wherever an operation fails, its mutation is stored exactly when its audit row is,
except where the row is written outside the transaction. -/
theorem mutation_iff_audit (o : AdminOp) (fault : Fault) (db : Db) (hmod : o.Moderates db) :
    (MutationStored (o.ended fault db) ↔ AuditStored (o.ended fault db)) ↔
      ¬ o.Exposed fault db := by
  cases o with
  | tombstoneMessage now actor role messageId dto =>
      exact atomic_agree_iff (tombstoneMessage_atomic now actor role messageId dto db) fault
  | untombstoneMessage actor role messageId reason =>
      exact atomic_agree_iff (untombstoneMessage_atomic actor role messageId reason db) fault
  | suspendUser now suspensionId actor role target dto =>
      exact atomic_agree_iff (suspendUser_atomic now suspensionId actor role target dto db) fault
  | reactivateOne suspensionId userId expiresAt now =>
      exact atomic_agree_iff (reactivateOne_atomic suspensionId userId expiresAt now db) fault
  | groupAdminDelete limit now userId messageId deviceId =>
      exact atomic_agree_iff (groupAdminDelete_atomic limit now deviceId hmod) fault
  | resetStrikes actor role target reason =>
      apply outside_agree_iff fault (resetStrikes_outside actor role target reason db)
        (resetStrikes_checked actor role target reason db)
      rintro ⟨hrole, u, hu⟩
      exact ⟨_, resetStrikes_commit hrole hu⟩
  | unsuspendUser now actor role target reason =>
      apply outside_agree_iff fault (unsuspendUser_outside now actor role target reason db)
        (unsuspendUser_checked now actor role target reason db)
      rintro ⟨hcheck, x, hx⟩
      exact ⟨_, unsuspendUser_commit hcheck hx⟩
  | changeUserRole actor role target newRole reason =>
      apply outside_agree_iff fault (changeUserRole_outside actor role target newRole reason db)
        (changeUserRole_checked actor role target newRole reason db)
      rintro ⟨hrole, u, hu⟩
      exact ⟨_, changeUserRole_commit hrole hu⟩
  | markInReview now actor reportId =>
      by_cases hc : ∃ r, reviewCheck reportId db = .ok r ∧ r.status ≠ .inReview
      · obtain ⟨r, hr, hopen⟩ := hc
        refine (review_agree_iff (markInReview_kept now actor hr hopen fault)).trans ?_
        exact ⟨fun hf hex => hf hex.1, fun hsafe hf => hsafe ⟨hf, r, hr, hopen⟩⟩
      · exact ⟨fun _ hex => hc hex.2, fun _ => markInReview_unreached fault hc⟩
  | dismiss now actor reportId dto =>
      by_cases hc : ∃ r, reviewCheck reportId db = .ok r
      · obtain ⟨r, hr⟩ := hc
        refine (review_agree_iff (dismiss_kept now actor dto hr fault)).trans ?_
        exact ⟨fun hf hex => hf hex.1, fun hsafe hf => hsafe ⟨hf, r, hr⟩⟩
      · have hagree := agree_of_unreached fault
          (dismiss_checked now actor reportId dto db hc) id
        exact ⟨fun _ hex => hc hex.2, fun _ => hagree⟩

/-- A user with strikes. -/
def strikesDb : Db :=
  { users := [{ id := "root", phoneHash := "h1", role := .admin },
              { id := "mallory", phoneHash := "h2", strikeCount := 2, lastStrikeAt := some 10 }] }

/-- The commit of a reset fails: the strikes stay and the audit row says they are gone. -/
theorem lost_commit_keeps_row :
    ¬ ∀ (o : AdminOp) (fault : Fault) (db : Db), o.Moderates db →
      (MutationStored (o.ended fault db) ↔ AuditStored (o.ended fault db)) := by
  intro h
  have hagree := h (.resetStrikes "root" .admin "mallory" "appeal") .commit strikesDb trivial
  exact disagree_of_row (resetStrikes_commit rfl rfl) hagree

/-- A group whose admin may delete the message of another member. -/
def groupDb : Db :=
  { devices := [{ id := "d1", userId := "alice", platform := .ios, identityPublicKey := "k"
                  createdAt := 0 }]
    groupMembers := [{ groupId := "g1", userId := "alice", role := "ADMIN" },
                     { groupId := "g1", userId := "bob" }]
    messages := [{ id := "m1", groupId := some "g1", senderUserId := "bob", senderDeviceId := "d2"
                   idempotencyKey := "k1", threadSequence := 1, createdAt := 10 }] }

/-- The deletion of a group admin that fails in its commit stores neither. -/
theorem lost_delete_stores_neither :
    (AdminOp.groupAdminDelete {} 20 "alice" "m1" "d1").Moderates groupDb ∧
    (MutationStored ((AdminOp.groupAdminDelete {} 20 "alice" "m1" "d1").ended .commit groupDb) ↔
      AuditStored ((AdminOp.groupAdminDelete {} 20 "alice" "m1" "d1").ended .commit groupDb)) := by
  have hmod : (AdminOp.groupAdminDelete {} 20 "alice" "m1" "d1").Moderates groupDb := by
    show ∀ m ∈ groupDb.messages, m.id = "m1" → m.senderUserId ≠ "alice"
    decide
  exact ⟨hmod, (mutation_iff_audit _ _ _ hmod).mpr fun h => h⟩

end Birgap.Moderation.Audited
