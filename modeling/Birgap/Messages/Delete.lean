import Birgap.Messages.Edit

/-!
# Deleting a message

`MessagesService.delete`. Deleting for oneself hides the message from one user; deleting
for everyone sets its `deletedAt` and, when a group admin does it, writes an audit row in
the same transaction. No row is removed.
-/
namespace Birgap.Messages

set_option autoImplicit false

open Birgap.Lib Birgap.Lib.Tx

inductive DeleteMessageScope where
  | forMe
  | forEveryone
  deriving DecidableEq

structure DeleteMessageDto where
  deviceId : Id
  scope : DeleteMessageScope := .forMe

inductive DeletedBy where
  | sender
  | admin
  deriving DecidableEq

/-- The checks both scopes make, with the message they return. -/
def deleteAccess (userId messageId : Id) (dto : DeleteMessageDto) (db : Db) :
    Except Err Message := do
  assertActiveDevice userId dto.deviceId db
  assertMessageAccess userId messageId db

/-- Who deletes: the sender, or an admin of the group of the message. -/
def deletedBy (userId : Id) (message : Message) (db : Db) : Except Err DeletedBy :=
  if message.senderUserId = userId then .ok .sender
  else
    match message.groupId with
    | none => .error (.forbidden "Only the sender can delete a direct message for everyone")
    | some groupId =>
        match db.groupMembers.find? fun g => g.groupId == groupId && g.userId == userId with
        | none =>
            .error (.forbidden "Only the sender or a group admin can delete this message")
        | some member =>
            if member.role = "ADMIN" then .ok .admin
            else .error (.forbidden "Only the sender or a group admin can delete this message")

/-- The checks of a deletion for everyone. -/
def assertDeletable (limit : EditLimit) (now : Time) (userId : Id) (message : Message) (db : Db) :
    Except Err DeletedBy := do
  let deletedBy ← deletedBy userId message db
  ensure (!limit.enabled || decide (now - message.createdAt ≤ limit.hours * 60 * 60 * 1000))
    (.forbidden ("Delete for everyone is only allowed within " ++ toString limit.hours ++ " hours"))
  pure deletedBy

/-- The upsert of a deletion for oneself. -/
def hideMessage (userId messageId : Id) (db : Db) : Db :=
  if db.hiddenMessages.any fun h => h.userId == userId && h.messageId == messageId then db
  else { db with hiddenMessages := db.hiddenMessages ++ [{ userId, messageId }] }

/-- A message as its deletion for everyone leaves it. -/
def tombstoned (now : Time) (m : Message) : Message := { m with deletedAt := some now }

/-- The transaction of a deletion for everyone. -/
def deleteTx (now : Time) (userId messageId : Id) (deletedBy : DeletedBy) (db : Db) :
    Except Err (Message × Db) :=
  let messages := Rows.updateMany (·.id == messageId) (tombstoned now) db.messages
  match messages.find? (·.id == messageId) with
  | none => .error (.failure "Record to update not found.")
  | some updated =>
      let db := { db with messages := messages }
      match deletedBy with
      | .sender => .ok (updated, db)
      | .admin =>
          .ok (updated,
            { db with
              adminAuditLog := db.adminAuditLog ++
                [{ actorUserId := some userId, action := .messageTombstone, targetType := .message
                   targetId := messageId, reason := some "group_admin_delete"
                   metadata := .groupDelete }] })

/-- `MessagesService.delete`; answers with who deleted, where the source does. -/
def delete (limit : EditLimit) (now : Time) (userId messageId : Id) (dto : DeleteMessageDto)
    (db : Db) : Except Err (Option DeletedBy × Db) := do
  let message ← deleteAccess userId messageId dto db
  match dto.scope with
  | .forMe => pure (none, hideMessage userId messageId db)
  | .forEveryone =>
      let deletedBy ← assertDeletable limit now userId message db
      let (_, db) ← deleteTx now userId messageId deletedBy db
      pure (some deletedBy, db)

theorem hideMessage_frame (userId messageId : Id) (db : Db) :
    hideMessage userId messageId db =
      { db with hiddenMessages := (hideMessage userId messageId db).hiddenMessages } := by
  unfold hideMessage
  split <;> rfl

/-- A deletion for everyone marks the message and may write an audit row. -/
theorem deleteTx_ok {now : Time} {userId messageId : Id} {who : DeletedBy} {db db' : Db}
    {m : Message} (h : deleteTx now userId messageId who db = .ok (m, db')) :
    db' = { db with
      messages := Rows.updateMany (·.id == messageId) (tombstoned now) db.messages
      adminAuditLog := db'.adminAuditLog } := by
  unfold deleteTx at h
  simp only at h
  split at h
  · cases h
  · cases who with
    | sender =>
        obtain ⟨_, rfl⟩ := Prod.mk.inj (Except.ok.inj h)
        rfl
    | admin =>
        obtain ⟨_, rfl⟩ := Prod.mk.inj (Except.ok.inj h)
        rfl

end Birgap.Messages
