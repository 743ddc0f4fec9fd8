import Birgap.Messages.Edit
import Birgap.Unread.Service
import Birgap.Lib.Paging

/-!
# Reading envelopes back

`MessagesService.getPending` and `sync`, the two queries a device catches up with. Both are
ordered and bounded; how rows of equal key are arranged is the database's choice and comes
in as an `OrderBy`.
-/
namespace Birgap.Messages

set_option autoImplicit false

open Birgap.Lib Birgap.Lib.Paging
open Birgap.Unread (messageOf)

/-- The columns of its message that a pending envelope comes with. -/
structure PendingMessage where
  id : Id
  threadId : Option Id
  groupId : Option Id
  senderUserId : Id
  senderDeviceId : Id
  threadSequence : Nat
  contentType : MessageContentType
  replyToMessageId : Option Id
  forwarded : Bool
  createdAt : Time
  deriving DecidableEq

def pendingMessage (m : Message) : PendingMessage :=
  { id := m.id, threadId := m.threadId, groupId := m.groupId, senderUserId := m.senderUserId
    senderDeviceId := m.senderDeviceId, threadSequence := m.threadSequence
    contentType := m.contentType, replyToMessageId := m.replyToMessageId
    forwarded := m.forwarded, createdAt := m.createdAt }

/-- The columns of its message that a synced envelope comes with. -/
structure SyncedMessage extends PendingMessage where
  deletedAt : Option Time
  editedAt : Option Time
  deriving DecidableEq

def syncedMessage (m : Message) : SyncedMessage :=
  { pendingMessage m with deletedAt := m.deletedAt, editedAt := m.editedAt }

def deviceEnvelopes (deviceId : Id) (db : Db) : List MessageEnvelope :=
  db.messageEnvelopes.filter (·.recipientDeviceId == deviceId)

/-! ## Pending envelopes -/

/-- An envelope row as `getPending` returns it. -/
structure PendingEnvelope extends MessageEnvelope where
  envelopeSequence : Nat
  message : Option PendingMessage
  deriving DecidableEq

structure PendingPage where
  deviceId : Id
  envelopes : List PendingEnvelope
  hasMore : Bool
  deriving DecidableEq

def isPending (e : MessageEnvelope) : Bool := e.status == .pending || e.status == .delivered

def pendingEnvelope (sequenceOf : Id → Nat) (db : Db) (e : MessageEnvelope) : PendingEnvelope :=
  { e with
    envelopeSequence := sequenceOf e.id
    message := (messageOf e db).map pendingMessage }

/-- `MessagesService.getPending`. The column `envelopeSequence`, which only this query
reads, is the function `sequenceOf` beside the table; `after` is the cursor as a number. -/
def getPending (sequenceOf : Id → Nat) (order : OrderBy fun e : MessageEnvelope => sequenceOf e.id)
    (userId deviceId : Id) (after : Option Nat) (limit : Option Nat) (db : Db) :
    Except Err PendingPage :=
  match assertActiveDevice userId deviceId db with
  | .error e => .error e
  | .ok () =>
      let limit := limit.getD 50
      let pending := (deviceEnvelopes deviceId db).filter fun e =>
        isPending e && after.all fun a => decide (a < sequenceOf e.id)
      let envelopes := (order.arrange pending).take limit
      .ok { deviceId, envelopes := envelopes.map (pendingEnvelope sequenceOf db)
            hasMore := envelopes.length == limit }

/-! ## Changes since a timestamp -/

structure SyncedEnvelope where
  id : Id
  messageId : Id
  recipientUserId : Id
  recipientDeviceId : Id
  ciphertext : Ciphertext
  status : EnvelopeStatus
  envelopeVersion : Nat
  updatedAt : Time
  isEdit : Option Bool
  message : Option SyncedMessage
  deriving DecidableEq

structure DeletedMessage where
  messageId : Id
  threadId : Option Id
  groupId : Option Id
  deletedAt : Option Time
  deriving DecidableEq

structure SyncAnswer where
  requiresFullReload : Bool
  envelopes : List SyncedEnvelope
  deletedMessages : List DeletedMessage
  hasMore : Bool
  deriving DecidableEq

/-- The value of `envelopeVersion > 1 || (message?.editedAt && updatedAt >= message.editedAt)`;
it is null for a first version of an unedited message. -/
def isEdit (e : MessageEnvelope) (message : Option Message) : Option Bool :=
  if 1 < e.envelopeVersion then some true
  else (message.bind (·.editedAt)).map fun editedAt => decide (editedAt ≤ e.updatedAt)

def syncedEnvelope (db : Db) (e : MessageEnvelope) : SyncedEnvelope :=
  { id := e.id, messageId := e.messageId, recipientUserId := e.recipientUserId
    recipientDeviceId := e.recipientDeviceId, ciphertext := e.ciphertext, status := e.status
    envelopeVersion := e.envelopeVersion, updatedAt := e.updatedAt
    isEdit := isEdit e (messageOf e db), message := (messageOf e db).map syncedMessage }

def deletedMessage (m : Message) : DeletedMessage :=
  { messageId := m.id, threadId := m.threadId, groupId := m.groupId, deletedAt := m.deletedAt }

/-- The message is in a direct thread or a group of the user. -/
def inConversationOf (userId : Id) (db : Db) (m : Message) : Bool :=
  db.directThreads.any (fun t => m.threadId == some t.id &&
    (t.userAId == userId || t.userBId == userId)) ||
  db.groupMembers.any (fun g => m.groupId == some g.groupId && g.userId == userId)

/-- The messages the query for deletions selects. -/
def deletionsSince (userId : Id) (since : Time) (db : Db) : List Message :=
  db.messages.filter fun m => m.deletedAt.any (since < ·) && inConversationOf userId db m

/-- Fourteen days. -/
def maxSyncWindow : Time := 14 * 24 * 60 * 60 * 1000

def syncTake (limit : Option Nat) : Nat := min (limit.getD 200) 500

/-- `MessagesService.sync`; `since` is absent when the text is not a date. -/
def sync (updated : OrderBy MessageEnvelope.updatedAt)
    (deleted : OrderBy fun m : Message => m.deletedAt.getD 0) (now : Time) (userId deviceId : Id)
    (since : Option Time) (limit : Option Nat) (db : Db) : Except Err SyncAnswer :=
  match assertActiveDevice userId deviceId db with
  | .error e => .error e
  | .ok () =>
      match since with
      | none => .error (.badRequest "Invalid since timestamp")
      | some since =>
          if since < now - maxSyncWindow then .ok ⟨true, [], [], false⟩
          else
            let take := syncTake limit
            let envelopes := (updated.arrange
              (rowsAfter (·.updatedAt) since (deviceEnvelopes deviceId db))).take (take + 1)
            let hasMore := decide (take < envelopes.length)
            let slicedEnvelopes := if hasMore then envelopes.take take else envelopes
            let deletedMessages := (deleted.arrange (deletionsSince userId since db)).take 200
            .ok { requiresFullReload := false
                  envelopes := slicedEnvelopes.map (syncedEnvelope db)
                  deletedMessages := deletedMessages.map deletedMessage
                  hasMore }

end Birgap.Messages
