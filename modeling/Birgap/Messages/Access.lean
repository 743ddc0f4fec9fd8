import Birgap.Messages.Edit

/-!
# Who may see a message

The check that a user takes part in the conversation of a message is written out in four
services: `MessagesService` (`hasAccess`), `ReactionsService`, `MediaService` and
`ReportsService`. The copies differ in the texts they throw and in what surrounds them.
-/
namespace Birgap.Messages

set_option autoImplicit false

open Birgap.Lib Birgap.Lib.Tx

/-- The `if` / `else if` of the four copies, with the errors one of them throws. -/
def checkParticipant (notInThread notInGroup : Err) (userId : Id) (m : Message) (db : Db) :
    Except Err Unit :=
  match m.threadId, m.groupId with
  | some threadId, _ =>
      ensure ((db.directThreads.find? (·.id == threadId)).any fun t =>
        t.userAId == userId || t.userBId == userId) notInThread
  | none, some groupId => ensure (isMember groupId userId db) notInGroup
  | none, none => .ok ()

/-- The check inside `ReactionsService.assertMessageAccess`. -/
def checkReactor : Id → Message → Db → Except Err Unit :=
  checkParticipant (.forbidden "Not a participant in this thread")
    (.forbidden "Not a member of this group")

/-- The check inside `MediaService.getDownloadUrl`. -/
def checkDownloader : Id → Message → Db → Except Err Unit :=
  checkParticipant (.forbidden "Not a participant in this thread")
    (.forbidden "Not a member of this group")

/-- The check inside `ReportsService.create`. -/
def checkReporter : Id → Message → Db → Except Err Unit :=
  checkParticipant
    (.forbidden "Only thread participants can report messages in a direct thread")
    (.forbidden "Only group members can report messages in a group")

/-- `ReactionsService.assertMessageAccess`. -/
def reactionAccess (userId messageId : Id) (db : Db) : Except Err Message :=
  match db.messages.find? (·.id == messageId) with
  | none => .error (.notFound "Message not found")
  | some m => do
      checkReactor userId m db
      pure m

/-- The checks of `MediaService.getDownloadUrl`, with the attachment they return. -/
def downloadAccess (userId mediaId : Id) (db : Db) : Except Err MessageMedia :=
  match db.messageMedia.find? (·.id == mediaId) with
  | none => .error (.notFound "Media not found")
  | some media =>
      match media.messageId with
      | none => .error (.badRequest "Media has not been attached to a message yet")
      | some messageId => do
          ensure (media.uploadStatus == .complete) (.forbidden "Media upload is not complete")
          match db.messages.find? (·.id == messageId) with
          | none => throw (.notFound "Parent message not found")
          | some m =>
              ensure m.deletedAt.isNone (.forbidden "Message has been deleted")
              checkDownloader userId m db
              pure media

/-- `MediaService.getDownloadUrl`: the URL signed for the object and how long it is valid;
`ttlSeconds` is `R2_PRESIGNED_GET_TTL_SECONDS`. -/
def getDownloadUrl (generateDownloadUrl : String → Except Err String) (ttlSeconds : Option Nat)
    (userId mediaId : Id) (db : Db) : Except Err (String × Nat) := do
  let media ← downloadAccess userId mediaId db
  let downloadUrl ← generateDownloadUrl media.bucketKey
  pure (downloadUrl, ttlSeconds.getD 300)

end Birgap.Messages
