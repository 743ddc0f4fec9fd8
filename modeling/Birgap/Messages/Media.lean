import Birgap.Schema
import Birgap.Lib.Rows
import Birgap.Lib.Tx
import Mathlib.Data.List.Perm.Subperm

/-!
# Attachments of a message

The parts of `MediaService` that write attachment rows: the upload of an attachment, and
what runs inside the transaction of a message.
-/
namespace Birgap.Messages

set_option autoImplicit false

open Birgap.Lib Birgap.Lib.Tx

def uploadStatusText : UploadStatus → String
  | .pending => "PENDING"
  | .complete => "COMPLETE"
  | .failed => "FAILED"

structure InitMediaDto where
  mediaType : MediaType
  filename : String
  mimeType : String
  sizeBytes : Nat
  mediaCiphertextHash : String
  thumbnailCiphertextHash : Option String := none
  width : Option Nat := none
  height : Option Nat := none
  duration : Option Nat := none

structure CompleteMediaDto where
  sizeBytes : Nat

/-- What `generatePresignedUploadUrl` issues for an upload. -/
structure PresignedUpload where
  uploadUrl : String
  bucketKey : String

/-- The row `initUpload` inserts. -/
def pendingMedia (now : Time) (mediaId userId : Id) (presigned : PresignedUpload)
    (dto : InitMediaDto) : MessageMedia :=
  { id := mediaId, userId, messageId := none, mediaType := dto.mediaType
    bucketKey := presigned.bucketKey, mimeType := dto.mimeType, sizeBytes := dto.sizeBytes
    filename := dto.filename, mediaCiphertextHash := dto.mediaCiphertextHash
    thumbnailCiphertextHash := dto.thumbnailCiphertextHash, width := dto.width
    height := dto.height, duration := dto.duration, uploadStatus := .pending, createdAt := now }

/-- `MediaService.initUpload`, once the URL is issued; answers with the id of the row and
what was issued. -/
def initUpload (now : Time) (mediaId userId : Id) (presigned : PresignedUpload)
    (dto : InitMediaDto) (db : Db) : Except Err ((Id × PresignedUpload) × Db) :=
  if db.messageMedia.any (·.id == mediaId) then .error .uniqueConstraint
  else
    .ok ((mediaId, presigned),
      { db with messageMedia := db.messageMedia ++ [pendingMedia now mediaId userId presigned dto] })

/-- The checks `completeUpload` makes on the row it reads. -/
def completeChecks (userId mediaId : Id) (db : Db) : Except Err MessageMedia :=
  match db.messageMedia.find? (·.id == mediaId) with
  | none => .error (.notFound "Media not found")
  | some media => do
      ensure (media.userId == userId) (.forbidden "Not the owner of this media")
      ensure (media.uploadStatus == .pending)
        (.badRequest ("Media is already " ++ (uploadStatusText media.uploadStatus).toLower))
      pure media

/-- An attachment row as `completeUpload` leaves it. -/
def completed (now : Time) (dto : CompleteMediaDto) (m : MessageMedia) : MessageMedia :=
  { m with uploadStatus := .complete, uploadedAt := some now, sizeBytes := dto.sizeBytes }

/-- The update of `completeUpload`, which names the row by its id alone. -/
def completeMedia (now : Time) (mediaId : Id) (dto : CompleteMediaDto) (db : Db) :
    Except Err (MessageMedia × Db) :=
  let rows := Rows.updateMany (·.id == mediaId) (completed now dto) db.messageMedia
  match rows.find? (·.id == mediaId) with
  | none => .error (.failure "Record to update not found.")
  | some media => .ok (media, { db with messageMedia := rows })

/-- `MediaService.completeUpload`; `verifyObjectExists` asks the bucket for the object. -/
def completeUpload (verifyObjectExists : String → Nat → Except Err Unit) (now : Time)
    (userId mediaId : Id) (dto : CompleteMediaDto) (db : Db) : Except Err (MessageMedia × Db) := do
  let media ← completeChecks userId mediaId db
  verifyObjectExists media.bucketKey dto.sizeBytes
  completeMedia now mediaId dto db

/-- The three checks on one attachment row, in the order of the source. -/
def checkAttachment (userId : Id) (row : MessageMedia) : Except Err Unit :=
  if row.userId ≠ userId then .error (.forbidden "Not the owner of one or more attachments")
  else if row.messageId.isSome then
    .error (.badRequest "One or more attachments are already attached to a message")
  else if row.uploadStatus ≠ .complete then
    .error (.badRequest ("One or more attachments are not fully uploaded (status: " ++
      uploadStatusText row.uploadStatus ++ ")"))
  else .ok ()

/-- `MediaService.assertAttachmentsOwned`. -/
def assertAttachmentsOwned (maxAttachments : Nat) (userId : Id) (mediaIds : List Id) (db : Db) :
    Except Err Unit :=
  if mediaIds.isEmpty then .ok ()
  else if maxAttachments < mediaIds.length then
    .error (.badRequest ("Too many attachments: " ++ toString mediaIds.length ++ " > max " ++
      toString maxAttachments))
  else if ¬ mediaIds.Nodup then .error (.badRequest "Duplicate mediaIds in request")
  else
    let rows := db.messageMedia.filter fun m => mediaIds.contains m.id
    if rows.length ≠ mediaIds.length then
      .error (.badRequest "One or more mediaIds do not exist")
    else checkAll (checkAttachment userId) rows

/-- The binding update of `send` and `queueGroupMessage`. -/
def bindMedia (senderUserId : Id) (mediaIds : List Id) (messageId : Id) (db : Db) : Db :=
  { db with
    messageMedia := Rows.updateMany
      (fun m => mediaIds.contains m.id && m.userId == senderUserId && m.messageId.isNone)
      (fun m => { m with messageId := some messageId }) db.messageMedia }

/-- `MediaService.cloneMediaForForward`; `mediaId i` is the id drawn for the `i`-th clone. -/
def cloneMediaForForward (now : Time) (mediaId : Nat → Id) (forwarderUserId newMessageId : Id)
    (sourceMedia : List MessageMedia) (db : Db) : Except Err Db :=
  let clones := sourceMedia.zipIdx.map fun (m, i) =>
    { m with
      id := mediaId i, userId := forwarderUserId, messageId := some newMessageId
      uploadStatus := .complete, uploadedAt := some now, createdAt := now }
  match Rows.insertAll (fun a b => a.id == b.id) clones db.messageMedia with
  | none => .error .uniqueConstraint
  | some rows => .ok { db with messageMedia := rows }

/-- What the ownership check has seen when it passes. -/
theorem assertAttachmentsOwned_ok {maxAttachments : Nat} {userId : Id} {mediaIds : List Id} {db : Db}
    (hu : Rows.Unique (·.id) db.messageMedia)
    (h : assertAttachmentsOwned maxAttachments userId mediaIds db = .ok ()) :
    ∀ id ∈ mediaIds, ∃ r ∈ db.messageMedia, r.id = id ∧ r.userId = userId ∧ r.messageId = none ∧
      r.uploadStatus = .complete := by
  intro id hid
  unfold assertAttachmentsOwned at h
  rw [if_neg (by rw [List.isEmpty_iff]; exact List.ne_nil_of_mem hid)] at h
  split at h
  · cases h
  split at h
  · cases h
  simp only [ne_eq, ite_not] at h
  split at h
  · rename_i hlength
    -- as many rows as ids, and no row twice: every id has its row
    have hsub : (db.messageMedia.filter fun m => mediaIds.contains m.id).map (·.id) ⊆ mediaIds := by
      intro x hx
      obtain ⟨r, hr, rfl⟩ := List.mem_map.mp hx
      simpa using (List.mem_filter.mp hr).2
    have hperm := (List.Nodup.subperm (hu.filter _) hsub).perm_of_length_le
      (by rw [List.length_map, hlength])
    obtain ⟨r, hr, rfl⟩ := List.mem_map.mp (hperm.mem_iff.mpr hid)
    have hc := checkAll_ok h r hr
    unfold checkAttachment at hc
    split at hc
    · cases hc
    · rename_i howner
      split at hc
      · cases hc
      · rename_i hfree
        split at hc
        · cases hc
        · rename_i hstatus
          exact ⟨r, (List.mem_filter.mp hr).1, rfl, by simpa using howner, by simpa using hfree,
            by simpa using hstatus⟩
  · cases h

end Birgap.Messages
