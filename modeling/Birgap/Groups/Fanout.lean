import Birgap.Messages.Edit
import Birgap.Unread.Service

/-!
# Group fan-out

The processors of the queues `group-fanout` and `group-edit-fanout`.
-/
namespace Birgap.Groups

set_option autoImplicit false

open Birgap.Lib Birgap.Messages

structure GroupFanoutJobData where
  messageId : Id
  groupId : Id
  senderUserId : Id
  senderDeviceId : Id
  ciphertext : Ciphertext
  threadSequence : Nat
  replyToMessageId : Option Id
  contentType : MessageContentType
  createdAt : Time
  mediaIds : List Id
  forwarded : Bool := false
  deriving DecidableEq

/-- The active devices of the members of a group, without the sending one. -/
def targetDevices (groupId senderDeviceId : Id) (db : Db) : List Device :=
  db.devices.filter fun d =>
    d.active && isMember groupId d.userId db && d.id != senderDeviceId

/-- The rows a fan-out inserts; `envelopeId` draws their ids. -/
def fanoutEnvelopes (now : Time) (envelopeId : Nat → Id) (job : GroupFanoutJobData)
    (devices : List Device) : List MessageEnvelope :=
  devices.zipIdx.map fun (d, i) =>
    { id := envelopeId i, messageId := job.messageId, recipientUserId := d.userId
      recipientDeviceId := d.id, ciphertext := job.ciphertext, status := .pending
      createdAt := now, updatedAt := now }

/-- `GroupFanoutProcessor.process`, with the unread counters it asks to have recalculated.
An envelope refers to a stored message, so the insert fails without it. -/
def fanout (now : Time) (envelopeId : Nat → Id) (job : GroupFanoutJobData) (db : Db) :
    Except Err (Nat × List Unread.RecalcKey) × Db :=
  let devices := targetDevices job.groupId job.senderDeviceId db
  if devices.isEmpty then (.ok (0, []), db)
  else if !db.messages.any (·.id == job.messageId) then
    (.error (.failure "Foreign key constraint violated"), db)
  else
    let recipients := ((devices.map (·.userId)).filter (· != job.senderUserId)).eraseDups
    (.ok (devices.length, recipients.map fun userId =>
        { userId, threadType := .group, threadId := job.groupId }),
      { db with
        messageEnvelopes := Rows.createManySkip envelopeClash
          (fanoutEnvelopes now envelopeId job devices) db.messageEnvelopes })

/-- `GroupEditFanoutProcessor.process`: the envelopes are updated in chunks of 100
devices. -/
def editFanout (now : Time) (job : GroupEditFanoutJobData) (db : Db) : Db :=
  let deviceIds := (targetDevices job.groupId job.senderDeviceId db).map (·.id)
  { db with
    messageEnvelopes := (deviceIds.toChunks 100).foldl (fun rows chunk =>
      Rows.updateMany (fun e => e.messageId == job.messageId && chunk.contains e.recipientDeviceId)
        (fun e => { e with
          ciphertext := job.ciphertext, envelopeVersion := e.envelopeVersion + 1
          updatedAt := now }) rows) db.messageEnvelopes }

/-! ## The statements of the two processors -/

/-- The insert of a fan-out for the devices its query returned. An envelope refers to a
stored message and to a stored device. -/
def insertEnvelopes (now : Time) (envelopeId : Nat → Id) (job : GroupFanoutJobData)
    (devices : List Device) (db : Db) : Except Err Db :=
  if !db.messages.any (·.id == job.messageId) ||
      !devices.all (fun d => db.devices.any (·.id == d.id)) then
    .error (.failure "Foreign key constraint violated")
  else
    .ok { db with
          messageEnvelopes := Rows.createManySkip envelopeClash
            (fanoutEnvelopes now envelopeId job devices) db.messageEnvelopes }

/-- The update of one chunk of devices. -/
def updateChunk (now : Time) (messageId : Id) (ciphertext : Ciphertext) (chunk : List Id)
    (rows : List MessageEnvelope) : List MessageEnvelope :=
  Rows.updateMany (fun e => e.messageId == messageId && chunk.contains e.recipientDeviceId)
    (fun e => { e with
      ciphertext := ciphertext, envelopeVersion := e.envelopeVersion + 1, updatedAt := now }) rows

/-- The chunks one execution of an edit fan-out goes through. -/
def editChunks (groupId senderDeviceId : Id) (db : Db) : List (List Id) :=
  ((targetDevices groupId senderDeviceId db).map (·.id)).toChunks 100

theorem flatten_toChunks_go {α : Type} (n : Nat) (xs : List α) :
    ∀ (chunk : Array α) (chunks : Array (List α)), (List.toChunks.go n xs chunk chunks).flatten =
      chunks.toList.flatten ++ chunk.toList ++ xs := by
  induction xs with
  | nil => intro chunk chunks; simp [List.toChunks.go]
  | cons x xs ih =>
      intro chunk chunks
      rw [List.toChunks.go]
      split
      · rw [ih]; simp
      · rw [ih]; simp

/-- The chunks put together are the devices of the query. -/
theorem flatten_editChunks (groupId senderDeviceId : Id) (db : Db) :
    (editChunks groupId senderDeviceId db).flatten =
      (targetDevices groupId senderDeviceId db).map (·.id) := by
  unfold editChunks
  cases (targetDevices groupId senderDeviceId db).map (·.id) with
  | nil => rfl
  | cons x xs =>
      rw [List.toChunks, flatten_toChunks_go]
      · rfl
      · decide

theorem editFanout_eq (now : Time) (job : GroupEditFanoutJobData) (db : Db) :
    editFanout now job db =
      { db with
        messageEnvelopes := (editChunks job.groupId job.senderDeviceId db).foldl
          (fun rows chunk => updateChunk now job.messageId job.ciphertext chunk rows)
          db.messageEnvelopes } := rfl

/-- An execution that nothing comes in between inserts for the devices there are. -/
theorem fanout_eq (now : Time) (envelopeId : Nat → Id) (job : GroupFanoutJobData) (db : Db) :
    (fanout now envelopeId job db).2 =
      if (targetDevices job.groupId job.senderDeviceId db).isEmpty then db
      else (insertEnvelopes now envelopeId job
        (targetDevices job.groupId job.senderDeviceId db) db).toOption.getD db := by
  have hdevices : (targetDevices job.groupId job.senderDeviceId db).all
      (fun d => db.devices.any (·.id == d.id)) = true := by
    rw [List.all_eq_true]
    intro d hd
    exact List.any_eq_true.mpr ⟨d, List.mem_of_mem_filter hd, beq_self_eq_true d.id⟩
  unfold fanout insertEnvelopes
  dsimp only
  rw [hdevices]
  by_cases hempty : (targetDevices job.groupId job.senderDeviceId db).isEmpty = true
  · rw [if_pos hempty, if_pos hempty]
  · rw [if_neg hempty, if_neg hempty]
    cases hm : db.messages.any (·.id == job.messageId) <;> rfl

/-- The drawn ids of `n` new envelopes are not in use and differ from each other. -/
def FreshIds (envelopeId : Nat → Id) (n : Nat) (rows : List MessageEnvelope) : Prop :=
  (∀ i < n, ∀ e ∈ rows, e.id ≠ envelopeId i) ∧
  ∀ i < n, ∀ j < n, envelopeId i = envelopeId j → i = j

theorem mem_fanoutEnvelopes {now : Time} {envelopeId : Nat → Id} {job : GroupFanoutJobData}
    {devices : List Device} {e : MessageEnvelope} :
    e ∈ fanoutEnvelopes now envelopeId job devices ↔
      ∃ i d, devices[i]? = some d ∧ e =
        { id := envelopeId i, messageId := job.messageId, recipientUserId := d.userId
          recipientDeviceId := d.id, ciphertext := job.ciphertext, status := .pending
          createdAt := now, updatedAt := now } := by
  unfold fanoutEnvelopes
  rw [List.mem_map]
  constructor
  · rintro ⟨⟨d, i⟩, hd, rfl⟩
    exact ⟨i, d, List.mem_zipIdx_iff_getElem?.mp hd, rfl⟩
  · rintro ⟨i, d, hd, rfl⟩
    exact ⟨(d, i), List.mem_zipIdx_iff_getElem?.mpr hd, rfl⟩

/-- What a committed insert did: it appended some of its rows, and with fresh ids every
device it was given has an envelope. -/
theorem insertEnvelopes_ok {now : Time} {envelopeId : Nat → Id} {job : GroupFanoutJobData}
    {devices : List Device} {db db' : Db}
    (h : insertEnvelopes now envelopeId job devices db = .ok db') :
    db' = { db with messageEnvelopes := db'.messageEnvelopes } ∧
    db'.messageEnvelopes = Rows.createManySkip envelopeClash
      (fanoutEnvelopes now envelopeId job devices) db.messageEnvelopes ∧
    (FreshIds envelopeId devices.length db.messageEnvelopes → ∀ d ∈ devices,
      ∃ e ∈ db'.messageEnvelopes, e.messageId = job.messageId ∧ e.recipientDeviceId = d.id) := by
  unfold insertEnvelopes at h
  split at h
  · cases h
  · obtain rfl := Except.ok.inj h
    refine ⟨rfl, rfl, ?_⟩
    rintro ⟨hunused, hdistinct⟩ d hd
    obtain ⟨i, hi⟩ := List.mem_iff_getElem?.mp hd
    obtain ⟨b, hb, hcover⟩ := Rows.createManySkip_covers envelopeClash
      (mem_fanoutEnvelopes.mpr ⟨i, d, hi, rfl⟩) db.messageEnvelopes
    have hbound : ∀ k x, devices[k]? = some x → k < devices.length :=
      fun k x hk => (List.getElem?_eq_some_iff.mp hk).1
    refine ⟨b, hb, ?_⟩
    rcases hcover with rfl | hclash
    · exact ⟨rfl, rfl⟩
    · simp only [envelopeClash, Bool.or_eq_true, Bool.and_eq_true, beq_iff_eq] at hclash
      rcases hclash with hid | ⟨hm, hdev⟩
      · -- a fresh id is held by its own row only
        rcases Rows.mem_createManySkip hb with hold | hnew
        · exact absurd hid.symm (hunused i (hbound i d hi) b hold)
        · obtain ⟨j, x, hj, rfl⟩ := mem_fanoutEnvelopes.mp hnew
          obtain rfl := hdistinct i (hbound i d hi) j (hbound j x hj) hid
          obtain rfl := Option.some.inj (hi.symm.trans hj)
          exact ⟨rfl, rfl⟩
      · exact ⟨hm.symm, hdev.symm⟩

end Birgap.Groups
