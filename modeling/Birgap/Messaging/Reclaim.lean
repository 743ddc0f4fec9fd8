import Birgap.Messaging.Objects

/-!
# Deleted attachments are reclaimed

Requests run beside deletions for everyone, and a deletion with its cleanup is one step, so
every sequential run is among the runs below. The count of a cleanup includes the rows of
messages that were deleted before, so an object that two messages have shared is not
scheduled by the last of their deletions.
-/
namespace Birgap.Messaging.Reclaim

set_option autoImplicit false

open Birgap.Lib Birgap.Lib.Run Birgap.Lib.Tx Birgap.Messages Birgap.Auth

/-- The messaging system, and the keys for which a storage-cleanup job was added. -/
structure State where
  messaging : Messaging.State
  enqueued : List String

inductive Act where
  | message (a : Messaging.Act)
  | delete (limit : EditLimit) (now : Time) (userId messageId : Id) (dto : DeleteMessageDto)

def State.db (s : State) : Db := s.messaging.db

def step (env : AuthEnv) (configuredMax : Option Int) (s : State) : Act → State
  | .message a => { s with messaging := Messaging.step env configuredMax s.messaging a }
  | .delete limit now userId messageId dto =>
      match Messages.delete limit now userId messageId dto s.db with
      | .ok (some _, db) =>
          { messaging := { s.messaging with db := db }
            enqueued := s.enqueued ++ cleanupMessageMedia messageId db }
      | .ok (none, db) => { s with messaging := { s.messaging with db := db } }
      | .error _ => s

/-- No messages and no jobs yet; any users, members and uploads. -/
def start (db : Db) : State := { messaging := Messaging.start db, enqueued := [] }

/-- The message has an attachment with the key. -/
def Holds (db : Db) (key : String) (x : Message) : Prop :=
  ∃ r ∈ db.messageMedia, r.messageId = some x.id ∧ r.bucketKey = key

/-- A key whose messages are all deleted has a job. -/
def Reclaimed (s : State) : Prop :=
  ∀ r ∈ s.db.messageMedia, r.messageId.isSome →
    (∀ x ∈ s.db.messages, Holds s.db r.bucketKey x → x.deletedAt.isSome) →
    r.bucketKey ∈ s.enqueued

/-- The request passes the checks of a deletion for everyone. -/
def DeletesForEveryone (limit : EditLimit) (now : Time) (userId messageId : Id)
    (dto : DeleteMessageDto) (db : Db) : Prop :=
  dto.scope = .forEveryone ∧ ∃ m who, deleteAccess userId messageId dto db = .ok m ∧
    assertDeletable limit now userId m db = .ok who

/-- A deletion for everyone leaves each key of the message with a job from before, with
another message that is not deleted, or with no other message at all. -/
def LastOrShared (s : State) : Act → Prop
  | .delete limit now userId messageId dto =>
      DeletesForEveryone limit now userId messageId dto s.db → ∀ r ∈ mediaOf messageId s.db,
        r.bucketKey ∈ s.enqueued ∨
        (∃ x ∈ s.db.messages, x.id ≠ messageId ∧ x.deletedAt = none ∧ Holds s.db r.bucketKey x) ∨
        (∀ x ∈ s.db.messages, x.id ≠ messageId → ¬ Holds s.db r.bucketKey x)
  | .message _ => True

/-! ## The deletion -/

theorem deleteAccess_found {userId messageId : Id} {dto : DeleteMessageDto} {db : Db} {m : Message}
    (h : deleteAccess userId messageId dto db = .ok m) : m ∈ db.messages ∧ m.id = messageId := by
  unfold deleteAccess at h
  obtain ⟨_, _, h⟩ := bind_ok.mp h
  unfold assertMessageAccess at h
  split at h
  · cases h
  · rename_i x hf
    obtain ⟨_, _, h⟩ := bind_ok.mp h
    obtain rfl := Except.ok.inj h
    exact ⟨List.mem_of_find?_eq_some hf, by simpa using List.find?_some hf⟩

/-- The transaction only fails where there is no such message. -/
theorem deleteTx_error {now : Time} {userId messageId : Id} {who : DeletedBy} {db : Db} {e : Err}
    (h : deleteTx now userId messageId who db = .error e) : ∀ x ∈ db.messages, x.id ≠ messageId := by
  unfold deleteTx at h
  simp only at h
  split at h
  · rename_i hf
    intro x hx hid
    obtain ⟨x', hx', hkey⟩ := Rows.updateMany_kept (p := (·.id == messageId)) (f := tombstoned now)
      (k := Message.id) (fun _ => rfl) hx
    have hno := List.find?_eq_none.mp hf x' hx'
    simp [hkey, hid] at hno
  · cases who <;> cases h

/-- What a deletion does: nothing, a mark for one user, or a tombstone for a message that
passed the checks. -/
theorem delete_cases (limit : EditLimit) (now : Time) (userId messageId : Id)
    (dto : DeleteMessageDto) (db : Db) :
    ((∃ e, Messages.delete limit now userId messageId dto db = .error e) ∧
      ¬ DeletesForEveryone limit now userId messageId dto db) ∨
    (Messages.delete limit now userId messageId dto db = .ok (none, hideMessage userId messageId db) ∧
      ¬ DeletesForEveryone limit now userId messageId dto db) ∨
    (DeletesForEveryone limit now userId messageId dto db ∧ ∃ who log,
      Messages.delete limit now userId messageId dto db = .ok (some who, { db with
        messages := Rows.updateMany (·.id == messageId) (tombstoned now) db.messages
        adminAuditLog := log })) := by
  cases ha : deleteAccess userId messageId dto db with
  | error e =>
      left
      refine ⟨⟨e, by simp [Messages.delete, ha, bind, Except.bind]⟩, ?_⟩
      intro h
      obtain ⟨_, m, who, hm, _⟩ := h
      rw [ha] at hm
      cases hm
  | ok m =>
      cases hs : dto.scope with
      | forMe =>
          right; left
          refine ⟨by simp [Messages.delete, ha, hs, bind, Except.bind, pure, Except.pure], ?_⟩
          intro h
          rw [h.1] at hs
          cases hs
      | forEveryone =>
          cases hd : assertDeletable limit now userId m db with
          | error e =>
              left
              refine ⟨⟨e, by simp [Messages.delete, ha, hs, hd, bind, Except.bind]⟩, ?_⟩
              intro h
              obtain ⟨_, m', who, hm, hw⟩ := h
              rw [ha] at hm
              obtain rfl := Except.ok.inj hm
              rw [hd] at hw
              cases hw
          | ok who =>
              right; right
              refine ⟨⟨hs, m, who, ha, hd⟩, who, ?_⟩
              cases htx : deleteTx now userId messageId who db with
              | error e =>
                  -- the checks have found the message, so the update finds it as well
                  obtain ⟨hm, hid⟩ := deleteAccess_found ha
                  exact absurd hid (deleteTx_error htx m hm)
              | ok o =>
                  obtain ⟨x, db'⟩ := o
                  refine ⟨db'.adminAuditLog, ?_⟩
                  rw [← deleteTx_ok htx]
                  simp [Messages.delete, ha, hs, hd, htx, bind, Except.bind, pure, Except.pure]

/-! ## One step -/

section Steps

variable {env : AuthEnv} {configuredMax : Option Int} {s : State}

theorem step_linked (a : Act) (h : Linked s.db) : Linked (step env configuredMax s a).db := by
  cases a with
  | message a => exact (exec_extends env configuredMax s.messaging a).linked h
  | delete limit now userId messageId dto =>
      rcases delete_cases limit now userId messageId dto s.db with
        ⟨⟨e, he⟩, _⟩ | ⟨he, _⟩ | ⟨_, who, log, he⟩
      · simp only [step, he]
        exact h
      · simp only [step, he]
        show Linked (hideMessage userId messageId s.db)
        rw [hideMessage_frame]
        exact ⟨h.ids, h.linked⟩
      · simp only [step, he]
        exact linked_of_tombstone h messageId now log

/-- New rows belong to a message that is not deleted. -/
theorem message_reclaimed (hr : Reclaimed s) (a : Messaging.Act) :
    Reclaimed (step env configuredMax s (.message a)) := by
  have he := exec_extends env configuredMax s.messaging a
  intro q hq hbound hdead
  rcases he.new q hq with hold | ⟨x, hx, hxid, hlive, _⟩
  · apply hr q hold hbound
    intro x hx hholds
    obtain ⟨r, hrm, hid, hkey⟩ := hholds
    exact hdead x (he.messages x hx) ⟨r, he.kept r hrm (by rw [hid]; rfl), hid, hkey⟩
  · have hgone := hdead x hx ⟨q, hq, hxid, rfl⟩
    rw [hlive] at hgone
    cases hgone

/-- The message of another id is the same before and after. -/
theorem mem_tombstone {now : Time} {messageId : Id} {x : Message} (hne : x.id ≠ messageId) :
    x ∈ Rows.updateMany (·.id == messageId) (tombstoned now) s.db.messages ↔ x ∈ s.db.messages := by
  constructor
  · intro hx
    obtain ⟨y, hy, he⟩ := Rows.mem_updateMany.mp hx
    split at he
    · rename_i hid
      have hsame : x.id = y.id := by
        rw [he]
        rfl
      exact absurd (hsame.trans (by simpa using hid)) hne
    · rw [he]
      exact hy
  · intro hx
    refine Rows.mem_updateMany.mpr ⟨x, hx, ?_⟩
    rw [if_neg (by simpa using hne)]

theorem tombstone_deleted {now : Time} {messageId : Id} {x : Message}
    (hx : x ∈ Rows.updateMany (·.id == messageId) (tombstoned now) s.db.messages)
    (hid : x.id = messageId) : x.deletedAt.isSome := by
  obtain ⟨y, _, he⟩ := Rows.mem_updateMany.mp hx
  split at he
  · rw [he]
    rfl
  · rename_i hne
    rw [← he] at hne
    simp [hid] at hne

/-- A message of the table after the tombstone that has the key had it before, and every
message of another id has it still. -/
theorem all_deleted_iff {now : Time} {messageId : Id} {key : String} :
    (∀ x ∈ Rows.updateMany (·.id == messageId) (tombstoned now) s.db.messages,
      Holds s.db key x → x.deletedAt.isSome) ↔
    ∀ x ∈ s.db.messages, x.id ≠ messageId → Holds s.db key x → x.deletedAt.isSome := by
  constructor
  · intro h x hx hne hholds
    exact h x ((mem_tombstone hne).mpr hx) hholds
  · intro h x hx hholds
    by_cases hid : x.id = messageId
    · exact tombstone_deleted hx hid
    · exact h x ((mem_tombstone hid).mp hx) hid hholds

/-- No row of another message is counted exactly when no other message has the key. -/
theorem otherRefs_zero_iff (h : Linked s.db) {key : String} {messageId : Id} :
    otherRefs key messageId s.db = 0 ↔
      ∀ x ∈ s.db.messages, x.id ≠ messageId → ¬ Holds s.db key x := by
  rw [otherRefs_eq_zero]
  constructor
  · intro hzero x _ hne hholds
    obtain ⟨r, hr, hid, hkey⟩ := hholds
    exact hne (hzero r hr hkey x.id hid)
  · intro hnone r hr hkey id hid
    obtain ⟨x, hx, hxid⟩ := h.linked r hr id hid
    by_contra hne
    exact hnone x hx (by rw [hxid]; exact hne) ⟨r, hr, by rw [hxid]; exact hid, hkey⟩

theorem tombstone_reclaimed_iff (h : Linked s.db) (hr : Reclaimed s) {now : Time} {messageId : Id}
    {log : List AdminAuditLog} :
    Reclaimed
      { messaging := { s.messaging with db := { s.db with
          messages := Rows.updateMany (·.id == messageId) (tombstoned now) s.db.messages
          adminAuditLog := log } }
        enqueued := s.enqueued ++ cleanupMessageMedia messageId s.db } ↔
    ∀ r ∈ mediaOf messageId s.db, r.bucketKey ∈ s.enqueued ∨
      (∃ x ∈ s.db.messages, x.id ≠ messageId ∧ x.deletedAt = none ∧ Holds s.db r.bucketKey x) ∨
      (∀ x ∈ s.db.messages, x.id ≠ messageId → ¬ Holds s.db r.bucketKey x) := by
  constructor
  · intro hafter r hmem
    obtain ⟨hrow, hid⟩ := mem_mediaOf.mp hmem
    by_cases hshared : ∃ x ∈ s.db.messages, x.id ≠ messageId ∧ x.deletedAt = none ∧
        Holds s.db r.bucketKey x
    · exact Or.inr (Or.inl hshared)
    · have hdead : ∀ x ∈ s.db.messages, x.id ≠ messageId → Holds s.db r.bucketKey x →
          x.deletedAt.isSome := by
        intro x hx hne hholds
        cases hd : x.deletedAt with
        | none => exact absurd ⟨x, hx, hne, hd, hholds⟩ hshared
        | some _ => rfl
      have hjob := hafter r hrow (by rw [hid]; rfl) (all_deleted_iff.mpr hdead)
      rcases List.mem_append.mp hjob with hbefore | hnow
      · exact Or.inl hbefore
      · exact Or.inr (Or.inr ((otherRefs_zero_iff h).mp ((mem_cleanupMessageMedia hmem).mp hnow)))
  · intro hcond r hrow hbound hdead
    have hdead := all_deleted_iff.mp hdead
    by_cases hown : ∃ r₀ ∈ mediaOf messageId s.db, r₀.bucketKey = r.bucketKey
    · obtain ⟨r₀, hr₀, hkey⟩ := hown
      have hc := hcond r₀ hr₀
      have hjob := mem_cleanupMessageMedia hr₀
      rw [hkey] at hc hjob
      rcases hc with hbefore | ⟨x, hx, hne, hlive, hholds⟩ | hnone
      · exact List.mem_append_left _ hbefore
      · have hgone := hdead x hx hne hholds
        rw [hlive] at hgone
        cases hgone
      · exact List.mem_append_right _ (hjob.mpr ((otherRefs_zero_iff h).mpr hnone))
    · -- the deleted message has nothing to do with this key
      refine List.mem_append_left _ (hr r hrow hbound ?_)
      intro x hx hholds
      by_cases hid : x.id = messageId
      · obtain ⟨q, hq, hqid, hqkey⟩ := hholds
        rw [hid] at hqid
        exact absurd ⟨q, mem_mediaOf.mpr ⟨hq, hqid⟩, hqkey⟩ hown
      · exact hdead x hx hid hholds

theorem step_reclaimed_iff (a : Act) (h : Linked s.db) (hr : Reclaimed s) :
    Reclaimed (step env configuredMax s a) ↔ LastOrShared s a := by
  cases a with
  | message a => exact ⟨fun _ => trivial, fun _ => message_reclaimed hr a⟩
  | delete limit now userId messageId dto =>
      rcases delete_cases limit now userId messageId dto s.db with
        ⟨⟨e, he⟩, hno⟩ | ⟨he, hno⟩ | ⟨hdel, who, log, he⟩
      · simp only [step, he]
        exact ⟨fun _ hdel => absurd hdel hno, fun _ => hr⟩
      · simp only [step, he]
        refine ⟨fun _ hdel => absurd hdel hno, fun _ => ?_⟩
        rw [hideMessage_frame]
        exact hr
      · simp only [step, he]
        constructor
        · intro hafter _
          exact (tombstone_reclaimed_iff h hr).mp hafter
        · intro hcond
          exact (tombstone_reclaimed_iff h hr).mpr (hcond hdel)

end Steps

/-- From a store without messages, a run reclaims the objects of deleted messages in every
state exactly when each deletion in it finds every key of its message scheduled already,
shared with a message that is not deleted, or used by no other message. -/
theorem objects_reclaimed_iff (env : AuthEnv) (configuredMax : Option Int) (db : Db)
    (acts : List Act) (hfree : ∀ r ∈ db.messageMedia, r.messageId = none) :
    Always (step env configuredMax) Reclaimed (start db) acts ↔
      Along (step env configuredMax) LastOrShared (start db) acts := by
  have hlinked : Linked (start db).db := by
    refine ⟨List.nodup_nil, ?_⟩
    intro r hr id hid
    rw [hfree r hr] at hid
    cases hid
  have hstart : Reclaimed (start db) := by
    intro r hr hbound _
    rw [hfree r hr] at hbound
    cases hbound
  exact always_iff_along (J := fun s => Linked s.db) (fun s a h => step_linked a h)
    (fun s a h hr => step_reclaimed_iff a h hr) acts (start db) hlinked hstart

/-- Two uploads of Alice. -/
def picturesDb : Db :=
  { Messaging.sampleDb with
    messageMedia := ["p1", "p2"].map fun id =>
      { id, userId := "alice", mediaType := .image, bucketKey := "media/" ++ id
        mimeType := "image/png", sizeBytes := 1, filename := id, mediaCiphertextHash := "h"
        uploadStatus := .complete, createdAt := 0 } }

/-- Alice sends an upload to Bob. -/
def sendPicture (idempotencyKey mediaId messageId : Id) : List Act :=
  [.message (.send 0 "alice" { Messaging.sampleDto idempotencyKey with mediaIds := [mediaId] }),
   .message (.tx 0 (Messaging.sampleCtx messageId))]

/-- She forwards the first message to Mallory. -/
def forwardFirst : List Act :=
  [.message (.forward 0 "alice"
     { sourceMessageId := "m1", senderDeviceId := "d1", idempotencyKey := "forward-1"
       targets := [{ type := .direct, recipientUserId := some "mallory"
                     envelopes := some [⟨"d3", "c"⟩] }] }),
   .message (.target 0),
   .message (.tx 0 { Messaging.sampleCtx "m3" with threadId := "t3" }),
   .message (.target 0)]

def deletePicture (messageId : Id) : Act :=
  .delete {} 20 "alice" messageId { deviceId := "d1", scope := .forEveryone }

/-- The message and its copy are both deleted for everyone. -/
def bothDeleted : List Act :=
  sendPicture "send-key-1" "p1" "m1" ++ forwardFirst ++ [deletePicture "m1", deletePicture "m3"]

/-- Each of the two cleanups counts the row of the other message, and the object stays. -/
theorem shared_object_leaks :
    ¬ ∀ (env : AuthEnv) (configuredMax : Option Int) (db : Db) (acts : List Act),
      (∀ r ∈ db.messageMedia, r.messageId = none) →
      Always (step env configuredMax) Reclaimed (start db) acts := by
  intro h
  have hrun := h Devices.sampleEnv none picturesDb bothDeleted (by decide)
  have hlast := hrun bothDeleted (List.prefix_refl _)
  revert hlast
  unfold Reclaimed Holds
  decide

/-- A picture of its own and one whose copy is kept. -/
def separatePictures : List Act :=
  sendPicture "send-key-1" "p1" "m1" ++ sendPicture "send-key-2" "p2" "m2" ++ forwardFirst ++
    [deletePicture "m2", deletePicture "m1"]

theorem separate_pictures_reclaimed :
    (run (step Devices.sampleEnv none) (start picturesDb) separatePictures).enqueued = ["media/p2"] ∧
    Always (step Devices.sampleEnv none) Reclaimed (start picturesDb) separatePictures := by
  refine ⟨by decide, (objects_reclaimed_iff Devices.sampleEnv none picturesDb separatePictures
    (by decide)).mpr ?_⟩
  simp only [separatePictures, sendPicture, forwardFirst, List.cons_append, List.nil_append,
    along_cons]
  refine ⟨trivial, trivial, trivial, trivial, trivial, trivial, trivial, trivial, ?_, ?_,
    along_nil _ _ _⟩
  · intro _
    unfold Holds
    decide
  · intro _
    unfold Holds
    decide

end Birgap.Messaging.Reclaim
