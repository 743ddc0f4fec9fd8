import Birgap.Groups.Fanout
import Birgap.Lib.Run
import Mathlib.Logic.Function.Basic

/-!
# Sending to a group

`GroupsService.queueGroupMessage` and `MessagesService.forwardToGroup`, with the
statements of concurrent calls interleaved. Both check the idempotency key before and
inside their transaction, number the message by reading the current maximum, and put a
job on the fan-out queue after the transaction has committed.
-/
namespace Birgap.Groups

set_option autoImplicit false

open Birgap.Lib Birgap.Lib.Tx Birgap.Messages

/-- What the two services put into a message. -/
inductive Payload where
  | message (contentType : Option MessageContentType) (replyToMessageId : Option Id)
      (mediaIds : List Id)
  | forward (contentType : MessageContentType) (sourceMedia : List MessageMedia)

structure GroupRequest where
  senderUserId : Id
  groupId : Id
  senderDeviceId : Id
  idempotencyKey : String
  ciphertext : Ciphertext
  payload : Payload

/-- The sequence number after the greatest one of the group. -/
def nextSequence (groupId : Id) (db : Db) : Nat :=
  match Rows.newest (·.threadSequence) (db.messages.filter (·.groupId == some groupId)) with
  | none => 1
  | some m => m.threadSequence + 1

/-- No message of the group has that number. -/
theorem lt_nextSequence {db : Db} {groupId : Id} {m : Message} (hm : m ∈ db.messages)
    (hg : m.groupId = some groupId) : m.threadSequence < nextSequence groupId db := by
  have hmem : m ∈ db.messages.filter (·.groupId == some groupId) :=
    List.mem_filter.mpr ⟨hm, by simp [hg]⟩
  unfold nextSequence
  split
  · rename_i hnone
    rw [Rows.newest_eq_none hnone] at hmem
    cases hmem
  · rename_i newest hnewest
    have hle := Rows.newest_max hnewest m hmem
    omega

/-- The checks on the reply target and the attachments; a forward has neither. -/
def validatePayload (maxAttachments : Nat) (r : GroupRequest) (db : Db) :
    Except Err (Option Id) :=
  match r.payload with
  | .message _ replyToMessageId mediaIds => do
      let replyTo ← checkReply (·.groupId == some r.groupId)
        "Reply target is not in the same group" replyToMessageId db
      assertAttachmentsOwned maxAttachments r.senderUserId mediaIds db
      pure replyTo
  | .forward _ _ => .ok none

/-- The row the transaction inserts. -/
def groupMessage (now : Time) (messageId : Id) (r : GroupRequest) (sequence : Nat)
    (replyToMessageId : Option Id) : Message :=
  let row : Message :=
    { id := messageId, groupId := some r.groupId, senderUserId := r.senderUserId
      senderDeviceId := r.senderDeviceId, idempotencyKey := r.idempotencyKey
      threadSequence := sequence, createdAt := now }
  match r.payload with
  | .message contentType _ _ => { row with contentType := contentType.getD .text, replyToMessageId }
  | .forward contentType _ => { row with contentType, forwarded := true }

/-- The insert and the attachment statement that follows it. -/
def commitGroupMessage (now : Time) (mediaId : Nat → Id) (m : Message) (r : GroupRequest) (db : Db) :
    Except Err Db := do
  let db ← createMessage m [] db
  match r.payload with
  | .message _ _ mediaIds => .ok (bindMedia r.senderUserId mediaIds m.id db)
  | .forward _ sourceMedia => cloneMediaForForward now mediaId r.senderUserId m.id sourceMedia db

/-- The job both services add once their transaction has committed. -/
def fanoutJob (r : GroupRequest) (m : Message) : GroupFanoutJobData :=
  let job : GroupFanoutJobData :=
    { messageId := m.id, groupId := r.groupId, senderUserId := r.senderUserId
      senderDeviceId := r.senderDeviceId, ciphertext := r.ciphertext
      threadSequence := m.threadSequence, replyToMessageId := m.replyToMessageId
      contentType := .text, createdAt := m.createdAt, mediaIds := [] }
  match r.payload with
  | .message contentType _ mediaIds => { job with contentType := contentType.getD .text, mediaIds }
  | .forward contentType sourceMedia =>
      { job with
        replyToMessageId := none, contentType, mediaIds := sourceMedia.map (·.id), forwarded := true }

namespace Queue

/-- How far a call has come: past its first look-ups, past the look-up inside the
transaction, with its number read, with its payload validated, and, after the commit,
about to add the job of a message. -/
inductive Phase where
  | idle
  | entered (r : GroupRequest)
  | checked (r : GroupRequest)
  | numbered (r : GroupRequest) (sequence : Nat)
  | validated (r : GroupRequest) (sequence : Nat) (replyToMessageId : Option Id)
  | enqueueing (r : GroupRequest) (m : Message)

/-- The store, the calls, and every job added to the fan-out queue so far. -/
structure State where
  db : Db
  phases : Nat → Phase
  jobs : List GroupFanoutJobData

/-- One statement of the call with number `pid`. `fail` ends a call anywhere, before the
commit or after it when the queue refuses the job. -/
inductive Act where
  | enter (pid : Nat) (r : GroupRequest)
  | txCheck (pid : Nat)
  | readMax (pid : Nat)
  | validate (pid : Nat) (maxAttachments : Nat)
  | commit (pid : Nat) (now : Time) (messageId : Id) (mediaId : Nat → Id)
  | enqueue (pid : Nat)
  | fail (pid : Nat)

def State.set (s : State) (pid : Nat) (p : Phase) : State :=
  { s with phases := Function.update s.phases pid p }

theorem State.set_self (s : State) (pid : Nat) (p : Phase) : (s.set pid p).phases pid = p := by
  show Function.update s.phases pid p pid = p
  rw [Function.update_self]

theorem State.set_of_ne (s : State) {pid q : Nat} (h : q ≠ pid) (p : Phase) :
    (s.set pid p).phases q = s.phases q := by
  show Function.update s.phases pid p q = s.phases q
  rw [Function.update_of_ne h]

def step (s : State) : Act → State
  | .enter pid r =>
      match s.phases pid with
      | .idle =>
          if !isMember r.groupId r.senderUserId s.db then s
          else
            match findByKey r.senderDeviceId r.idempotencyKey s.db with
            | some _ => s
            | none => s.set pid (.entered r)
      | _ => s
  | .txCheck pid =>
      match s.phases pid with
      | .entered r =>
          match findByKey r.senderDeviceId r.idempotencyKey s.db with
          | some existing => s.set pid (.enqueueing r existing)
          | none => s.set pid (.checked r)
      | _ => s
  | .readMax pid =>
      match s.phases pid with
      | .checked r => s.set pid (.numbered r (nextSequence r.groupId s.db))
      | _ => s
  | .validate pid maxAttachments =>
      match s.phases pid with
      | .numbered r sequence =>
          match validatePayload maxAttachments r s.db with
          | .ok replyTo => s.set pid (.validated r sequence replyTo)
          | .error _ => s.set pid .idle
      | _ => s
  | .commit pid now messageId mediaId =>
      match s.phases pid with
      | .validated r sequence replyTo =>
          let m := groupMessage now messageId r sequence replyTo
          match commitGroupMessage now mediaId m r s.db with
          | .ok db => { s.set pid (.enqueueing r m) with db := db }
          | .error _ => s.set pid .idle
      | _ => s
  | .enqueue pid =>
      match s.phases pid with
      | .enqueueing r m => { s.set pid .idle with jobs := s.jobs ++ [fanoutJob r m] }
      | _ => s
  | .fail pid => s.set pid .idle

/-- The message id a call returns with success in this step, if it does. -/
def answer (s : State) : Act → Option Id
  | .enter pid r =>
      match s.phases pid with
      | .idle =>
          if !isMember r.groupId r.senderUserId s.db then none
          else (findByKey r.senderDeviceId r.idempotencyKey s.db).map (·.id)
      | _ => none
  | .enqueue pid =>
      match s.phases pid with
      | .enqueueing _ m => some m.id
      | _ => none
  | _ => none

/-- No messages and no jobs; any members, devices and attachments. -/
def start (db : Db) : State :=
  { db := { db with messages := [] }, phases := fun _ => .idle, jobs := [] }

end Queue

/-- A committed group transaction appended its message and touched attachments at most. -/
theorem commitGroupMessage_eq {now : Time} {mediaId : Nat → Id} {m : Message} {r : GroupRequest}
    {db db' : Db} (h : commitGroupMessage now mediaId m r db = .ok db') :
    (∀ x ∈ db.messages, messageClash m x = false) ∧
      db' = { db with messages := db.messages ++ [m], messageMedia := db'.messageMedia } := by
  unfold commitGroupMessage at h
  obtain ⟨db₁, hc, h⟩ := bind_ok.mp h
  obtain ⟨hclash, _, rfl⟩ := createMessage_ok hc
  refine ⟨hclash, ?_⟩
  split at h
  · obtain rfl := Except.ok.inj h
    simp only [List.append_nil, bindMedia]
  · have hf := cloneMediaForForward_ok h
    rw [hf]
    simp only [List.append_nil]

/-- What a committed group transaction did. -/
theorem commitGroupMessage_ok {now : Time} {mediaId : Nat → Id} {m : Message} {r : GroupRequest}
    {db db' : Db} (h : commitGroupMessage now mediaId m r db = .ok db') :
    (∀ x ∈ db.messages, messageClash m x = false) ∧ db'.messages = db.messages ++ [m] ∧
      db'.messageEnvelopes = db.messageEnvelopes ∧ db'.unreadCounters = db.unreadCounters := by
  obtain ⟨hclash, hdb⟩ := commitGroupMessage_eq h
  rw [hdb]
  exact ⟨hclash, rfl, rfl, rfl⟩

/-- A group transaction binds the attachments of its request, or copies those of the source
of a forward. -/
theorem commitGroupMessage_media {now : Time} {mediaId : Nat → Id} {m : Message} {r : GroupRequest}
    {db db' : Db} (h : commitGroupMessage now mediaId m r db = .ok db') :
    match r.payload with
    | .message _ _ mediaIds =>
        db'.messageMedia = (bindMedia r.senderUserId mediaIds m.id db).messageMedia
    | .forward _ source =>
        ∃ copies, db'.messageMedia = db.messageMedia ++ copies ∧ CopiesOf m.id source copies := by
  unfold commitGroupMessage at h
  obtain ⟨db₁, hc, h⟩ := bind_ok.mp h
  obtain ⟨_, _, rfl⟩ := createMessage_ok hc
  cases hp : r.payload with
  | message contentType replyToMessageId mediaIds =>
      rw [hp] at h
      obtain rfl := Except.ok.inj h
      rfl
  | forward contentType source =>
      simp only [hp] at h
      have hrows := cloneMediaForForward_rows h
      exact hrows

theorem groupMessage_id (now : Time) (messageId : Id) (r : GroupRequest) (sequence : Nat)
    (replyTo : Option Id) : (groupMessage now messageId r sequence replyTo).id = messageId := by
  unfold groupMessage
  cases r.payload <;> rfl

theorem groupMessage_deletedAt (now : Time) (messageId : Id) (r : GroupRequest) (sequence : Nat)
    (replyTo : Option Id) : (groupMessage now messageId r sequence replyTo).deletedAt = none := by
  unfold groupMessage
  cases r.payload <;> rfl

theorem groupMessage_group (now : Time) (messageId : Id) (r : GroupRequest) (sequence : Nat)
    (replyTo : Option Id) :
    (groupMessage now messageId r sequence replyTo).groupId = some r.groupId := by
  unfold groupMessage
  cases r.payload <;> rfl

theorem groupMessage_thread (now : Time) (messageId : Id) (r : GroupRequest) (sequence : Nat)
    (replyTo : Option Id) : (groupMessage now messageId r sequence replyTo).threadId = none := by
  unfold groupMessage
  cases r.payload <;> rfl

theorem groupMessage_sender (now : Time) (messageId : Id) (r : GroupRequest) (sequence : Nat)
    (replyTo : Option Id) :
    (groupMessage now messageId r sequence replyTo).senderUserId = r.senderUserId ∧
      (groupMessage now messageId r sequence replyTo).senderDeviceId = r.senderDeviceId ∧
      (groupMessage now messageId r sequence replyTo).idempotencyKey = r.idempotencyKey := by
  unfold groupMessage
  cases r.payload <;> exact ⟨rfl, rfl, rfl⟩

theorem groupMessage_sequence (now : Time) (messageId : Id) (r : GroupRequest) (sequence : Nat)
    (replyTo : Option Id) :
    (groupMessage now messageId r sequence replyTo).threadSequence = sequence := by
  unfold groupMessage
  cases r.payload <;> rfl

/-- A forward drops the reply target; a message stores the one that was checked. -/
theorem groupMessage_reply {now : Time} {messageId : Id} {r : GroupRequest} {sequence : Nat}
    {replyTo : Option Id} {id : Id}
    (h : (groupMessage now messageId r sequence replyTo).replyToMessageId = some id) :
    replyTo = some id := by
  unfold groupMessage at h
  split at h
  · exact h
  · cases h

/-- A validated reply target is stored, in the group, and no reply itself. -/
theorem validatePayload_ok {maxAttachments : Nat} {r : GroupRequest} {db : Db} {replyTo : Option Id}
    (h : validatePayload maxAttachments r db = .ok replyTo) :
    ∀ id, replyTo = some id →
      ∃ p ∈ db.messages, p.id = id ∧ p.groupId = some r.groupId ∧ p.replyToMessageId = none := by
  intro id hid
  unfold validatePayload at h
  split at h
  · obtain ⟨target, hreply, h⟩ := bind_ok.mp h
    obtain ⟨_, _, h⟩ := bind_ok.mp h
    obtain rfl := Except.ok.inj h
    obtain ⟨p, hp, hpid, hgroup, htop⟩ := checkReply_ok hreply id hid
    exact ⟨p, hp, hpid, beq_iff_eq.mp hgroup, htop⟩
  · obtain rfl := Except.ok.inj h
    cases hid

theorem fanoutJob_message (r : GroupRequest) (m : Message) : (fanoutJob r m).messageId = m.id := by
  unfold fanoutJob
  cases r.payload <;> rfl

theorem fanoutJob_group (r : GroupRequest) (m : Message) : (fanoutJob r m).groupId = r.groupId := by
  unfold fanoutJob
  cases r.payload <;> rfl

end Birgap.Groups
