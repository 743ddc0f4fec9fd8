import Birgap.Messages.Media
import Mathlib.Data.String.Basic

/-!
# Sending and forwarding to a user

`MessagesService.send` and `forwardToDirect`. Both run one transaction: check the
devices, find or create the thread of the pair, take the next sequence number, and
store the message with its envelopes. Any statement of the transaction may fail. The
inversion lemmas below the definitions say what a committed transaction did.
-/
namespace Birgap.Messages

set_option autoImplicit false

open Birgap.Lib Birgap.Lib.Tx

structure MessageEnvelopeDto where
  recipientDeviceId : Id
  ciphertext : Ciphertext

structure SendMessageDto where
  senderDeviceId : Id
  recipientUserId : Id
  idempotencyKey : String
  contentType : Option MessageContentType := none
  replyToMessageId : Option Id := none
  mediaIds : List Id := []
  envelopes : List MessageEnvelopeDto

/-- The statements of a message transaction. -/
inductive Stmt where
  | devices
  | threadUpsert
  | threadUpdate
  | replyTarget
  | attachments
  | messageCreate
  | media
  | commit
  deriving DecidableEq

/-- What a call draws from its surroundings: the clock, the ids the database generates,
the statements that fail, and the configured attachment limit. -/
structure Ctx where
  now : Time
  messageId : Id
  threadId : Id
  envelopeId : Nat → Id
  mediaId : Nat → Id
  fails : Stmt → Bool := fun _ => false
  maxAttachments : Nat := 10

/-- A statement that the database refuses aborts the transaction. -/
def Ctx.exec (ctx : Ctx) (stmt : Stmt) : Except Err Unit :=
  ensure (!ctx.fails stmt) (.failure "Statement failed")

/-- A message with its envelopes and attachments, as `serializeMessage` returns it. -/
structure Serialized where
  message : Message
  envelopes : List MessageEnvelope
  media : List MessageMedia
  deriving DecidableEq

def serializeMessage (m : Message) (db : Db) : Serialized :=
  { message := m
    envelopes := db.messageEnvelopes.filter (·.messageId == m.id)
    media := (db.messageMedia.filter (·.messageId == some m.id)).insertionSort
      fun a b => a.createdAt ≤ b.createdAt }

def canonicalDirectPair (userIdA userIdB : Id) : Id × Id :=
  if userIdA = userIdB then (userIdA, userIdB)
  else if userIdA < userIdB then (userIdA, userIdB) else (userIdB, userIdA)

/-- Look-up on the unique index `(senderDeviceId, idempotencyKey)`. -/
def findByKey (senderDeviceId : Id) (idempotencyKey : String) (db : Db) : Option Message :=
  db.messages.find? fun m =>
    m.senderDeviceId == senderDeviceId && m.idempotencyKey == idempotencyKey

/-- The device query of a direct message and the checks made on it; returns the ids of
the recipient's devices. -/
def routeDevices (senderUserId senderDeviceId recipientUserId : Id)
    (envelopes : List MessageEnvelopeDto) (db : Db) : Except Err (List Id) := do
  let allDevices := db.devices.filter fun d => d.active && (d.id == senderDeviceId ||
    d.userId == recipientUserId || (d.userId == senderUserId && d.id != senderDeviceId))
  ensure ((allDevices.find? (·.id == senderDeviceId)).any (·.userId == senderUserId))
    (.forbidden "Sender device is not active for this user")
  ensure (senderUserId != recipientUserId) (.badRequest "Recipient must be another user")
  let recipientDeviceIds := (allDevices.filter (·.userId == recipientUserId)).map (·.id)
  ensure (!recipientDeviceIds.isEmpty) (.notFound "Recipient has no active devices")
  let senderSyncDeviceIds := (allDevices.filter fun d =>
    d.userId == senderUserId && d.id != senderDeviceId).map (·.id)
  ensure (recipientDeviceIds.all fun id => envelopes.any (·.recipientDeviceId == id))
    (.badRequest "Missing envelope for active recipient device")
  ensure (envelopes.all fun e =>
      (recipientDeviceIds ++ senderSyncDeviceIds).contains e.recipientDeviceId)
    (.badRequest "Envelope recipient device is not part of this direct message")
  pure recipientDeviceIds

/-- The upsert of the thread row of a pair. -/
def upsertThread (threadId userAId userBId : Id) (db : Db) : Except Err (DirectThread × Db) :=
  match db.directThreads.find? fun t => t.userAId == userAId && t.userBId == userBId with
  | some thread => .ok (thread, db)
  | none =>
      if db.directThreads.any (·.id == threadId) then .error .uniqueConstraint
      else
        let thread : DirectThread := { id := threadId, userAId, userBId }
        .ok (thread, { db with directThreads := db.directThreads ++ [thread] })

def bump (t : DirectThread) : DirectThread := { t with latestSequence := t.latestSequence + 1 }

/-- `update({ where: { id }, data: { latestSequence: { increment: 1 } } })`, returning
the row as updated. -/
def incrementSequence (id : Id) (db : Db) : Except Err (DirectThread × Db) :=
  let threads := Rows.updateMany (·.id == id) bump db.directThreads
  match threads.find? (·.id == id) with
  | none => .error (.failure "Record to update not found.")
  | some thread => .ok (thread, { db with directThreads := threads })

/-- The check of a reply target; `inConversation` and `elsewhere` are what the two
services say differently. -/
def checkReply (inConversation : Message → Bool) (elsewhere : String)
    (replyToMessageId : Option Id) (db : Db) : Except Err (Option Id) :=
  match replyToMessageId with
  | none => .ok none
  | some id =>
      match db.messages.find? (·.id == id) with
      | none => .error (.notFound "Reply target message not found")
      | some target =>
          if !inConversation target then .error (.badRequest elsewhere)
          else if target.replyToMessageId.isSome then
            .error (.badRequest "Cannot reply to a message that is itself a reply")
          else .ok (some target.id)

/-- The unique indexes of the message table. -/
def messageClash (m x : Message) : Bool :=
  m.id == x.id ||
  (m.senderDeviceId == x.senderDeviceId && m.idempotencyKey == x.idempotencyKey) ||
  (m.threadId.isSome && m.threadId == x.threadId && m.threadSequence == x.threadSequence) ||
  (m.groupId.isSome && m.groupId == x.groupId && m.threadSequence == x.threadSequence)

/-- The unique indexes of the envelope table. -/
def envelopeClash (a b : MessageEnvelope) : Bool :=
  a.id == b.id || (a.messageId == b.messageId && a.recipientDeviceId == b.recipientDeviceId)

theorem messageClash_fresh {m : Message} {rows : List Message}
    (h : ∀ x ∈ rows, messageClash m x = false) : ∀ x ∈ rows, x.id ≠ m.id := by
  intro x hx he
  have hc := h x hx
  simp [messageClash, he] at hc

theorem envelopeClash_device (a b : MessageEnvelope)
    (h : (a.messageId, a.recipientDeviceId) = (b.messageId, b.recipientDeviceId)) :
    envelopeClash b a = true := by
  obtain ⟨hm, hd⟩ := Prod.mk.inj h
  simp [envelopeClash, hm, hd]

/-- Insert a message with its nested envelopes. The sending device is a foreign key that
nothing else guarantees; the other references of the row have been read before. -/
def createMessage (m : Message) (envelopes : List MessageEnvelope) (db : Db) : Except Err Db :=
  if db.messages.any (messageClash m) then .error .uniqueConstraint
  else if !db.devices.any (·.id == m.senderDeviceId) then
    .error (.failure "Foreign key constraint violated")
  else
    match Rows.insertAll envelopeClash envelopes db.messageEnvelopes with
    | none => .error .uniqueConstraint
    | some rows => .ok { db with messages := db.messages ++ [m], messageEnvelopes := rows }

/-- The envelope rows of a direct message: addressed to the recipient on the recipient's
devices, to the sender on the others. -/
def directEnvelopes (ctx : Ctx) (senderUserId recipientUserId : Id) (recipientDeviceIds : List Id)
    (envelopes : List MessageEnvelopeDto) : List MessageEnvelope :=
  envelopes.zipIdx.map fun (e, i) =>
    { id := ctx.envelopeId i, messageId := ctx.messageId
      recipientUserId :=
        if recipientDeviceIds.contains e.recipientDeviceId then recipientUserId else senderUserId
      recipientDeviceId := e.recipientDeviceId, ciphertext := e.ciphertext
      createdAt := ctx.now, updatedAt := ctx.now }

/-- The transaction of `send`. -/
def sendTx (ctx : Ctx) (senderUserId : Id) (dto : SendMessageDto) (db : Db) :
    Except Err (Serialized × Db) := do
  ctx.exec .devices
  let recipientDeviceIds ←
    routeDevices senderUserId dto.senderDeviceId dto.recipientUserId dto.envelopes db
  let pair := canonicalDirectPair senderUserId dto.recipientUserId
  ctx.exec .threadUpsert
  let (thread, db) ← upsertThread ctx.threadId pair.1 pair.2 db
  ctx.exec .threadUpdate
  let (sequencedThread, db) ← incrementSequence thread.id db
  ctx.exec .replyTarget
  let replyToMessageId ← checkReply (·.threadId == some thread.id)
    "Reply target is not in the same thread" dto.replyToMessageId db
  ctx.exec .attachments
  assertAttachmentsOwned ctx.maxAttachments senderUserId dto.mediaIds db
  ctx.exec .messageCreate
  let message : Message :=
    { id := ctx.messageId, threadId := some thread.id, senderUserId
      senderDeviceId := dto.senderDeviceId, idempotencyKey := dto.idempotencyKey
      threadSequence := sequencedThread.latestSequence
      contentType := dto.contentType.getD .text, replyToMessageId, createdAt := ctx.now }
  let db ← createMessage message (directEnvelopes ctx senderUserId dto.recipientUserId
    recipientDeviceIds dto.envelopes) db
  let created := serializeMessage message db
  ctx.exec .media
  let db := bindMedia senderUserId dto.mediaIds message.id db
  ctx.exec .commit
  pure (created, db)

/-- The transaction of `forwardToDirect`. -/
def forwardTx (ctx : Ctx) (senderUserId senderDeviceId : Id) (idempotencyKey : String)
    (recipientUserId : Id) (envelopes : List MessageEnvelopeDto) (sourceMedia : List MessageMedia)
    (contentType : MessageContentType) (db : Db) : Except Err (Serialized × Db) := do
  ctx.exec .devices
  let recipientDeviceIds ← routeDevices senderUserId senderDeviceId recipientUserId envelopes db
  let pair := canonicalDirectPair senderUserId recipientUserId
  ctx.exec .threadUpsert
  let (thread, db) ← upsertThread ctx.threadId pair.1 pair.2 db
  ctx.exec .threadUpdate
  let (sequencedThread, db) ← incrementSequence thread.id db
  ctx.exec .messageCreate
  let message : Message :=
    { id := ctx.messageId, threadId := some thread.id, senderUserId, senderDeviceId
      idempotencyKey, threadSequence := sequencedThread.latestSequence, forwarded := true
      contentType, createdAt := ctx.now }
  let db ← createMessage message (directEnvelopes ctx senderUserId recipientUserId
    recipientDeviceIds envelopes) db
  let created := serializeMessage message db
  ctx.exec .media
  let db ← cloneMediaForForward ctx.now ctx.mediaId senderUserId message.id sourceMedia db
  ctx.exec .commit
  pure (created, db)

/-- A request that returned, and whether it created the message it returns. -/
structure Sent where
  response : Serialized
  created : Bool
  deriving DecidableEq

/-- The frame of `send` and `forwardToDirect` around their transaction: an earlier
message under the same key is returned, also when the transaction lost a race for it. -/
def idempotently (senderDeviceId : Id) (idempotencyKey : String)
    (tx : Db → Except Err (Serialized × Db)) (db : Db) : Except Err Sent × Db :=
  match findByKey senderDeviceId idempotencyKey db with
  | some existing => (.ok ⟨serializeMessage existing db, false⟩, db)
  | none =>
      match atomically tx db with
      | (.ok created, db) => (.ok ⟨created, true⟩, db)
      | (.error .uniqueConstraint, db) =>
          match findByKey senderDeviceId idempotencyKey db with
          | some duplicate => (.ok ⟨serializeMessage duplicate db, false⟩, db)
          | none => (.error .uniqueConstraint, db)
      | (.error e, db) => (.error e, db)

/-- `MessagesService.send`. -/
def send (ctx : Ctx) (senderUserId : Id) (dto : SendMessageDto) (db : Db) : Except Err Sent × Db :=
  idempotently dto.senderDeviceId dto.idempotencyKey (sendTx ctx senderUserId dto) db

/-- The arguments of `forwardToDirect`. -/
structure Forward where
  senderUserId : Id
  senderDeviceId : Id
  idempotencyKey : String
  recipientUserId : Id
  envelopes : List MessageEnvelopeDto
  sourceMedia : List MessageMedia
  contentType : MessageContentType

def Forward.tx (ctx : Ctx) (f : Forward) (db : Db) : Except Err (Serialized × Db) :=
  forwardTx ctx f.senderUserId f.senderDeviceId f.idempotencyKey f.recipientUserId f.envelopes
    f.sourceMedia f.contentType db

/-- `MessagesService.forwardToDirect`. -/
def forwardToDirect (ctx : Ctx) (f : Forward) (db : Db) : Except Err Sent × Db :=
  idempotently f.senderDeviceId f.idempotencyKey (f.tx ctx) db

/-- The idempotent frame creates a message by its transaction or leaves the store alone. -/
theorem idempotently_cases (senderDeviceId : Id) (idempotencyKey : String)
    (tx : Db → Except Err (Serialized × Db)) (db : Db) :
    (∃ r db', tx db = .ok (r, db') ∧
      idempotently senderDeviceId idempotencyKey tx db = (.ok ⟨r, true⟩, db')) ∨
    ((idempotently senderDeviceId idempotencyKey tx db).2 = db ∧
      ∀ r, (idempotently senderDeviceId idempotencyKey tx db).1 ≠ .ok ⟨r, true⟩) := by
  unfold idempotently atomically
  cases hf : findByKey senderDeviceId idempotencyKey db with
  | some existing => exact Or.inr ⟨rfl, fun r he => by cases he⟩
  | none =>
      cases tx db with
      | ok p => exact Or.inl ⟨p.1, p.2, rfl, rfl⟩
      | error e =>
          right
          cases e <;> simp [hf]

/-- The idempotent frame writes nothing of its own. -/
theorem idempotently_invariant {senderDeviceId : Id} {idempotencyKey : String}
    {tx : Db → Except Err (Serialized × Db)} {I : Db → Prop} {db : Db}
    (h : ∀ r db', tx db = .ok (r, db') → I db → I db') (hs : I db) :
    I (idempotently senderDeviceId idempotencyKey tx db).2 := by
  rcases idempotently_cases senderDeviceId idempotencyKey tx db with ⟨r, db', htx, he⟩ | ⟨he, _⟩
  · rw [he]
    exact h r db' htx hs
  · rw [he]
    exact hs

/-- The upsert returns the stored thread of the pair, or stores a new one. -/
theorem upsertThread_ok {threadId userAId userBId : Id} {db db' : Db} {t : DirectThread}
    (h : upsertThread threadId userAId userBId db = .ok (t, db')) :
    (t ∈ db.directThreads ∧ t.userAId = userAId ∧ t.userBId = userBId ∧ db' = db) ∨
    ((∀ x ∈ db.directThreads, (x.userAId, x.userBId) ≠ (userAId, userBId)) ∧
      (∀ x ∈ db.directThreads, x.id ≠ threadId) ∧
      t = { id := threadId, userAId, userBId } ∧
      db' = { db with directThreads := db.directThreads ++ [t] }) := by
  unfold upsertThread at h
  split at h
  · rename_i thread hf
    obtain ⟨rfl, rfl⟩ := Prod.mk.inj (Except.ok.inj h)
    have hp := List.find?_some hf
    simp only [Bool.and_eq_true, beq_iff_eq] at hp
    exact Or.inl ⟨List.mem_of_find?_eq_some hf, hp.1, hp.2, rfl⟩
  · rename_i hf
    split at h
    · cases h
    · rename_i hid
      obtain ⟨rfl, rfl⟩ := Prod.mk.inj (Except.ok.inj h)
      refine Or.inr ⟨?_, ?_, rfl, rfl⟩
      · intro x hx he
        obtain ⟨ha, hb⟩ := Prod.mk.inj he
        have hn := List.find?_eq_none.mp hf x hx
        simp [ha, hb] at hn
      · intro x hx he
        exact hid (List.any_eq_true.mpr ⟨x, hx, by simp [he]⟩)

theorem incrementSequence_ok {id : Id} {db db' : Db} {t : DirectThread}
    (h : incrementSequence id db = .ok (t, db')) :
    (∃ x ∈ db.directThreads, x.id = id ∧ t = bump x) ∧
    db' = { db with directThreads := Rows.updateMany (·.id == id) bump db.directThreads } := by
  unfold incrementSequence at h
  simp only at h
  split at h
  · cases h
  · rename_i thread hf
    obtain ⟨rfl, rfl⟩ := Prod.mk.inj (Except.ok.inj h)
    refine ⟨?_, rfl⟩
    rw [Rows.find?_updateMany (f := bump) (fun _ => rfl), Option.map_eq_some_iff] at hf
    obtain ⟨x, hx, rfl⟩ := hf
    have hk : x.id = id := by simpa using List.find?_some hx
    refine ⟨x, List.mem_of_find?_eq_some hx, hk, ?_⟩
    rw [if_pos (by simpa using hk)]

theorem createMessage_ok {m : Message} {envelopes : List MessageEnvelope} {db db' : Db}
    (h : createMessage m envelopes db = .ok db') :
    (∀ x ∈ db.messages, messageClash m x = false) ∧
    Rows.insertAll envelopeClash envelopes db.messageEnvelopes =
      some (db.messageEnvelopes ++ envelopes) ∧
    db' = { db with
      messages := db.messages ++ [m], messageEnvelopes := db.messageEnvelopes ++ envelopes } := by
  unfold createMessage at h
  split at h
  · cases h
  · rename_i hc
    split at h
    · cases h
    · split at h
      · cases h
      · rename_i rows hr
        have he := Rows.insertAll_eq hr
        subst he
        obtain rfl := Except.ok.inj h
        refine ⟨?_, hr, rfl⟩
        intro x hx
        cases hm : messageClash m x with
        | false => rfl
        | true => exact absurd (List.any_eq_true.mpr ⟨x, hx, hm⟩) hc

theorem messageClash_false {m r : Message} : messageClash m r = false ↔
    m.id ≠ r.id ∧
    (m.senderDeviceId, m.idempotencyKey) ≠ (r.senderDeviceId, r.idempotencyKey) ∧
    (∀ id, m.threadId = some id → r.threadId = some id → m.threadSequence ≠ r.threadSequence) ∧
    ∀ id, m.groupId = some id → r.groupId = some id → m.threadSequence ≠ r.threadSequence := by
  have hindex : ∀ a b : Option Id, ((a.isSome && a == b) && m.threadSequence == r.threadSequence) =
      false ↔ ∀ id, a = some id → b = some id → m.threadSequence ≠ r.threadSequence := by
    intro a b
    cases a with
    | none => simp
    | some id =>
        rw [Bool.eq_false_iff, ne_eq]
        simp only [Option.isSome_some, Bool.true_and, Bool.and_eq_true, beq_iff_eq, not_and]
        constructor
        · intro h id' hid hb
          exact h (hid.trans hb.symm)
        · intro h hb
          exact h id rfl hb.symm
  unfold messageClash
  rw [Bool.or_eq_false_iff, Bool.or_eq_false_iff, Bool.or_eq_false_iff, hindex, hindex,
    beq_eq_false_iff_ne, and_assoc, and_assoc]
  refine and_congr_right fun _ => and_congr_left fun _ => ?_
  rw [Bool.eq_false_iff, ne_eq, ne_eq, Bool.and_eq_true, beq_iff_eq, beq_iff_eq, Prod.mk.injEq]

/-- What lets an insert through. -/
theorem createMessage_iff {m : Message} {envelopes : List MessageEnvelope} {db : Db} :
    (∃ db', createMessage m envelopes db = .ok db') ↔
      (∀ r ∈ db.messages, messageClash m r = false) ∧
      db.devices.any (·.id == m.senderDeviceId) = true ∧
      ∃ rows, Rows.insertAll envelopeClash envelopes db.messageEnvelopes = some rows := by
  unfold createMessage
  constructor
  · rintro ⟨db', h⟩
    split at h
    · cases h
    · rename_i hclash
      split at h
      · cases h
      · rename_i hdevice
        refine ⟨fun r hr => ?_, by simpa using hdevice, ?_⟩
        · exact Bool.eq_false_iff.mpr fun hc => hclash (List.any_eq_true.mpr ⟨r, hr, hc⟩)
        · split at h
          · cases h
          · rename_i rows hrows
            exact ⟨rows, hrows⟩
  · rintro ⟨hclash, hdevice, rows, hrows⟩
    rw [if_neg, if_neg (by simp [hdevice]), hrows]
    · exact ⟨_, rfl⟩
    · intro hany
      obtain ⟨r, hr, hc⟩ := List.any_eq_true.mp hany
      rw [hclash r hr] at hc
      cases hc

/-- What a committed message transaction did: `thread` is the row of the pair after the
upsert, and the message carries the number its counter was moved to. -/
def Posted (threadId : Id) (pair : Id × Id) (m : Message) (envelopes : List MessageEnvelope)
    (db db' : Db) : Prop :=
  ∃ thread x db₁ media,
    upsertThread threadId pair.1 pair.2 db = .ok (thread, db₁) ∧
    x ∈ db₁.directThreads ∧ x.id = thread.id ∧
    m.threadId = some thread.id ∧ m.groupId = none ∧ m.threadSequence = (bump x).latestSequence ∧
    (∀ y ∈ db.messages, messageClash m y = false) ∧
    Rows.insertAll envelopeClash envelopes db.messageEnvelopes =
      some (db.messageEnvelopes ++ envelopes) ∧
    db' = { db with
      directThreads := Rows.updateMany (·.id == thread.id) bump db₁.directThreads
      messages := db.messages ++ [m]
      messageEnvelopes := db.messageEnvelopes ++ envelopes
      messageMedia := media }

/-- A posted message is appended, and belongs to a thread and no group. -/
theorem Posted.messages {threadId : Id} {pair : Id × Id} {m : Message}
    {envelopes : List MessageEnvelope} {db db' : Db} (h : Posted threadId pair m envelopes db db') :
    (∀ x ∈ db.messages, messageClash m x = false) ∧ db'.messages = db.messages ++ [m] ∧
      m.threadId.isSome ∧ m.groupId = none := by
  obtain ⟨thread, _, _, _, _, _, _, hthread, hgroup, _, hclash, _, rfl⟩ := h
  refine ⟨hclash, rfl, ?_, hgroup⟩
  rw [hthread]
  rfl

/-- Its envelopes are appended under the unique index. -/
theorem Posted.envelopes {threadId : Id} {pair : Id × Id} {m : Message}
    {envelopes : List MessageEnvelope} {db db' : Db} (h : Posted threadId pair m envelopes db db') :
    db'.messageEnvelopes = db.messageEnvelopes ++ envelopes ∧
      Rows.insertAll envelopeClash envelopes db.messageEnvelopes = some db'.messageEnvelopes := by
  obtain ⟨_, _, _, _, _, _, _, _, _, _, _, hrows, rfl⟩ := h
  exact ⟨rfl, hrows⟩

/-- The upsert touches the thread table only. -/
theorem upsertThread_frame {threadId userAId userBId : Id} {db db' : Db} {t : DirectThread}
    (h : upsertThread threadId userAId userBId db = .ok (t, db')) :
    db' = { db with directThreads := db'.directThreads } := by
  obtain ⟨_, _, _, rfl⟩ | ⟨_, _, _, rfl⟩ := upsertThread_ok h <;> rfl

/-- The tail both transactions share, from the upsert to the insert. -/
theorem posted_of_steps {threadId : Id} {pair : Id × Id} {m : Message}
    {envelopes : List MessageEnvelope} {thread sequenced : DirectThread}
    {db db₁ db₂ db₃ db' : Db} {media : List MessageMedia}
    (hu : upsertThread threadId pair.1 pair.2 db = .ok (thread, db₁))
    (hi : incrementSequence thread.id db₁ = .ok (sequenced, db₂))
    (hc : createMessage m envelopes db₂ = .ok db₃)
    (ht : m.threadId = some thread.id) (hg : m.groupId = none)
    (hs : m.threadSequence = sequenced.latestSequence)
    (hd : db' = { db₃ with messageMedia := media }) :
    Posted threadId pair m envelopes db db' := by
  obtain ⟨⟨x, hx, hid, rfl⟩, rfl⟩ := incrementSequence_ok hi
  obtain ⟨hclash, hrows, rfl⟩ := createMessage_ok hc
  have hf := upsertThread_frame hu
  refine ⟨thread, x, db₁, media, hu, hx, hid, ht, hg, hs, ?_, ?_, ?_⟩
  · rw [hf] at hclash
    exact hclash
  · rw [hf] at hrows
    exact hrows
  · rw [hd, hf]

/-- A checked reply target is stored, in the conversation, and no reply itself. -/
theorem checkReply_ok {inConversation : Message → Bool} {elsewhere : String}
    {replyToMessageId replyTo : Option Id} {db : Db}
    (h : checkReply inConversation elsewhere replyToMessageId db = .ok replyTo) :
    ∀ id, replyTo = some id →
      ∃ p ∈ db.messages, p.id = id ∧ inConversation p = true ∧ p.replyToMessageId = none := by
  intro id hid
  subst hid
  unfold checkReply at h
  split at h
  · cases h
  · split at h
    · cases h
    · rename_i target hf
      split at h
      · cases h
      · rename_i hin
        split at h
        · cases h
        · rename_i htop
          obtain rfl := Option.some.inj (Except.ok.inj h)
          refine ⟨target, List.mem_of_find?_eq_some hf, rfl, ?_, ?_⟩
          · simpa using hin
          · simpa using htop

/-- The columns of a posted message that come from its request, with a reply target that was
looked up in the thread. -/
structure WrittenFrom (messageId senderUserId senderDeviceId : Id) (idempotencyKey : String)
    (db : Db) (m : Message) : Prop where
  id : m.id = messageId
  sender : m.senderUserId = senderUserId
  device : m.senderDeviceId = senderDeviceId
  key : m.idempotencyKey = idempotencyKey
  reply : ∀ id, m.replyToMessageId = some id →
    ∃ p ∈ db.messages, p.id = id ∧ p.threadId = m.threadId ∧ p.replyToMessageId = none

/-- The row that `sendTx` creates. -/
def sentMessage (ctx : Ctx) (senderUserId : Id) (dto : SendMessageDto) (thread sequenced : DirectThread)
    (replyTo : Option Id) : Message :=
  { id := ctx.messageId, threadId := some thread.id, senderUserId
    senderDeviceId := dto.senderDeviceId, idempotencyKey := dto.idempotencyKey
    threadSequence := sequenced.latestSequence, contentType := dto.contentType.getD .text
    replyToMessageId := replyTo, createdAt := ctx.now }

/-- The statements of a committed `sendTx`, one after another. -/
theorem sendTx_cases {ctx : Ctx} {senderUserId : Id} {dto : SendMessageDto} {db db' : Db}
    {r : Serialized} (h : sendTx ctx senderUserId dto db = .ok (r, db')) :
    ∃ ids thread db₁ sequenced db₂ replyTo db₃,
      routeDevices senderUserId dto.senderDeviceId dto.recipientUserId dto.envelopes db = .ok ids ∧
      upsertThread ctx.threadId (canonicalDirectPair senderUserId dto.recipientUserId).1
        (canonicalDirectPair senderUserId dto.recipientUserId).2 db = .ok (thread, db₁) ∧
      incrementSequence thread.id db₁ = .ok (sequenced, db₂) ∧
      checkReply (·.threadId == some thread.id) "Reply target is not in the same thread"
        dto.replyToMessageId db₂ = .ok replyTo ∧
      assertAttachmentsOwned ctx.maxAttachments senderUserId dto.mediaIds db₂ = .ok () ∧
      createMessage (sentMessage ctx senderUserId dto thread sequenced replyTo)
        (directEnvelopes ctx senderUserId dto.recipientUserId ids dto.envelopes) db₂ = .ok db₃ ∧
      r = serializeMessage (sentMessage ctx senderUserId dto thread sequenced replyTo) db₃ ∧
      db' = bindMedia senderUserId dto.mediaIds ctx.messageId db₃ := by
  unfold sendTx at h
  obtain ⟨_, _, h⟩ := bind_ok.mp h
  obtain ⟨ids, hr, h⟩ := bind_ok.mp h
  obtain ⟨_, _, h⟩ := bind_ok.mp h
  obtain ⟨⟨thread, db₁⟩, hu, h⟩ := bind_ok.mp h
  obtain ⟨_, _, h⟩ := bind_ok.mp h
  obtain ⟨⟨sequenced, db₂⟩, hi, h⟩ := bind_ok.mp h
  obtain ⟨_, _, h⟩ := bind_ok.mp h
  obtain ⟨replyTo, hreply, h⟩ := bind_ok.mp h
  obtain ⟨_, _, h⟩ := bind_ok.mp h
  obtain ⟨_, hown, h⟩ := bind_ok.mp h
  obtain ⟨_, _, h⟩ := bind_ok.mp h
  obtain ⟨db₃, hc, h⟩ := bind_ok.mp h
  obtain ⟨_, _, h⟩ := bind_ok.mp h
  obtain ⟨_, _, h⟩ := bind_ok.mp h
  obtain ⟨rfl, rfl⟩ := Prod.mk.inj (Except.ok.inj h)
  exact ⟨ids, thread, db₁, sequenced, db₂, replyTo, db₃, hr, hu, hi, hreply, hown, hc, rfl, rfl⟩

theorem sendTx_ok {ctx : Ctx} {senderUserId : Id} {dto : SendMessageDto} {db db' : Db}
    {r : Serialized} (h : sendTx ctx senderUserId dto db = .ok (r, db')) :
    ∃ recipientDeviceIds,
      routeDevices senderUserId dto.senderDeviceId dto.recipientUserId dto.envelopes db =
        .ok recipientDeviceIds ∧
      WrittenFrom ctx.messageId senderUserId dto.senderDeviceId dto.idempotencyKey db r.message ∧
      Posted ctx.threadId (canonicalDirectPair senderUserId dto.recipientUserId) r.message
        (directEnvelopes ctx senderUserId dto.recipientUserId recipientDeviceIds dto.envelopes)
        db db' := by
  obtain ⟨recipientDeviceIds, thread, db₁, sequenced, db₂, replyTo, db₃, hr, hu, hi, hreply, _, hc,
    rfl, rfl⟩ := sendTx_cases h
  refine ⟨recipientDeviceIds, hr, ⟨rfl, rfl, rfl, rfl, ?_⟩,
    posted_of_steps hu hi hc rfl rfl rfl rfl⟩
  intro id hid
  obtain ⟨p, hp, hpid, hthread, htop⟩ := checkReply_ok hreply id hid
  refine ⟨p, ?_, hpid, beq_iff_eq.mp hthread, htop⟩
  -- the thread statements before the look-up leave the messages alone
  obtain ⟨_, rfl⟩ := incrementSequence_ok hi
  rw [upsertThread_frame hu] at hp
  exact hp

theorem cloneMediaForForward_ok {now : Time} {mediaId : Nat → Id} {userId messageId : Id}
    {source : List MessageMedia} {db db' : Db}
    (h : cloneMediaForForward now mediaId userId messageId source db = .ok db') :
    db' = { db with messageMedia := db'.messageMedia } := by
  unfold cloneMediaForForward at h
  simp only at h
  split at h
  · cases h
  · obtain rfl := Except.ok.inj h
    rfl

/-- The copies carry the keys of their sources to the new message. -/
def CopiesOf (messageId : Id) (source copies : List MessageMedia) : Prop :=
  ∀ c ∈ copies, c.messageId = some messageId ∧
    ∃ x ∈ source, c.bucketKey = x.bucketKey ∧ c.thumbnailBucketKey = x.thumbnailBucketKey

theorem cloneMediaForForward_rows {now : Time} {mediaId : Nat → Id} {userId messageId : Id}
    {source : List MessageMedia} {db db' : Db}
    (h : cloneMediaForForward now mediaId userId messageId source db = .ok db') :
    ∃ copies, db'.messageMedia = db.messageMedia ++ copies ∧ CopiesOf messageId source copies := by
  unfold cloneMediaForForward at h
  simp only at h
  split at h
  · cases h
  · rename_i rows hrows
    obtain rfl := Except.ok.inj h
    refine ⟨_, Rows.insertAll_eq hrows, ?_⟩
    intro c hc
    obtain ⟨⟨x, i⟩, hx, rfl⟩ := List.mem_map.mp hc
    exact ⟨rfl, x, List.fst_mem_of_mem_zipIdx hx, rfl, rfl⟩

/-- The row that `forwardTx` creates. -/
def forwardedMessage (ctx : Ctx) (senderUserId senderDeviceId : Id) (idempotencyKey : String)
    (contentType : MessageContentType) (thread sequenced : DirectThread) : Message :=
  { id := ctx.messageId, threadId := some thread.id, senderUserId, senderDeviceId
    idempotencyKey, threadSequence := sequenced.latestSequence, forwarded := true
    contentType, createdAt := ctx.now }

/-- The statements of a committed `forwardTx`, one after another. -/
theorem forwardTx_cases {ctx : Ctx} {senderUserId senderDeviceId recipientUserId : Id}
    {idempotencyKey : String} {envelopes : List MessageEnvelopeDto} {source : List MessageMedia}
    {contentType : MessageContentType} {db db' : Db} {r : Serialized}
    (h : forwardTx ctx senderUserId senderDeviceId idempotencyKey recipientUserId envelopes source
      contentType db = .ok (r, db')) :
    ∃ ids thread db₁ sequenced db₂ db₃,
      routeDevices senderUserId senderDeviceId recipientUserId envelopes db = .ok ids ∧
      upsertThread ctx.threadId (canonicalDirectPair senderUserId recipientUserId).1
        (canonicalDirectPair senderUserId recipientUserId).2 db = .ok (thread, db₁) ∧
      incrementSequence thread.id db₁ = .ok (sequenced, db₂) ∧
      createMessage (forwardedMessage ctx senderUserId senderDeviceId idempotencyKey contentType
        thread sequenced)
        (directEnvelopes ctx senderUserId recipientUserId ids envelopes) db₂ = .ok db₃ ∧
      r = serializeMessage (forwardedMessage ctx senderUserId senderDeviceId idempotencyKey
        contentType thread sequenced) db₃ ∧
      cloneMediaForForward ctx.now ctx.mediaId senderUserId ctx.messageId source db₃ = .ok db' := by
  unfold forwardTx at h
  obtain ⟨_, _, h⟩ := bind_ok.mp h
  obtain ⟨ids, hr, h⟩ := bind_ok.mp h
  obtain ⟨_, _, h⟩ := bind_ok.mp h
  obtain ⟨⟨thread, db₁⟩, hu, h⟩ := bind_ok.mp h
  obtain ⟨_, _, h⟩ := bind_ok.mp h
  obtain ⟨⟨sequenced, db₂⟩, hi, h⟩ := bind_ok.mp h
  obtain ⟨_, _, h⟩ := bind_ok.mp h
  obtain ⟨db₃, hc, h⟩ := bind_ok.mp h
  obtain ⟨_, _, h⟩ := bind_ok.mp h
  obtain ⟨db₄, hm, h⟩ := bind_ok.mp h
  obtain ⟨_, _, h⟩ := bind_ok.mp h
  obtain ⟨rfl, rfl⟩ := Prod.mk.inj (Except.ok.inj h)
  exact ⟨ids, thread, db₁, sequenced, db₂, db₃, hr, hu, hi, hc, rfl, hm⟩

theorem forwardTx_ok {ctx : Ctx} {senderUserId senderDeviceId recipientUserId : Id}
    {idempotencyKey : String} {envelopes : List MessageEnvelopeDto} {source : List MessageMedia}
    {contentType : MessageContentType} {db db' : Db} {r : Serialized}
    (h : forwardTx ctx senderUserId senderDeviceId idempotencyKey recipientUserId envelopes source
      contentType db = .ok (r, db')) :
    ∃ recipientDeviceIds,
      routeDevices senderUserId senderDeviceId recipientUserId envelopes db =
        .ok recipientDeviceIds ∧
      WrittenFrom ctx.messageId senderUserId senderDeviceId idempotencyKey db r.message ∧
      Posted ctx.threadId (canonicalDirectPair senderUserId recipientUserId) r.message
        (directEnvelopes ctx senderUserId recipientUserId recipientDeviceIds envelopes) db db' := by
  obtain ⟨recipientDeviceIds, thread, db₁, sequenced, db₂, db₃, hr, hu, hi, hc, rfl, hm⟩ :=
    forwardTx_cases h
  refine ⟨recipientDeviceIds, hr, ⟨rfl, rfl, rfl, rfl, ?_⟩,
    posted_of_steps hu hi hc rfl rfl rfl (cloneMediaForForward_ok hm)⟩
  intro id hid
  cases hid

/-- The statements before the attachment statement leave the attachments alone. -/
theorem createMessage_media {threadId userAId userBId : Id} {thread sequenced : DirectThread}
    {m : Message} {envelopes : List MessageEnvelope} {db db₁ db₂ db₃ : Db}
    (hu : upsertThread threadId userAId userBId db = .ok (thread, db₁))
    (hi : incrementSequence thread.id db₁ = .ok (sequenced, db₂))
    (hc : createMessage m envelopes db₂ = .ok db₃) : db₃.messageMedia = db.messageMedia := by
  obtain ⟨_, rfl⟩ := incrementSequence_ok hi
  obtain ⟨_, _, rfl⟩ := createMessage_ok hc
  rw [upsertThread_frame hu]

/-- A sent message is not deleted, and takes the attachments of the request that are still
unbound. -/
theorem sendTx_media {ctx : Ctx} {senderUserId : Id} {dto : SendMessageDto} {db db' : Db}
    {r : Serialized} (h : sendTx ctx senderUserId dto db = .ok (r, db')) :
    r.message.deletedAt = none ∧
      db'.messageMedia = (bindMedia senderUserId dto.mediaIds r.message.id db).messageMedia := by
  obtain ⟨recipientDeviceIds, thread, db₁, sequenced, db₂, replyTo, db₃, hr, hu, hi, hreply, _, hc,
    rfl, rfl⟩ := sendTx_cases h
  refine ⟨rfl, ?_⟩
  have hm := createMessage_media hu hi hc
  simp only [bindMedia, hm]
  rfl

/-- A forwarded message is not deleted, and gets copies of the attachments of its source. -/
theorem forwardTx_media {ctx : Ctx} {senderUserId senderDeviceId recipientUserId : Id}
    {idempotencyKey : String} {envelopes : List MessageEnvelopeDto} {source : List MessageMedia}
    {contentType : MessageContentType} {db db' : Db} {r : Serialized}
    (h : forwardTx ctx senderUserId senderDeviceId idempotencyKey recipientUserId envelopes source
      contentType db = .ok (r, db')) :
    r.message.deletedAt = none ∧
      ∃ copies, db'.messageMedia = db.messageMedia ++ copies ∧
        CopiesOf r.message.id source copies := by
  obtain ⟨recipientDeviceIds, thread, db₁, sequenced, db₂, db₃, hr, hu, hi, hc, rfl, hm⟩ :=
    forwardTx_cases h
  have hsame := createMessage_media hu hi hc
  obtain ⟨copies, hrows, hcopies⟩ := cloneMediaForForward_rows hm
  rw [hsame] at hrows
  exact ⟨rfl, copies, hrows, hcopies⟩

/-- What the device checks establish: the sender's own active device, another user as the
recipient, and envelopes for devices of the recipient or other devices of the sender. -/
theorem routeDevices_ok {senderUserId senderDeviceId recipientUserId : Id}
    {envelopes : List MessageEnvelopeDto} {db : Db} {ids : List Id}
    (h : routeDevices senderUserId senderDeviceId recipientUserId envelopes db = .ok ids) :
    (∃ d ∈ db.devices, d.id = senderDeviceId ∧ d.userId = senderUserId ∧ d.active = true) ∧
    senderUserId ≠ recipientUserId ∧
    (∀ id ∈ ids, ∃ d ∈ db.devices, d.id = id ∧ d.userId = recipientUserId) ∧
    ∀ e ∈ envelopes, e.recipientDeviceId ∈ ids ∨
      ∃ d ∈ db.devices, d.id = e.recipientDeviceId ∧ d.userId = senderUserId ∧ d.id ≠ senderDeviceId := by
  unfold routeDevices at h
  obtain ⟨_, hsender, h⟩ := bind_ok.mp h
  obtain ⟨_, hne, h⟩ := bind_ok.mp h
  obtain ⟨_, _, h⟩ := bind_ok.mp h
  obtain ⟨_, _, h⟩ := bind_ok.mp h
  obtain ⟨_, hall, h⟩ := bind_ok.mp h
  obtain rfl := Except.ok.inj h
  refine ⟨?_, by simpa using ensure_ok.mp hne, ?_, ?_⟩
  · obtain ⟨d, hd, hown⟩ := (Option.any_eq_true _ _).mp (ensure_ok.mp hsender)
    have hid := List.find?_some hd
    obtain ⟨hmem, hsel⟩ := List.mem_filter.mp (List.mem_of_find?_eq_some hd)
    simp only [Bool.and_eq_true] at hsel
    exact ⟨d, hmem, beq_iff_eq.mp hid, beq_iff_eq.mp hown, hsel.1⟩
  · intro id hid
    obtain ⟨d, hd, rfl⟩ := List.mem_map.mp hid
    obtain ⟨hd, hown⟩ := List.mem_filter.mp hd
    exact ⟨d, (List.mem_filter.mp hd).1, rfl, beq_iff_eq.mp hown⟩
  · intro e he
    have hin := List.all_eq_true.mp (ensure_ok.mp hall) e he
    rw [List.contains_iff_mem, List.mem_append] at hin
    rcases hin with hin | hin
    · exact Or.inl hin
    · obtain ⟨d, hd, hid⟩ := List.mem_map.mp hin
      obtain ⟨hd, hsync⟩ := List.mem_filter.mp hd
      simp only [Bool.and_eq_true, beq_iff_eq, bne_iff_ne] at hsync
      exact Or.inr ⟨d, (List.mem_filter.mp hd).1, hid, hsync.1, hsync.2⟩

/-- A message is never addressed to its own sender. -/
theorem routeDevices_ne {senderUserId senderDeviceId recipientUserId : Id}
    {envelopes : List MessageEnvelopeDto} {db : Db} {ids : List Id}
    (h : routeDevices senderUserId senderDeviceId recipientUserId envelopes db = .ok ids) :
    senderUserId ≠ recipientUserId :=
  (routeDevices_ok h).2.1

/-- Two different users are stored in ascending order. -/
theorem canonicalDirectPair_lt {a b : Id} (h : a ≠ b) :
    (canonicalDirectPair a b).1 < (canonicalDirectPair a b).2 := by
  unfold canonicalDirectPair
  rw [if_neg h]
  split
  · assumption
  · rename_i hlt
    exact lt_of_le_of_ne (not_lt.mp hlt) (Ne.symm h)

end Birgap.Messages
