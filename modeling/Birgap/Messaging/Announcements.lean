import Birgap.Messaging.ForwardTargets
import Birgap.Messaging.Idempotency
import Birgap.Lib.Paging

/-!
# What is announced of a new message

The four ways a message is posted, each with the `message.created` event it leads to, and the
attachments that event lists. `send` and `forwardToDirect` serialize the row before its
attachments are bound or copied; a fan-out asks for the attachments its job names, which for a
forward are those of the source.
-/
namespace Birgap.Messaging.Announcements

set_option autoImplicit false

open Birgap.Lib Birgap.Lib.Tx Birgap.Lib.Run Birgap.Lib.Paging Birgap.Messages Birgap.Groups

/-! ## The event of a fan-out -/

/-- An envelope as the event of a fan-out shows it. -/
structure FannedOutEnvelope where
  messageId : Id
  recipientUserId : Id
  recipientDeviceId : Id
  ciphertext : Ciphertext
  status : EnvelopeStatus
  deliveredAt : Option Time
  readAt : Option Time
  createdAt : Time
  deriving DecidableEq

/-- The `message.created` event of a group message. -/
structure GroupMessageCreated where
  id : Id
  groupId : Id
  senderUserId : Id
  senderDeviceId : Id
  threadSequence : Nat
  contentType : MessageContentType
  replyToMessageId : Option Id
  forwarded : Bool
  createdAt : Time
  media : List MessageMedia
  envelopes : List FannedOutEnvelope
  deriving DecidableEq

/-- Rows in the order of their creation, as the database arranges those of equal time. -/
abbrev MediaOrder := OrderBy fun x : MessageMedia => x.createdAt

/-- What `GroupFanoutProcessor.process` emits, once its insert has gone through. -/
def fanoutEvent (order : MediaOrder) (job : GroupFanoutJobData) (db : Db) :
    Option GroupMessageCreated :=
  let devices := targetDevices job.groupId job.senderDeviceId db
  if devices.isEmpty then none
  else if !db.messages.any (·.id == job.messageId) then none
  else
    let media :=
      if job.mediaIds.isEmpty then []
      else order.arrange (db.messageMedia.filter fun x => job.mediaIds.contains x.id)
    some
      { id := job.messageId, groupId := job.groupId, senderUserId := job.senderUserId
        senderDeviceId := job.senderDeviceId, threadSequence := job.threadSequence
        contentType := job.contentType, replyToMessageId := job.replyToMessageId
        forwarded := job.forwarded, createdAt := job.createdAt, media
        envelopes := devices.map fun d =>
          { messageId := job.messageId, recipientUserId := d.userId, recipientDeviceId := d.id
            ciphertext := job.ciphertext, status := .pending, deliveredAt := none
            readAt := none, createdAt := job.createdAt } }

/-! ## Sending to a group -/

/-- The transaction of `queueGroupMessage`. -/
def queueTx (ctx : Ctx) (r : GroupRequest) (db : Db) : Except Err (Message × Db) :=
  match findByKey r.senderDeviceId r.idempotencyKey db with
  | some existing => .ok (existing, db)
  | none => do
      let sequence := nextSequence r.groupId db
      let replyToMessageId ← validatePayload ctx.maxAttachments r db
      let message := groupMessage ctx.now ctx.messageId r sequence replyToMessageId
      let db ← commitGroupMessage ctx.now ctx.mediaId message r db
      pure (message, db)

structure QueuedMessage where
  success : Bool
  messageId : Id
  queued : Bool
  deriving DecidableEq

/-- `GroupsService.queueGroupMessage`, when the queue takes the job. -/
def queueGroupMessage (ctx : Ctx) (senderUserId groupId : Id) (dto : SendGroupMessageDto)
    (s : Store) : Except Err QueuedMessage × Store :=
  let r := (GroupTask.message senderUserId groupId dto).request
  if !isMember groupId senderUserId s.db then
    (.error (.forbidden "You are not a member of this group"), s)
  else
    match findByKey dto.senderDeviceId dto.idempotencyKey s.db with
    | some existing => (.ok { success := true, messageId := existing.id, queued := false }, s)
    | none =>
        match atomically (queueTx ctx r) s.db with
        | (.error e, db) => (.error e, { s with db })
        | (.ok message, db) =>
            (.ok { success := true, messageId := message.id, queued := true },
              { db, jobs := s.jobs ++ [fanoutJob r message] })

/-! ## The four ways -/

/-- The attachments `forward` reads of the message it forwards. -/
def sourceMedia (sourceMessageId : Id) (db : Db) : List MessageMedia :=
  (db.messageMedia.filter (·.messageId == some sourceMessageId)).insertionSort
    fun a b => a.createdAt ≤ b.createdAt

inductive Post where
  | send (senderUserId : Id) (dto : SendMessageDto)
  | forwardToDirect (sourceMessageId : Id) (f : Forward)
  | queueGroupMessage (senderUserId groupId : Id) (dto : SendGroupMessageDto)
  | forwardToGroup (sourceMessageId : Id) (contentType : MessageContentType) (r : GroupRequest)

/-- The arguments of a forward, with the attachments that are stored of its source. -/
def Post.direct (sourceMessageId : Id) (f : Forward) (db : Db) : Forward :=
  { f with sourceMedia := sourceMedia sourceMessageId db }

def Post.group (sourceMessageId : Id) (contentType : MessageContentType) (r : GroupRequest)
    (db : Db) : GroupRequest :=
  { r with payload := .forward contentType (sourceMedia sourceMessageId db) }

/-- The store after a post, however it was answered. -/
def Post.store (ctx : Ctx) (s : Store) : Post → Store
  | .send senderUserId dto => { s with db := (Messages.send ctx senderUserId dto s.db).2 }
  | .forwardToDirect sourceMessageId f =>
      { s with db := (Messages.forwardToDirect ctx (Post.direct sourceMessageId f s.db) s.db).2 }
  | .queueGroupMessage senderUserId groupId dto =>
      (Announcements.queueGroupMessage ctx senderUserId groupId dto s).2
  | .forwardToGroup sourceMessageId contentType r =>
      (Messaging.forwardToGroup ctx (Post.group sourceMessageId contentType r s.db) s).2

/-- What comes of a new message: the attachments in each event about it, the answer of `send`,
and the store when the event has been sent. -/
structure Outcome where
  messageId : Id
  announced : List (List MessageMedia)
  returned : Option Serialized
  store : Store

def Announced.media : Announced → Option (List MessageMedia)
  | .messageCreated created => some created.media
  | .enqueueRecalc _ _ _ => none

/-- The clock and the ids of a fan-out. -/
structure FanoutCtx where
  now : Time
  envelopeId : Nat → Id

/-- The fan-out of the job that was added to the queue, if one was. -/
def fannedOut (fan : FanoutCtx) (order : MediaOrder) (s s' : Store) : Option Outcome :=
  match s'.jobs.drop s.jobs.length with
  | [job] =>
      some
        { messageId := job.messageId
          announced := ((fanoutEvent order job s'.db).map (·.media)).toList
          returned := none
          store := { s' with db := (fanout fan.now fan.envelopeId job s'.db).2 } }
  | _ => none

/-- The outcome of a post that stores a new message. -/
def Post.outcome (ctx : Ctx) (fan : FanoutCtx) (order : MediaOrder) (s : Store) :
    Post → Option Outcome
  | .send senderUserId dto =>
      match Messages.send ctx senderUserId dto s.db with
      | (.ok ⟨created, true⟩, db) =>
          some
            { messageId := created.message.id
              announced := (announce dto.recipientUserId (.ok ⟨created, true⟩)).filterMap
                Announced.media
              returned := some created, store := { s with db } }
      | _ => none
  | .forwardToDirect sourceMessageId f =>
      match Messages.forwardToDirect ctx (Post.direct sourceMessageId f s.db) s.db with
      | (.ok ⟨created, true⟩, db) =>
          some
            { messageId := created.message.id
              announced := (announce f.recipientUserId (.ok ⟨created, true⟩)).filterMap
                Announced.media
              returned := none, store := { s with db } }
      | _ => none
  | .queueGroupMessage senderUserId groupId dto =>
      fannedOut fan order s (Announcements.queueGroupMessage ctx senderUserId groupId dto s).2
  | .forwardToGroup sourceMessageId contentType r =>
      fannedOut fan order s
        (Messaging.forwardToGroup ctx (Post.group sourceMessageId contentType r s.db) s).2

/-! ## What may happen before a retry -/

/-- A post, the execution of a queued job, an upload, or whatever leaves the messages, the
envelopes and the attachments alone; no ack, edit or deletion. -/
inductive Act where
  | post (ctx : Ctx) (p : Post)
  | fanout (index : Nat) (fan : FanoutCtx)
  | initUpload (now : Time) (mediaId userId : Id) (presigned : PresignedUpload) (dto : InitMediaDto)
  | completeUpload (verifyObjectExists : String → Nat → Except Err Unit) (now : Time)
      (userId mediaId : Id) (dto : CompleteMediaDto)
  | elsewhere (db : Db)

def step (s : Store) : Act → Store
  | .post ctx p => p.store ctx s
  | .fanout index fan =>
      match s.jobs[index]? with
      | none => s
      | some job => { s with db := (Groups.fanout fan.now fan.envelopeId job s.db).2 }
  | .initUpload now mediaId userId presigned dto =>
      match Messages.initUpload now mediaId userId presigned dto s.db with
      | .ok (_, db) => { s with db }
      | .error _ => s
  | .completeUpload verifyObjectExists now userId mediaId dto =>
      match Messages.completeUpload verifyObjectExists now userId mediaId dto s.db with
      | .ok (_, db) => { s with db }
      | .error _ => s
  | .elsewhere db =>
      if db.messages = s.db.messages ∧ db.messageEnvelopes = s.db.messageEnvelopes ∧
          db.messageMedia = s.db.messageMedia then { s with db }
      else s

/-! ## What is claimed -/

/-- The list shows the attachments bound to the message, each once, in the order of their
creation. -/
structure ShowsBound (messageId : Id) (db : Db) (media : List MessageMedia) : Prop where
  rows : media.Perm (db.messageMedia.filter (·.messageId == some messageId))
  ordered : media.Pairwise fun a b => a.createdAt ≤ b.createdAt

/-- A later `send` under the same key answers as the first call did. -/
def RetriesSame (p : Post) (o : Outcome) : Prop :=
  ∀ senderUserId dto r, p = .send senderUserId dto → o.returned = some r →
    ∀ acts ctx dto', dto'.senderDeviceId = dto.senderDeviceId →
      dto'.idempotencyKey = dto.idempotencyKey →
      (send ctx senderUserId dto' (run step o.store acts).db).1 = .ok ⟨r, false⟩

structure AsStored (p : Post) (o : Outcome) : Prop where
  announced : ∀ media ∈ o.announced, ShowsBound o.messageId o.store.db media
  returned : ∀ r, o.returned = some r → ShowsBound o.messageId o.store.db r.media
  retry : RetriesSame p o

/-- Where the event shows what is stored: a `send` or a forward without attachments, a forward
to a group nobody else has a device in, and every group message. -/
def Post.Plain (db : Db) : Post → Prop
  | .send _ dto => dto.mediaIds = []
  | .forwardToDirect sourceMessageId _ => sourceMedia sourceMessageId db = []
  | .queueGroupMessage _ _ _ => True
  | .forwardToGroup sourceMessageId _ r =>
      sourceMedia sourceMessageId db = [] ∨ targetDevices r.groupId r.senderDeviceId db = []

/-! ## What a post writes -/

/-- A new message with its envelopes and attachments, and at most a job for it. -/
structure Posts (m : Message) (s s' : Store) : Prop where
  clash : ∀ x ∈ s.db.messages, messageClash m x = false
  messages : s'.db.messages = s.db.messages ++ [m]
  envelopes : ∃ extra, s'.db.messageEnvelopes = s.db.messageEnvelopes ++ extra ∧
    ∀ e ∈ extra, e.messageId = m.id
  media : ∀ x ∈ s'.db.messageMedia, x.messageId ≠ some m.id →
    ∃ y ∈ s.db.messageMedia, y.messageId = x.messageId
  jobs : ∀ job ∈ s'.jobs, job ∈ s.jobs ∨ job.messageId = m.id

theorem bindMedia_origin {userId messageId : Id} {mediaIds : List Id} {db : Db} {x : MessageMedia}
    (hx : x ∈ (bindMedia userId mediaIds messageId db).messageMedia)
    (hne : x.messageId ≠ some messageId) : ∃ y ∈ db.messageMedia, y.messageId = x.messageId := by
  obtain ⟨y, hy, rfl⟩ := Rows.mem_updateMany.mp hx
  split at hne
  · exact absurd rfl hne
  · rename_i hp
    exact ⟨y, hy, by rw [if_neg hp]⟩

theorem copies_origin {messageId : Id} {source copies rows : List MessageMedia}
    (hcopies : CopiesOf messageId source copies) {x : MessageMedia} (hx : x ∈ rows ++ copies)
    (hne : x.messageId ≠ some messageId) : ∃ y ∈ rows, y.messageId = x.messageId := by
  rcases List.mem_append.mp hx with hold | hnew
  · exact ⟨x, hold, rfl⟩
  · exact absurd (hcopies x hnew).1 hne

theorem directEnvelopes_message {ctx : Ctx} {senderUserId recipientUserId : Id} {ids : List Id}
    {envelopes : List MessageEnvelopeDto} :
    ∀ e ∈ directEnvelopes ctx senderUserId recipientUserId ids envelopes,
      e.messageId = ctx.messageId := by
  intro e he
  obtain ⟨x, _, rfl⟩ := List.mem_map.mp he
  rfl

theorem send_posts {ctx : Ctx} {senderUserId : Id} {dto : SendMessageDto} {s : Store} {db' : Db}
    {r : Serialized} (h : sendTx ctx senderUserId dto s.db = .ok (r, db')) :
    Posts r.message s { s with db := db' } := by
  obtain ⟨ids, _, hwritten, hposted⟩ := sendTx_ok h
  obtain ⟨hclash, hmessages, _⟩ := hposted.messages
  obtain ⟨_, hmedia⟩ := sendTx_media h
  refine ⟨hclash, hmessages, ⟨_, hposted.envelopes.1, ?_⟩, ?_, fun _ hjob => Or.inl hjob⟩
  · rw [hwritten.id]
    exact directEnvelopes_message
  · intro x hx hne
    have hx : x ∈ db'.messageMedia := hx
    rw [hmedia] at hx
    exact bindMedia_origin hx hne

theorem forward_posts {ctx : Ctx} {f : Forward} {s : Store} {db' : Db} {r : Serialized}
    (h : f.tx ctx s.db = .ok (r, db')) : Posts r.message s { s with db := db' } := by
  obtain ⟨ids, _, hwritten, hposted⟩ := forwardTx_ok h
  obtain ⟨hclash, hmessages, _⟩ := hposted.messages
  obtain ⟨_, copies, hmedia, hcopies⟩ := forwardTx_media h
  refine ⟨hclash, hmessages, ⟨_, hposted.envelopes.1, ?_⟩, ?_, fun _ hjob => Or.inl hjob⟩
  · rw [hwritten.id]
    exact directEnvelopes_message
  · intro x hx hne
    have hx : x ∈ db'.messageMedia := hx
    rw [hmedia] at hx
    exact copies_origin hcopies hx hne

/-- The transaction of a group message under a new key. -/
theorem queueTx_new {ctx : Ctx} {r : GroupRequest} {db db' : Db} {m : Message}
    (hnew : findByKey r.senderDeviceId r.idempotencyKey db = none)
    (h : queueTx ctx r db = .ok (m, db')) :
    ∃ replyTo, validatePayload ctx.maxAttachments r db = .ok replyTo ∧
      m = groupMessage ctx.now ctx.messageId r (nextSequence r.groupId db) replyTo ∧
      commitGroupMessage ctx.now ctx.mediaId m r db = .ok db' := by
  simp only [queueTx, hnew] at h
  obtain ⟨replyTo, hreply, h⟩ := bind_ok.mp h
  obtain ⟨db₁, hcommit, h⟩ := bind_ok.mp h
  obtain ⟨rfl, rfl⟩ := Prod.mk.inj (Except.ok.inj h)
  exact ⟨replyTo, hreply, rfl, hcommit⟩

/-- A forward validates nothing, so the two transactions are one. -/
theorem groupTx_eq {ctx : Ctx} {r : GroupRequest} {contentType : MessageContentType}
    {source : List MessageMedia} (hr : r.payload = .forward contentType source) (db : Db) :
    groupTx ctx r db = queueTx ctx r db := by
  unfold groupTx queueTx validatePayload
  cases findByKey r.senderDeviceId r.idempotencyKey db with
  | some existing => rfl
  | none =>
      simp only [hr]
      rfl

theorem group_posts {ctx : Ctx} {r : GroupRequest} {s : Store} {db' : Db} {m : Message}
    (h : commitGroupMessage ctx.now ctx.mediaId m r s.db = .ok db') :
    Posts m s { db := db', jobs := s.jobs ++ [fanoutJob r m] } := by
  obtain ⟨hclash, hmessages, henvelopes, _⟩ := commitGroupMessage_ok h
  have hmedia := commitGroupMessage_media h
  refine ⟨hclash, hmessages, ⟨[], ?_, by simp⟩, ?_, ?_⟩
  · rw [List.append_nil]
    exact henvelopes
  · intro x hx hne
    have hx : x ∈ db'.messageMedia := hx
    cases hp : r.payload with
    | message contentType replyToMessageId mediaIds =>
        rw [hp] at hmedia
        rw [hmedia] at hx
        exact bindMedia_origin hx hne
    | forward contentType source =>
        rw [hp] at hmedia
        obtain ⟨copies, hrows, hcopies⟩ := hmedia
        rw [hrows] at hx
        exact copies_origin hcopies hx hne
  · intro job hjob
    rcases List.mem_append.mp hjob with hold | hnew
    · exact Or.inl hold
    · right
      rw [List.mem_singleton.mp hnew]
      unfold fanoutJob
      cases r.payload <;> rfl

/-- A group message runs its transaction, or leaves the store alone. -/
theorem queueGroupMessage_cases (ctx : Ctx) (senderUserId groupId : Id) (dto : SendGroupMessageDto)
    (s : Store) :
    (Announcements.queueGroupMessage ctx senderUserId groupId dto s).2 = s ∨
    ∃ m db' replyTo, validatePayload ctx.maxAttachments
        (GroupTask.message senderUserId groupId dto).request s.db = .ok replyTo ∧
      m = groupMessage ctx.now ctx.messageId (GroupTask.message senderUserId groupId dto).request
        (nextSequence groupId s.db) replyTo ∧
      commitGroupMessage ctx.now ctx.mediaId m (GroupTask.message senderUserId groupId dto).request
        s.db = .ok db' ∧
      (Announcements.queueGroupMessage ctx senderUserId groupId dto s).2 =
        { db := db'
          jobs := s.jobs ++ [fanoutJob (GroupTask.message senderUserId groupId dto).request m] } := by
  unfold Announcements.queueGroupMessage
  dsimp only
  split
  · exact Or.inl rfl
  · cases hf : findByKey dto.senderDeviceId dto.idempotencyKey s.db with
    | some existing => exact Or.inl rfl
    | none =>
        dsimp only
        unfold atomically
        cases htx : queueTx ctx (GroupTask.message senderUserId groupId dto).request s.db with
        | error e => exact Or.inl rfl
        | ok p =>
            obtain ⟨m, db'⟩ := p
            obtain ⟨replyTo, hreply, hm, hcommit⟩ := queueTx_new hf htx
            exact Or.inr ⟨m, db', replyTo, hreply, hm, hcommit, rfl⟩

theorem forwardToGroup_cases (ctx : Ctx) (r : GroupRequest) {contentType : MessageContentType}
    {source : List MessageMedia} (hr : r.payload = .forward contentType source) (s : Store) :
    (Messaging.forwardToGroup ctx r s).2 = s ∨
    ∃ m db', m = groupMessage ctx.now ctx.messageId r (nextSequence r.groupId s.db) none ∧
      commitGroupMessage ctx.now ctx.mediaId m r s.db = .ok db' ∧
      (Messaging.forwardToGroup ctx r s).2 = { db := db', jobs := s.jobs ++ [fanoutJob r m] } := by
  unfold Messaging.forwardToGroup
  split
  · exact Or.inl rfl
  · cases hf : findByKey r.senderDeviceId r.idempotencyKey s.db with
    | some existing => exact Or.inl rfl
    | none =>
        dsimp only
        unfold atomically
        rw [groupTx_eq hr]
        cases htx : queueTx ctx r s.db with
        | error e => exact Or.inl rfl
        | ok p =>
            obtain ⟨m, db'⟩ := p
            obtain ⟨replyTo, hreply, hm, hcommit⟩ := queueTx_new hf htx
            unfold validatePayload at hreply
            rw [hr] at hreply
            obtain rfl := Except.ok.inj hreply
            exact Or.inr ⟨m, db', hm, hcommit, rfl⟩

/-- A post stores one message or leaves the store alone. -/
theorem Post.store_cases (ctx : Ctx) (p : Post) (s : Store) :
    p.store ctx s = s ∨ ∃ m, Posts m s (p.store ctx s) := by
  cases p with
  | send senderUserId dto =>
      rcases idempotently_cases dto.senderDeviceId dto.idempotencyKey (sendTx ctx senderUserId dto)
        s.db with ⟨r, db', htx, he⟩ | ⟨he, _⟩
      · right
        refine ⟨r.message, ?_⟩
        simp only [Post.store, Messages.send, he]
        exact send_posts htx
      · left
        simp only [Post.store, Messages.send, he]
  | forwardToDirect sourceMessageId f =>
      rcases idempotently_cases f.senderDeviceId f.idempotencyKey
        ((Post.direct sourceMessageId f s.db).tx ctx) s.db with ⟨r, db', htx, he⟩ | ⟨he, _⟩
      · right
        have hdb : (Messages.forwardToDirect ctx (Post.direct sourceMessageId f s.db) s.db).2 = db' :=
          congrArg Prod.snd he
        refine ⟨r.message, ?_⟩
        simp only [Post.store, hdb]
        exact forward_posts htx
      · left
        have hdb : (Messages.forwardToDirect ctx (Post.direct sourceMessageId f s.db) s.db).2 = s.db :=
          he
        simp only [Post.store, hdb]
  | queueGroupMessage senderUserId groupId dto =>
      rcases queueGroupMessage_cases ctx senderUserId groupId dto s with he | ⟨m, db', _, _, _, hc, he⟩
      · exact Or.inl he
      · right
        refine ⟨m, ?_⟩
        simp only [Post.store, he]
        exact group_posts hc
  | forwardToGroup sourceMessageId contentType r =>
      rcases forwardToGroup_cases ctx (Post.group sourceMessageId contentType r s.db) rfl s with
        he | ⟨m, db', _, hc, he⟩
      · exact Or.inl he
      · right
        refine ⟨m, ?_⟩
        simp only [Post.store, he]
        exact group_posts hc

/-! ## What stays of a message without attachments -/

/-- The message is found under its key with the envelopes `es`, no attachment is bound to it, and
no queued job is about it. -/
structure Intact (m : Message) (es : List MessageEnvelope) (s : Store) : Prop where
  found : findByKey m.senderDeviceId m.idempotencyKey s.db = some m
  envelopes : s.db.messageEnvelopes.filter (·.messageId == m.id) = es
  unbound : ∀ x ∈ s.db.messageMedia, x.messageId ≠ some m.id
  jobs : ∀ job ∈ s.jobs, job.messageId ≠ m.id

theorem Intact.posts {m n : Message} {es : List MessageEnvelope} {s s' : Store}
    (h : Intact m es s) (hp : Posts n s s') : Intact m es s' := by
  have hne : n.id ≠ m.id := by
    have hfree := messageClash_fresh hp.clash m (List.mem_of_find?_eq_some h.found)
    exact Ne.symm hfree
  obtain ⟨extra, hrows, hextra⟩ := hp.envelopes
  constructor
  · exact findByKey_append hp.messages h.found
  · rw [hrows, Rows.filter_append_of_ne]
    · exact h.envelopes
    · intro e he
      rw [hextra e he]
      exact hne
  · intro x hx hbound
    obtain ⟨y, hy, hsame⟩ := hp.media x hx (by rw [hbound]; simpa using Ne.symm hne)
    exact h.unbound y hy (hsame.trans hbound)
  · intro job hjob
    rcases hp.jobs job hjob with hold | hnew
    · exact h.jobs job hold
    · rw [hnew]
      exact hne

/-- What writes none of the three tables keeps a message intact, if attachments stay unbound. -/
theorem Intact.same {m : Message} {es : List MessageEnvelope} {s : Store} (h : Intact m es s)
    {db : Db} (hmessages : db.messages = s.db.messages)
    (henvelopes : db.messageEnvelopes = s.db.messageEnvelopes)
    (hmedia : ∀ x ∈ db.messageMedia, x.messageId = none ∨
      ∃ y ∈ s.db.messageMedia, y.messageId = x.messageId) : Intact m es { s with db } := by
  constructor
  · unfold findByKey
    rw [hmessages]
    exact h.found
  · rw [henvelopes]
    exact h.envelopes
  · intro x hx hbound
    rcases hmedia x hx with hnone | ⟨y, hy, hsame⟩
    · rw [hnone] at hbound
      cases hbound
    · exact h.unbound y hy (hsame.trans hbound)
  · exact h.jobs

theorem Intact.fanout {m : Message} {es : List MessageEnvelope} {s : Store} (h : Intact m es s)
    {job : GroupFanoutJobData} (hjob : job ∈ s.jobs) (fan : FanoutCtx) :
    Intact m es { s with db := (Groups.fanout fan.now fan.envelopeId job s.db).2 } := by
  have hne := h.jobs job hjob
  obtain ⟨rows, hdb⟩ := fanout_frame fan.now fan.envelopeId job s.db
  constructor
  · rw [hdb]
    exact h.found
  · unfold Groups.fanout
    dsimp only
    split
    · exact h.envelopes
    · split
      · exact h.envelopes
      · obtain ⟨extra, hextra, hmem⟩ := Rows.createManySkip_append envelopeClash
          (fanoutEnvelopes fan.now fan.envelopeId job
            (targetDevices job.groupId job.senderDeviceId s.db)) s.db.messageEnvelopes
        rw [hextra, Rows.filter_append_of_ne]
        · exact h.envelopes
        · intro e he
          obtain ⟨x, _, rfl⟩ := List.mem_map.mp (hmem e he)
          exact hne
  · rw [hdb]
    exact h.unbound
  · exact h.jobs

theorem initUpload_tables {now : Time} {mediaId userId : Id} {presigned : PresignedUpload}
    {dto : InitMediaDto} {db db' : Db} {answer : Id × PresignedUpload}
    (h : Messages.initUpload now mediaId userId presigned dto db = .ok (answer, db')) :
    db' = { db with
      messageMedia := db.messageMedia ++ [pendingMedia now mediaId userId presigned dto] } := by
  unfold Messages.initUpload at h
  split at h
  · cases h
  · exact (Prod.mk.inj (Except.ok.inj h)).2.symm

theorem completeUpload_tables {verifyObjectExists : String → Nat → Except Err Unit} {now : Time}
    {userId mediaId : Id} {dto : CompleteMediaDto} {db db' : Db} {answer : MessageMedia}
    (h : Messages.completeUpload verifyObjectExists now userId mediaId dto db = .ok (answer, db')) :
    db' = { db with
      messageMedia := Rows.updateMany (·.id == mediaId) (completed now dto) db.messageMedia } := by
  unfold Messages.completeUpload at h
  obtain ⟨_, _, h⟩ := bind_ok.mp h
  obtain ⟨_, _, h⟩ := bind_ok.mp h
  unfold completeMedia at h
  dsimp only at h
  split at h
  · cases h
  · exact (Prod.mk.inj (Except.ok.inj h)).2.symm

theorem step_intact {m : Message} {es : List MessageEnvelope} (s : Store) (a : Act)
    (h : Intact m es s) : Intact m es (step s a) := by
  cases a with
  | post ctx p =>
      rcases p.store_cases ctx s with he | ⟨n, hposts⟩
      · show Intact m es (p.store ctx s)
        rw [he]
        exact h
      · exact h.posts hposts
  | fanout index fan =>
      simp only [step]
      cases hjob : s.jobs[index]? with
      | none => exact h
      | some job => exact h.fanout (List.mem_of_getElem? hjob) fan
  | initUpload now mediaId userId presigned dto =>
      simp only [step]
      cases hup : Messages.initUpload now mediaId userId presigned dto s.db with
      | error e => exact h
      | ok p =>
          obtain ⟨answer, db⟩ := p
          obtain rfl := initUpload_tables hup
          refine h.same rfl rfl ?_
          intro x hx
          rcases List.mem_append.mp hx with hold | hnew
          · exact Or.inr ⟨x, hold, rfl⟩
          · left
            rw [List.mem_singleton.mp hnew]
            rfl
  | completeUpload verifyObjectExists now userId mediaId dto =>
      simp only [step]
      cases hup : Messages.completeUpload verifyObjectExists now userId mediaId dto s.db with
      | error e => exact h
      | ok p =>
          obtain ⟨answer, db⟩ := p
          obtain rfl := completeUpload_tables hup
          refine h.same rfl rfl ?_
          intro x hx
          obtain ⟨y, hy, rfl⟩ := Rows.mem_updateMany.mp hx
          refine Or.inr ⟨y, hy, ?_⟩
          split <;> rfl
  | elsewhere db =>
      simp only [step]
      split
      · rename_i hsame
        refine h.same hsame.1 hsame.2.1 ?_
        rw [hsame.2.2]
        exact fun x hx => Or.inr ⟨x, hx, rfl⟩
      · exact h

/-- A message that is found is answered with its stored envelopes and attachments. -/
theorem send_found {ctx : Ctx} {senderUserId : Id} {dto : SendMessageDto} {db : Db} {m : Message}
    (h : findByKey dto.senderDeviceId dto.idempotencyKey db = some m) :
    (send ctx senderUserId dto db).1 = .ok ⟨serializeMessage m db, false⟩ := by
  unfold send idempotently
  rw [h]

theorem Intact.serialized {m : Message} {es : List MessageEnvelope} {s : Store}
    (h : Intact m es s) : serializeMessage m s.db = { message := m, envelopes := es, media := [] } := by
  have hnone : s.db.messageMedia.filter (·.messageId == some m.id) = [] :=
    Rows.filter_eq_nil_of_ne h.unbound
  unfold serializeMessage
  rw [h.envelopes, hnone]
  rfl

/-! ## What the events show -/

theorem showsBound_nil {messageId : Id} {db : Db} :
    ShowsBound messageId db [] ↔ ∀ x ∈ db.messageMedia, x.messageId ≠ some messageId := by
  constructor
  · intro h x hx hbound
    have hin : x ∈ db.messageMedia.filter (·.messageId == some messageId) :=
      List.mem_filter.mpr ⟨hx, by simpa using hbound⟩
    exact absurd (h.rows.mem_iff.mpr hin) List.not_mem_nil
  · intro h
    have hnone : db.messageMedia.filter (·.messageId == some messageId) = [] :=
      Rows.filter_eq_nil_of_ne h
    exact ⟨by rw [hnone], List.Pairwise.nil⟩

/-- Attachments and envelopes belong to stored messages, so none belongs to a new one. -/
theorem unbound_new {db : Db} (hc : Constrained db) {id : Id} (hfree : ∀ x ∈ db.messages, x.id ≠ id) :
    (∀ x ∈ db.messageMedia, x.messageId ≠ some id) ∧ ∀ e ∈ db.messageEnvelopes, e.messageId ≠ id := by
  constructor
  · intro x hx hbound
    obtain ⟨y, hy, hid⟩ := hc.mediaMessages x hx id hbound
    exact hfree y hy hid
  · intro e he hbound
    obtain ⟨y, hy, hid⟩ := hc.envelopeMessages e he
    exact hfree y hy (hid.trans hbound)

/-- After the binding update the rows of the message are those of the request. -/
theorem bound_of_owned {maxAttachments : Nat} {userId messageId : Id} {mediaIds : List Id} {db : Db}
    (hmedia : Rows.Unique (·.id) db.messageMedia)
    (hunbound : ∀ x ∈ db.messageMedia, x.messageId ≠ some messageId)
    (hown : assertAttachmentsOwned maxAttachments userId mediaIds db = .ok ()) :
    ∀ x ∈ (bindMedia userId mediaIds messageId db).messageMedia,
      x.messageId = some messageId ↔ x.id ∈ mediaIds := by
  intro x hx
  rw [bindMedia_attachable hmedia ((assertAttachmentsOwned_iff hmedia).mp hown)] at hx
  obtain ⟨y, hy, rfl⟩ := Rows.mem_updateMany.mp hx
  by_cases hin : mediaIds.contains y.id = true
  · rw [if_pos hin]
    exact iff_of_true rfl (by simpa using hin)
  · rw [if_neg hin]
    exact iff_of_false (hunbound y hy) (by simpa using hin)

theorem announced_created {recipientUserId : Id} {created : Serialized} :
    (announce recipientUserId (.ok ⟨created, true⟩)).filterMap Announced.media = [created.media] := by
  cases hthread : created.message.threadId <;> simp [announce, hthread, Announced.media]

section Direct

variable {ctx : Ctx} {fan : FanoutCtx} {order : MediaOrder} {s : Store} {o : Outcome}

theorem send_outcome {senderUserId : Id} {dto : SendMessageDto}
    (ho : (Post.send senderUserId dto).outcome ctx fan order s = some o) :
    ∃ r db', sendTx ctx senderUserId dto s.db = .ok (r, db') ∧
      o = { messageId := r.message.id, announced := [r.media], returned := some r
            store := { s with db := db' } } := by
  simp only [Post.outcome] at ho
  rcases idempotently_cases dto.senderDeviceId dto.idempotencyKey (sendTx ctx senderUserId dto)
    s.db with ⟨r, db', htx, he⟩ | ⟨_, hno⟩
  · have hsend : Messages.send ctx senderUserId dto s.db = (.ok ⟨r, true⟩, db') := he
    rw [hsend] at ho
    refine ⟨r, db', htx, ?_⟩
    rw [← Option.some.inj ho, announced_created]
  · split at ho
    · rename_i created db hsend
      exact absurd (congrArg Prod.fst hsend) (hno created)
    · cases ho

theorem forward_outcome {sourceMessageId : Id} {f : Forward}
    (ho : (Post.forwardToDirect sourceMessageId f).outcome ctx fan order s = some o) :
    ∃ r db', (Post.direct sourceMessageId f s.db).tx ctx s.db = .ok (r, db') ∧
      o = { messageId := r.message.id, announced := [r.media], returned := none
            store := { s with db := db' } } := by
  simp only [Post.outcome] at ho
  rcases idempotently_cases f.senderDeviceId f.idempotencyKey
    ((Post.direct sourceMessageId f s.db).tx ctx) s.db with ⟨r, db', htx, he⟩ | ⟨_, hno⟩
  · have hsend : Messages.forwardToDirect ctx (Post.direct sourceMessageId f s.db) s.db =
        (.ok ⟨r, true⟩, db') := he
    rw [hsend] at ho
    refine ⟨r, db', htx, ?_⟩
    rw [← Option.some.inj ho, announced_created]
  · split at ho
    · rename_i created db hsend
      exact absurd (congrArg Prod.fst hsend) (hno created)
    · cases ho

/-- The answer of `send` shows the envelopes that were stored and no attachment; the attachments
of the request are bound afterwards. -/
theorem sendTx_shows (hc : Constrained s.db) {senderUserId : Id} {dto : SendMessageDto} {r : Serialized}
    {db' : Db} (h : sendTx ctx senderUserId dto s.db = .ok (r, db')) :
    r = { message := r.message
          envelopes := db'.messageEnvelopes.filter (·.messageId == r.message.id), media := [] } ∧
    (ShowsBound r.message.id db' [] ↔ dto.mediaIds = []) := by
  obtain ⟨hclash, _⟩ := (send_posts (s := s) h)
  obtain ⟨ids, thread, db₁, sequenced, db₂, replyTo, db₃, _, hu, hi, _, hown, hcreate, rfl, rfl⟩ :=
    sendTx_cases h
  have hmedia := createMessage_media hu hi hcreate
  have hunbound := (unbound_new hc (messageClash_fresh hclash)).1
  obtain ⟨_, _, rfl⟩ := createMessage_ok hcreate
  have hmedia₂ : db₂.messageMedia = s.db.messageMedia := hmedia
  have hunique : Rows.Unique (·.id) db₂.messageMedia := hmedia₂ ▸ hc.mediaIds
  rw [← hmedia₂] at hunbound
  refine ⟨?_, ?_⟩
  · have hnone : db₂.messageMedia.filter (·.messageId == some (serializeMessage
        (sentMessage ctx senderUserId dto thread sequenced replyTo)
        { db₂ with
          messages := db₂.messages ++ [sentMessage ctx senderUserId dto thread sequenced replyTo]
          messageEnvelopes := db₂.messageEnvelopes ++ directEnvelopes ctx senderUserId
            dto.recipientUserId ids dto.envelopes }).message.id) = [] :=
      Rows.filter_eq_nil_of_ne hunbound
    unfold serializeMessage at hnone ⊢
    simp only at hnone ⊢
    rw [hnone]
    rfl
  · rw [showsBound_nil]
    have hbound := bound_of_owned hunique hunbound hown
    constructor
    · intro hall
      by_contra hne
      obtain ⟨id, hid⟩ := List.exists_mem_of_ne_nil _ hne
      obtain ⟨x, hx, rfl, _⟩ := assertAttachmentsOwned_ok hunique hown id hid
      -- the row of the first attachment is there after the update, and bound
      obtain ⟨x', hx', hsame⟩ := Rows.updateMany_kept (k := (·.id)) (p := fun m =>
        dto.mediaIds.contains m.id && m.userId == senderUserId && m.messageId.isNone)
        (f := fun m : MessageMedia => { m with messageId := some ctx.messageId }) (fun _ => rfl) hx
      have hin := (hbound x' hx').mpr (hsame ▸ hid)
      exact hall x' hx' hin
    · intro hnil
      rw [hnil, bindMedia_nil]
      exact hunbound

/-- A forward copies the attachments of its source after its row was serialized. -/
theorem cloneMediaForForward_copies {now : Time} {mediaId : Nat → Id} {userId messageId : Id}
    {source : List MessageMedia} {db db' : Db}
    (h : cloneMediaForForward now mediaId userId messageId source db = .ok db') :
    ∃ copies, db'.messageMedia = db.messageMedia ++ copies ∧ (copies = [] ↔ source = []) ∧
      (∀ c ∈ copies, c.messageId = some messageId) ∧
      (Rows.Unique (·.id) db.messageMedia → Rows.Unique (·.id) db'.messageMedia) := by
  unfold cloneMediaForForward at h
  dsimp only at h
  split at h
  · cases h
  · rename_i rows hrows
    obtain rfl := Except.ok.inj h
    refine ⟨_, Rows.insertAll_eq hrows, ?_, ?_, ?_⟩
    · rw [List.map_eq_nil_iff, List.zipIdx_eq_nil_iff]
    · intro c hc
      obtain ⟨x, _, rfl⟩ := List.mem_map.mp hc
      rfl
    · exact Rows.unique_insertAll (fun a b hab => by simp [hab]) hrows

theorem forwardTx_shows (hc : Constrained s.db) {f : Forward} {r : Serialized} {db' : Db}
    (h : f.tx ctx s.db = .ok (r, db')) :
    r.media = [] ∧ (ShowsBound r.message.id db' [] ↔ f.sourceMedia = []) := by
  obtain ⟨hclash, _⟩ := (forward_posts (s := s) h)
  obtain ⟨ids, thread, db₁, sequenced, db₂, db₃, _, hu, hi, hcreate, rfl, hclone⟩ := forwardTx_cases h
  have hmedia := createMessage_media hu hi hcreate
  have hunbound := (unbound_new hc (messageClash_fresh hclash)).1
  rw [← hmedia] at hunbound
  constructor
  · have hnone : db₃.messageMedia.filter (·.messageId == some ctx.messageId) = [] :=
      Rows.filter_eq_nil_of_ne hunbound
    show (db₃.messageMedia.filter (·.messageId == some ctx.messageId)).insertionSort _ = []
    rw [hnone]
    rfl
  · obtain ⟨copies, hrows, hempty, hcopies, _⟩ := cloneMediaForForward_copies hclone
    rw [showsBound_nil, hrows, ← hempty]
    constructor
    · intro hall
      by_contra hne
      obtain ⟨c, hc⟩ := List.exists_mem_of_ne_nil _ hne
      exact hall c (List.mem_append_right _ hc) (hcopies c hc)
    · intro hnil
      rw [hnil, List.append_nil]
      exact hunbound

end Direct

/-! ## What a fan-out shows -/

section Group

variable {ctx : Ctx} {fan : FanoutCtx} {order : MediaOrder} {s : Store} {o : Outcome}

/-- The event lists the rows with the ids of the job, if there is a device to send to. -/
theorem fanoutEvent_media (job : GroupFanoutJobData) {db : Db}
    (hstored : ∃ m ∈ db.messages, m.id = job.messageId) :
    ((fanoutEvent order job db).map (·.media)).toList =
      if targetDevices job.groupId job.senderDeviceId db = [] then []
      else [order.arrange (db.messageMedia.filter fun x => job.mediaIds.contains x.id)] := by
  obtain ⟨m, hm, hid⟩ := hstored
  have hany : db.messages.any (·.id == job.messageId) = true :=
    List.any_eq_true.mpr ⟨m, hm, by simpa using hid⟩
  unfold fanoutEvent
  by_cases hdevices : targetDevices job.groupId job.senderDeviceId db = []
  · rw [if_pos hdevices]
    simp [hdevices]
  · have hempty : (targetDevices job.groupId job.senderDeviceId db).isEmpty = false := by
      simpa using hdevices
    rw [if_neg hdevices]
    simp only [hempty, hany, Bool.not_true, Bool.false_eq_true, ↓reduceIte, Option.map_some,
      Option.toList_some]
    congr 1
    split
    · rename_i hnone
      have hnil : (db.messageMedia.filter fun x => job.mediaIds.contains x.id) = [] := by
        rw [List.isEmpty_iff.mp hnone]
        simp
      rw [hnil]
      exact (List.perm_nil.mp (order.perm [])).symm
    · rfl

/-- The list of a fan-out is right when it has the rows that are bound. -/
theorem showsBound_arrange {messageId : Id} {db db' : Db} (hmedia : db'.messageMedia = db.messageMedia)
    (p : MessageMedia → Bool) :
    ShowsBound messageId db' (order.arrange (db.messageMedia.filter p)) ↔
      ∀ x ∈ db.messageMedia, x.messageId = some messageId ↔ p x = true := by
  constructor
  · intro h x hx
    have hrows := h.rows
    rw [hmedia] at hrows
    have hmem := ((order.perm (db.messageMedia.filter p)).symm.trans hrows).mem_iff (a := x)
    rw [List.mem_filter, List.mem_filter, beq_iff_eq] at hmem
    constructor
    · intro hbound
      exact (hmem.mpr ⟨hx, hbound⟩).2
    · intro hp
      exact (hmem.mp ⟨hx, hp⟩).2
  · intro h
    have hfilter : db.messageMedia.filter (·.messageId == some messageId) =
        db.messageMedia.filter p := by
      apply List.filter_congr
      intro x hx
      have hiff := h x hx
      rw [← beq_iff_eq] at hiff
      exact Bool.eq_iff_iff.mpr hiff
    refine ⟨?_, order.sorted _⟩
    rw [hmedia, hfilter]
    exact order.perm _

/-- The outcome of a group message whose job was added. -/
theorem fannedOut_some {s' : Store} (ho : fannedOut fan order s s' = some o) {job : GroupFanoutJobData}
    (hjobs : s'.jobs = s.jobs ++ [job]) :
    o = { messageId := job.messageId, announced := ((fanoutEvent order job s'.db).map (·.media)).toList
          returned := none
          store := { s' with db := (fanout fan.now fan.envelopeId job s'.db).2 } } := by
  have hadded : s'.jobs.drop s.jobs.length = [job] := by rw [hjobs, List.drop_left]
  unfold fannedOut at ho
  rw [hadded] at ho
  exact (Option.some.inj ho).symm

theorem fannedOut_same : fannedOut fan order s s = none := by
  unfold fannedOut
  rw [List.drop_length]

theorem fannedOut_returned {s' : Store} (ho : fannedOut fan order s s' = some o) :
    o.returned = none := by
  unfold fannedOut at ho
  split at ho
  · rw [← Option.some.inj ho]
  · cases ho

theorem fanoutJob_messageId (r : GroupRequest) (m : Message) : (fanoutJob r m).messageId = m.id := by
  unfold fanoutJob
  cases r.payload <;> rfl

/-- A group transaction changes neither the devices nor the members. -/
theorem targetDevices_commit {r : GroupRequest} {m : Message} {db db' : Db}
    (h : commitGroupMessage ctx.now ctx.mediaId m r db = .ok db') (groupId deviceId : Id) :
    targetDevices groupId deviceId db' = targetDevices groupId deviceId db := by
  rw [(commitGroupMessage_eq h).2]
  rfl

/-- What a group message and its fan-out lead to. -/
theorem group_shows {r : GroupRequest} {m : Message} {db' : Db}
    (hcommit : commitGroupMessage ctx.now ctx.mediaId m r s.db = .ok db')
    (ho : fannedOut fan order s { db := db', jobs := s.jobs ++ [fanoutJob r m] } = some o) :
    (∀ media ∈ o.announced, ShowsBound o.messageId o.store.db media) ↔
      targetDevices r.groupId r.senderDeviceId s.db = [] ∨
      ∀ x ∈ db'.messageMedia, x.messageId = some m.id ↔ x.id ∈ (fanoutJob r m).mediaIds := by
  have hjob : (fanoutJob r m).groupId = r.groupId ∧ (fanoutJob r m).senderDeviceId = r.senderDeviceId := by
    unfold fanoutJob
    cases r.payload <;> exact ⟨rfl, rfl⟩
  obtain ⟨rows, hframe⟩ := fanout_frame fan.now fan.envelopeId (fanoutJob r m) db'
  have hstored : ∃ x ∈ db'.messages, x.id = (fanoutJob r m).messageId := by
    refine ⟨m, ?_, (fanoutJob_messageId r m).symm⟩
    rw [(commitGroupMessage_ok hcommit).2.1]
    exact List.mem_append_right _ List.mem_cons_self
  have hevent : ((fanoutEvent order (fanoutJob r m) db').map (·.media)).toList = _ :=
    fanoutEvent_media (fanoutJob r m) hstored
  rw [hjob.1, hjob.2, targetDevices_commit hcommit] at hevent
  rw [fannedOut_some ho rfl, hevent, fanoutJob_messageId]
  have hmedia : (fanout fan.now fan.envelopeId (fanoutJob r m) db').2.messageMedia =
      db'.messageMedia := by rw [hframe]
  by_cases hdevices : targetDevices r.groupId r.senderDeviceId s.db = []
  · rw [if_pos hdevices]
    exact iff_of_true (by simp) (Or.inl hdevices)
  · rw [if_neg hdevices]
    simp only [List.mem_singleton, forall_eq, hdevices, false_or]
    rw [showsBound_arrange hmedia]
    simp only [List.contains_iff_mem]

/-- Every group message is announced with the attachments that were bound to it. -/
theorem queue_shows (hc : Constrained s.db) {senderUserId groupId : Id} {dto : SendGroupMessageDto}
    (ho : (Post.queueGroupMessage senderUserId groupId dto).outcome ctx fan order s = some o) :
    ∀ media ∈ o.announced, ShowsBound o.messageId o.store.db media := by
  simp only [Post.outcome] at ho
  rcases queueGroupMessage_cases ctx senderUserId groupId dto s with
    he | ⟨m, db', replyTo, hvalid, _, hcommit, he⟩
  · rw [he, fannedOut_same] at ho
    cases ho
  · rw [he] at ho
    refine (group_shows hcommit ho).mpr (Or.inr ?_)
    have hunbound := (unbound_new hc (messageClash_fresh (commitGroupMessage_ok hcommit).1)).1
    have hmedia : db'.messageMedia = (bindMedia senderUserId dto.mediaIds m.id s.db).messageMedia :=
      commitGroupMessage_media hcommit
    obtain ⟨_, _, hvalid⟩ := bind_ok.mp hvalid
    obtain ⟨_, hown, _⟩ := bind_ok.mp hvalid
    rw [hmedia]
    exact bound_of_owned hc.mediaIds hunbound hown

/-- A forward to a group is announced with the attachments of its source. -/
theorem forwardToGroup_shows (hc : Constrained s.db) {sourceMessageId : Id}
    {contentType : MessageContentType} {r : GroupRequest}
    (ho : (Post.forwardToGroup sourceMessageId contentType r).outcome ctx fan order s = some o) :
    (∀ media ∈ o.announced, ShowsBound o.messageId o.store.db media) ↔
      sourceMedia sourceMessageId s.db = [] ∨ targetDevices r.groupId r.senderDeviceId s.db = [] := by
  simp only [Post.outcome] at ho
  rcases forwardToGroup_cases ctx (Post.group sourceMessageId contentType r s.db) rfl s with
    he | ⟨m, db', _, hcommit, he⟩
  · rw [he, fannedOut_same] at ho
    cases ho
  · rw [he] at ho
    rw [group_shows hcommit ho, or_comm]
    refine or_congr_left ?_
    have hunbound := (unbound_new hc (messageClash_fresh (commitGroupMessage_ok hcommit).1)).1
    obtain ⟨db₁, hcreate, hclone⟩ := bind_ok.mp hcommit
    obtain ⟨_, _, rfl⟩ := createMessage_ok hcreate
    obtain ⟨copies, hrows, hempty, hcopies, hunique⟩ := cloneMediaForForward_copies hclone
    have hrows : db'.messageMedia = s.db.messageMedia ++ copies := hrows
    have hids : (fanoutJob (Post.group sourceMessageId contentType r s.db) m).mediaIds =
        (sourceMedia sourceMessageId s.db).map (·.id) := rfl
    rw [hids]
    constructor
    · intro hall
      by_contra hne
      obtain ⟨c, hmem⟩ := List.exists_mem_of_ne_nil _ (mt hempty.mp hne)
      have hin : c ∈ db'.messageMedia := by
        rw [hrows]
        exact List.mem_append_right _ hmem
      obtain ⟨y, hy, hid⟩ := List.mem_map.mp ((hall c hin).mp (hcopies c hmem))
      have hold : y ∈ s.db.messageMedia := by
        unfold sourceMedia at hy
        rw [List.mem_insertionSort] at hy
        exact List.mem_of_mem_filter hy
      -- a copy has an id of its own
      have hy' : y ∈ db'.messageMedia := by
        rw [hrows]
        exact List.mem_append_left _ hold
      obtain rfl := (hunique hc.mediaIds).eq hy' hin hid
      exact hunbound y hold (hcopies y hmem)
    · intro hnil x hx
      rw [hrows, hempty.mpr hnil, List.append_nil] at hx
      rw [hnil]
      exact iff_of_false (hunbound x hx) List.not_mem_nil

end Group

/-- A forward and a group message answer with an id, so only their event is looked at. -/
theorem asStored_unanswered {p : Post} {o : Outcome}
    (hp : ∀ senderUserId dto, p ≠ .send senderUserId dto) (hnone : o.returned = none)
    (h : ∀ media ∈ o.announced, ShowsBound o.messageId o.store.db media) : AsStored p o := by
  refine ⟨h, ?_, ?_⟩
  · intro r hr
    rw [hnone] at hr
    cases hr
  · intro senderUserId dto r hsend
    exact absurd hsend (hp senderUserId dto)

/-- What is announced and answered is what is stored exactly where the post has no attachments,
and for every group message. -/
theorem announced_as_stored_iff (ctx : Ctx) (fan : FanoutCtx) (order : MediaOrder) (s : Store)
    (hc : Constrained s.db) (hjobs : ∀ job ∈ s.jobs, ∃ m ∈ s.db.messages, m.id = job.messageId)
    (p : Post) (o : Outcome) (ho : p.outcome ctx fan order s = some o) :
    AsStored p o ↔ p.Plain s.db := by
  cases p with
  | send senderUserId dto =>
      obtain ⟨r, db', htx, rfl⟩ := send_outcome ho
      obtain ⟨hr, hiff⟩ := sendTx_shows hc htx
      have hmedia : r.media = [] := by rw [hr]
      show AsStored _ _ ↔ dto.mediaIds = []
      rw [← hiff]
      constructor
      · intro h
        have hshown := h.announced r.media (List.mem_singleton_self _)
        rw [hmedia] at hshown
        exact hshown
      · intro hshown
        refine ⟨?_, ?_, ?_⟩
        · intro media hm
          rw [List.mem_singleton.mp hm, hmedia]
          exact hshown
        · intro r' hr'
          obtain rfl := Option.some.inj hr'
          rw [hmedia]
          exact hshown
        · intro senderUserId' dto₀ r' hp hr' acts ctx' dto' hdevice hkey
          cases hp
          obtain rfl := Option.some.inj hr'
          have hposts := send_posts (s := s) htx
          obtain ⟨_, _, hwritten, _⟩ := sendTx_ok htx
          have hintact : Intact r.message (db'.messageEnvelopes.filter (·.messageId == r.message.id))
              { s with db := db' } := by
            refine ⟨findByKey_new hposts.messages hposts.clash, rfl, showsBound_nil.mp hshown, ?_⟩
            intro job hjob hid
            obtain ⟨m, hm, hmid⟩ := hjobs job hjob
            exact messageClash_fresh hposts.clash m hm (hmid.trans hid)
          have hlater := run_invariant step_intact acts _ hintact
          have hfound := hlater.found
          rw [hwritten.device, hwritten.key, ← hdevice, ← hkey] at hfound
          rw [send_found hfound, hlater.serialized, ← hr]
  | forwardToDirect sourceMessageId f =>
      obtain ⟨r, db', htx, rfl⟩ := forward_outcome ho
      obtain ⟨hmedia, hiff⟩ := forwardTx_shows hc htx
      show AsStored _ _ ↔ (Post.direct sourceMessageId f s.db).sourceMedia = []
      rw [← hiff]
      constructor
      · intro h
        have hshown := h.announced r.media (List.mem_singleton_self _)
        rw [hmedia] at hshown
        exact hshown
      · intro hshown
        refine asStored_unanswered (by intro _ _ h; cases h) rfl ?_
        intro media hm
        rw [List.mem_singleton.mp hm, hmedia]
        exact hshown
  | queueGroupMessage senderUserId groupId dto =>
      exact iff_of_true (asStored_unanswered (by intro _ _ h; cases h) (fannedOut_returned ho)
        (queue_shows hc ho)) trivial
  | forwardToGroup sourceMessageId contentType r =>
      show AsStored _ _ ↔ _ ∨ _
      rw [← forwardToGroup_shows hc ho]
      exact ⟨fun h => h.announced,
        asStored_unanswered (by intro _ _ h; cases h) (fannedOut_returned ho)⟩

/-- Alice and Bob with a device each, and a picture Alice has uploaded. -/
def pictureStore : Store where
  db :=
    { pairDb with
      messageMedia :=
        [{ id := "p1", userId := "alice", messageId := none, mediaType := .image, bucketKey := "b"
           mimeType := "image/png", sizeBytes := 1, filename := "p.png", mediaCiphertextHash := "h"
           uploadStatus := .complete, createdAt := 0 }] }
  jobs := []

theorem pictureStore_constrained : Constrained pictureStore.db := by
  constructor <;> simp [pictureStore, pairDb, Rows.Unique]

def sampleFan : FanoutCtx := { now := 20, envelopeId := fun i => String.ofList (List.replicate i 'f') }

/-- Alice sends the picture: the event and the answer show no attachment. -/
theorem picture_not_announced :
    ¬ ∀ (ctx : Ctx) (fan : FanoutCtx) (order : MediaOrder) (s : Store), Constrained s.db →
      (∀ job ∈ s.jobs, ∃ m ∈ s.db.messages, m.id = job.messageId) →
      ∀ (p : Post) (o : Outcome), p.outcome ctx fan order s = some o → AsStored p o := by
  intro h
  obtain ⟨o, ho⟩ : ∃ o, (Post.send "alice" { pairDto with mediaIds := ["p1"] }).outcome pairCtx
    sampleFan (OrderBy.stable _) pictureStore = some o := ⟨_, rfl⟩
  have hstored := h pairCtx sampleFan (OrderBy.stable _) pictureStore pictureStore_constrained
    (by intro job hjob; cases hjob) _ o ho
  obtain ⟨r, db', htx, rfl⟩ := send_outcome ho
  obtain ⟨hr, hiff⟩ := sendTx_shows pictureStore_constrained htx
  have hmedia : r.media = [] := by rw [hr]
  have hshown := hstored.announced r.media (List.mem_singleton_self _)
  rw [hmedia] at hshown
  exact absurd (hiff.mp hshown) (by decide)

/-- Without the picture everything agrees. -/
theorem text_announced_as_stored :
    ∃ o, (Post.send "alice" pairDto).outcome pairCtx sampleFan (OrderBy.stable _) pictureStore =
      some o ∧ AsStored (Post.send "alice" pairDto) o :=
  ⟨_, rfl, (announced_as_stored_iff pairCtx sampleFan (OrderBy.stable _) pictureStore
    pictureStore_constrained (by intro job hjob; cases hjob) (Post.send "alice" pairDto) _ rfl).mpr
      rfl⟩

end Birgap.Messaging.Announcements
