import Birgap.Messages.Sequence

/-!
# When a message is accepted

The condition on a request and a store under which `MessagesService.send` succeeds when it
runs alone, and the store it leaves then. The request is refused at different points of one
transaction, twice by a unique index after the counter of the thread has moved; each
statement of the transaction is characterised by itself, and the condition is put together
from these. Besides what the service checks, the number after the thread's counter has to be
free, which the schema does not promise and the service's own writes keep.
-/
namespace Birgap.Messages

set_option autoImplicit false

open Birgap.Lib Birgap.Lib.Tx

/-! ## The store -/

/-- The unique indexes and foreign keys of the tables a direct message touches. -/
structure Constrained (db : Db) : Prop where
  deviceIds : Rows.Unique (·.id) db.devices
  threadIds : Rows.Unique (·.id) db.directThreads
  threadPairs : Rows.Unique (fun t => (t.userAId, t.userBId)) db.directThreads
  messageIds : Rows.Unique (·.id) db.messages
  messageKeys : Rows.Unique (fun m => (m.senderDeviceId, m.idempotencyKey)) db.messages
  messageNumbers : ∀ m ∈ db.messages, ∀ m' ∈ db.messages, m.threadId.isSome →
    m.threadId = m'.threadId → m.threadSequence = m'.threadSequence → m = m'
  messageThreads : ∀ m ∈ db.messages, ∀ id, m.threadId = some id → ∃ t ∈ db.directThreads, t.id = id
  messageDevices : ∀ m ∈ db.messages, ∃ d ∈ db.devices, d.id = m.senderDeviceId
  envelopeIds : Rows.Unique (·.id) db.messageEnvelopes
  envelopeDevices : Rows.Unique (fun e => (e.messageId, e.recipientDeviceId)) db.messageEnvelopes
  envelopeMessages : ∀ e ∈ db.messageEnvelopes, ∃ m ∈ db.messages, m.id = e.messageId
  mediaIds : Rows.Unique (·.id) db.messageMedia
  mediaMessages : ∀ x ∈ db.messageMedia, ∀ id, x.messageId = some id →
    ∃ m ∈ db.messages, m.id = id

/-- The ids drawn for the rows of a message are new. -/
structure Drawn (ctx : Ctx) (db : Db) : Prop where
  messageId : ∀ m ∈ db.messages, m.id ≠ ctx.messageId
  threadId : ∀ t ∈ db.directThreads, t.id ≠ ctx.threadId
  envelopeId : ∀ e ∈ db.messageEnvelopes, ∀ i, e.id ≠ ctx.envelopeId i
  envelopeIds : Function.Injective ctx.envelopeId

/-- No statement of the transaction fails. -/
def Ctx.Undisturbed (ctx : Ctx) : Prop := ∀ stmt, ctx.fails stmt = false

theorem Ctx.Undisturbed.exec {ctx : Ctx} (h : ctx.Undisturbed) (stmt : Stmt) :
    ctx.exec stmt = .ok () := by
  unfold Ctx.exec
  rw [h stmt]
  rfl

/-! ## The devices -/

/-- The active devices of a user. -/
def activeDeviceIds (userId : Id) (db : Db) : List Id :=
  (db.devices.filter fun d => d.active && d.userId == userId).map (·.id)

theorem mem_activeDeviceIds {userId id : Id} {db : Db} :
    id ∈ activeDeviceIds userId db ↔
      ∃ d ∈ db.devices, d.id = id ∧ d.userId = userId ∧ d.active = true := by
  unfold activeDeviceIds
  constructor
  · intro h
    obtain ⟨d, hd, rfl⟩ := List.mem_map.mp h
    obtain ⟨hmem, hsel⟩ := List.mem_filter.mp hd
    simp only [Bool.and_eq_true, beq_iff_eq] at hsel
    exact ⟨d, hmem, rfl, hsel.2, hsel.1⟩
  · intro ⟨d, hd, hid, huser, hactive⟩
    exact List.mem_map.mpr ⟨d, List.mem_filter.mpr ⟨hd, by simp [huser, hactive]⟩, hid⟩

/-- The sending device is an active one of the sender, the recipient is another user who can
be reached, and the envelopes name every active device of the recipient and no device
besides those and the other ones of the sender. -/
structure Routable (senderUserId senderDeviceId recipientUserId : Id)
    (envelopes : List MessageEnvelopeDto) (db : Db) : Prop where
  device : senderDeviceId ∈ activeDeviceIds senderUserId db
  another : senderUserId ≠ recipientUserId
  reachable : activeDeviceIds recipientUserId db ≠ []
  covered : ∀ id ∈ activeDeviceIds recipientUserId db, ∃ e ∈ envelopes, e.recipientDeviceId = id
  allowed : ∀ e ∈ envelopes, e.recipientDeviceId ∈ activeDeviceIds recipientUserId db ∨
    e.recipientDeviceId ∈ activeDeviceIds senderUserId db ∧ e.recipientDeviceId ≠ senderDeviceId

/-- The device query of a direct message. -/
def queriedDevices (senderUserId senderDeviceId recipientUserId : Id) (db : Db) : List Device :=
  db.devices.filter fun d => d.active && (d.id == senderDeviceId ||
    d.userId == recipientUserId || (d.userId == senderUserId && d.id != senderDeviceId))

section Devices

variable (senderUserId senderDeviceId recipientUserId : Id) (db : Db)

/-- What the query returns for the recipient. -/
theorem queried_recipient :
    ((queriedDevices senderUserId senderDeviceId recipientUserId db).filter
      (·.userId == recipientUserId)).map (·.id) = activeDeviceIds recipientUserId db := by
  unfold queriedDevices activeDeviceIds
  rw [List.filter_filter]
  congr 1
  apply List.filter_congr
  intro d _
  cases hu : d.userId == recipientUserId
  · simp
  · simp

/-- What it returns for the other devices of the sender. -/
theorem mem_queried_sync (id : Id) :
    id ∈ ((queriedDevices senderUserId senderDeviceId recipientUserId db).filter fun d =>
        d.userId == senderUserId && d.id != senderDeviceId).map (·.id) ↔
      id ∈ activeDeviceIds senderUserId db ∧ id ≠ senderDeviceId := by
  rw [mem_activeDeviceIds]
  constructor
  · intro h
    obtain ⟨d, hd, rfl⟩ := List.mem_map.mp h
    obtain ⟨hd, hsync⟩ := List.mem_filter.mp hd
    obtain ⟨hmem, hsel⟩ := List.mem_filter.mp hd
    simp only [Bool.and_eq_true, beq_iff_eq, bne_iff_ne] at hsync hsel
    exact ⟨⟨d, hmem, rfl, hsync.1, hsel.1⟩, hsync.2⟩
  · intro ⟨⟨d, hmem, hid, huser, hactive⟩, hne⟩
    subst hid
    refine List.mem_map.mpr ⟨d, List.mem_filter.mpr ⟨List.mem_filter.mpr ⟨hmem, ?_⟩, ?_⟩, rfl⟩
    · simp [huser, hactive, hne]
    · simp [huser, hne]

/-- The device with the sending id is found by the query when it is active. -/
theorem queried_sender (hdevices : Rows.Unique (·.id) db.devices) :
    ((queriedDevices senderUserId senderDeviceId recipientUserId db).find?
      (·.id == senderDeviceId)).any (·.userId == senderUserId) = true ↔
      senderDeviceId ∈ activeDeviceIds senderUserId db := by
  rw [Option.any_eq_true, mem_activeDeviceIds]
  constructor
  · intro ⟨d, hfind, hown⟩
    have hid := List.find?_some hfind
    obtain ⟨hmem, hsel⟩ := List.mem_filter.mp (List.mem_of_find?_eq_some hfind)
    simp only [Bool.and_eq_true] at hsel
    exact ⟨d, hmem, beq_iff_eq.mp hid, beq_iff_eq.mp hown, hsel.1⟩
  · intro ⟨d, hmem, hid, huser, hactive⟩
    subst hid
    have hq : d ∈ queriedDevices senderUserId d.id recipientUserId db :=
      List.mem_filter.mpr ⟨hmem, by simp [hactive]⟩
    have hu : Rows.Unique (·.id) (queriedDevices senderUserId d.id recipientUserId db) :=
      hdevices.filter _
    exact ⟨d, hu.find?_eq hq, by simp [huser]⟩

variable {senderUserId senderDeviceId recipientUserId db}

/-- The device checks pass exactly on a routable message. -/
theorem routeDevices_iff (hdevices : Rows.Unique (·.id) db.devices)
    {envelopes : List MessageEnvelopeDto} {ids : List Id} :
    routeDevices senderUserId senderDeviceId recipientUserId envelopes db = .ok ids ↔
      Routable senderUserId senderDeviceId recipientUserId envelopes db ∧
        ids = activeDeviceIds recipientUserId db := by
  have hrecipient := queried_recipient senderUserId senderDeviceId recipientUserId db
  have hsync := mem_queried_sync senderUserId senderDeviceId recipientUserId db
  have hsender := queried_sender senderUserId senderDeviceId recipientUserId db hdevices
  unfold queriedDevices at hrecipient hsync hsender
  unfold routeDevices
  simp only [hrecipient]
  simp only [bind_ok, ensure_ok, hsender, exists_and_left, exists_const, bne_iff_ne, ne_eq,
    Bool.not_eq_true', List.isEmpty_eq_false_iff, List.all_eq_true, List.any_eq_true, beq_iff_eq,
    List.contains_iff_mem, List.mem_append, hsync]
  constructor
  · intro ⟨hdevice, hanother, hreachable, hcovered, hallowed, hids⟩
    exact ⟨⟨hdevice, hanother, hreachable, hcovered, hallowed⟩, (Except.ok.inj hids).symm⟩
  · intro ⟨h, hids⟩
    subst hids
    exact ⟨h.device, h.another, h.reachable, h.covered, h.allowed, rfl⟩

end Devices

/-! ## The thread and its counter -/

/-- The row of a pair, or the one the upsert makes for it. -/
def threadOf (threadId : Id) (pair : Id × Id) (db : Db) : DirectThread :=
  (db.directThreads.find? fun t => t.userAId == pair.1 && t.userBId == pair.2).getD
    { id := threadId, userAId := pair.1, userBId := pair.2 }

/-- The thread rows with that one among them. -/
def openThreads (threadId : Id) (pair : Id × Id) (db : Db) : List DirectThread :=
  if db.directThreads.any fun t => t.userAId == pair.1 && t.userBId == pair.2 then db.directThreads
  else db.directThreads ++ [threadOf threadId pair db]

/-- The store with the counter of the pair moved on. -/
def numbered (threadId : Id) (pair : Id × Id) (db : Db) : Db :=
  { db with
    directThreads := Rows.updateMany (·.id == (threadOf threadId pair db).id) bump
      (openThreads threadId pair db) }

/-- No message of the pair's thread has the number after its counter. -/
def NumberFree (pair : Id × Id) (db : Db) : Prop :=
  ∀ t ∈ db.directThreads, (t.userAId, t.userBId) = pair →
    ∀ m ∈ db.messages, m.threadId = some t.id → m.threadSequence ≠ t.latestSequence + 1

section Threads

variable {threadId : Id} {db : Db}

/-- The row of a pair is stored, or it is new and nothing refers to it. -/
theorem threadOf_cases (pair : Id × Id) (hc : Constrained db) (hid : ∀ t ∈ db.directThreads, t.id ≠ threadId) :
    (threadOf threadId pair db ∈ db.directThreads ∧
        ((threadOf threadId pair db).userAId, (threadOf threadId pair db).userBId) = pair ∧
        openThreads threadId pair db = db.directThreads ∧
        upsertThread threadId pair.1 pair.2 db = .ok (threadOf threadId pair db, db)) ∨
      ((∀ t ∈ db.directThreads, (t.userAId, t.userBId) ≠ pair) ∧
        (∀ m ∈ db.messages, m.threadId ≠ some (threadOf threadId pair db).id) ∧
        threadOf threadId pair db = { id := threadId, userAId := pair.1, userBId := pair.2 } ∧
        openThreads threadId pair db = db.directThreads ++ [threadOf threadId pair db] ∧
        upsertThread threadId pair.1 pair.2 db = .ok (threadOf threadId pair db,
          { db with directThreads := db.directThreads ++ [threadOf threadId pair db] })) := by
  cases hfind : db.directThreads.find? fun t => t.userAId == pair.1 && t.userBId == pair.2 with
  | some t =>
      have hmem := List.mem_of_find?_eq_some hfind
      have hpair := List.find?_some hfind
      have hof : threadOf threadId pair db = t := by simp [threadOf, hfind]
      have hany : (db.directThreads.any fun t => t.userAId == pair.1 && t.userBId == pair.2) = true :=
        List.any_eq_true.mpr ⟨t, hmem, hpair⟩
      simp only [Bool.and_eq_true, beq_iff_eq] at hpair
      left
      rw [hof]
      refine ⟨hmem, Prod.ext hpair.1 hpair.2, if_pos hany, ?_⟩
      unfold upsertThread
      rw [hfind]
  | none =>
      have hof : threadOf threadId pair db = { id := threadId, userAId := pair.1, userBId := pair.2 } := by
        simp [threadOf, hfind]
      have hnone : ∀ t ∈ db.directThreads, (t.userAId, t.userBId) ≠ pair := by
        intro t ht he
        subst he
        have hn := List.find?_eq_none.mp hfind t ht
        simp at hn
      have hany : ¬ (db.directThreads.any fun t => t.userAId == pair.1 && t.userBId == pair.2) = true := by
        rw [List.any_eq_true]
        intro ⟨t, ht, hp⟩
        exact List.find?_eq_none.mp hfind t ht hp
      right
      refine ⟨hnone, ?_, hof, if_neg hany, ?_⟩
      · intro m hm he
        rw [hof] at he
        obtain ⟨t, ht, htid⟩ := hc.messageThreads m hm _ he
        exact hid t ht htid
      · unfold upsertThread
        rw [hfind, hof]
        dsimp only
        rw [if_neg]
        rw [List.any_eq_true]
        intro ⟨t, ht, he⟩
        exact hid t ht (beq_iff_eq.mp he)

/-- The upsert and the update that follows it move the counter of the pair. -/
theorem numbered_ok (pair : Id × Id) (hc : Constrained db) (hid : ∀ t ∈ db.directThreads, t.id ≠ threadId) :
    ∃ db₁, upsertThread threadId pair.1 pair.2 db = .ok (threadOf threadId pair db, db₁) ∧
      incrementSequence (threadOf threadId pair db).id db₁ =
        .ok (bump (threadOf threadId pair db), numbered threadId pair db) := by
  have hrow : ∀ rows : List DirectThread, Rows.Unique (·.id) rows → threadOf threadId pair db ∈ rows →
      (Rows.updateMany (·.id == (threadOf threadId pair db).id) bump rows).find?
        (·.id == (threadOf threadId pair db).id) = some (bump (threadOf threadId pair db)) := by
    intro rows hu hmem
    rw [Rows.find?_updateMany (f := bump) (fun _ => rfl), hu.find?_eq hmem]
    simp
  unfold incrementSequence numbered
  rcases threadOf_cases pair hc hid with
    ⟨hmem, _, hopen, hu⟩ | ⟨_, _, hof, hopen, hu⟩
  · refine ⟨db, hu, ?_⟩
    dsimp only
    rw [hopen, hrow _ hc.threadIds hmem]
  · refine ⟨_, hu, ?_⟩
    dsimp only
    rw [hopen, hrow]
    · apply Rows.unique_append hc.threadIds
      rw [hof]
      exact hid
    · exact List.mem_append_right _ (List.mem_singleton_self _)

/-- The number a message of the pair gets is not in use. -/
theorem numberFree_iff {pair : Id × Id} (hc : Constrained db) (hid : ∀ t ∈ db.directThreads, t.id ≠ threadId) :
    NumberFree pair db ↔ ∀ m ∈ db.messages, m.threadId = some (threadOf threadId pair db).id →
      m.threadSequence ≠ (bump (threadOf threadId pair db)).latestSequence := by
  rcases threadOf_cases pair hc hid with ⟨hmem, hpair, _, _⟩ | ⟨hnone, hnew, _, _, _⟩
  · constructor
    · intro h m hm
      exact h _ hmem hpair m hm
    · intro h t ht hp m hm hthread
      obtain rfl := hc.threadPairs.eq ht hmem (hp.trans hpair.symm)
      exact h m hm hthread
  · constructor
    · intro _ m hm he
      exact absurd he (hnew m hm)
    · intro _ t ht hp
      exact absurd hp (hnone t ht)

/-- In a store the service has numbered itself, the number is free. -/
theorem numberFree_of_sequenced {pair : Id × Id} (hs : Sequence.Sequenced db) : NumberFree pair db := by
  intro t ht _ m hm hthread hnext
  have hmem : t.latestSequence + 1 ∈ Sequence.threadSequences t.id db := by
    rw [← hnext]
    exact List.mem_map.mpr ⟨m, List.mem_filter.mpr ⟨hm, by simp [hthread]⟩, rfl⟩
  have hle := (hs.gapless t ht).mem_iff.mp hmem
  omega

end Threads

/-! ## The reply target, the attachments and the insert -/

/-- A reply target is accepted when it is stored in the conversation and no reply itself. -/
theorem checkReply_iff {inConversation : Message → Bool} {elsewhere : String}
    {replyToMessageId replyTo : Option Id} {db : Db} (hmessages : Rows.Unique (·.id) db.messages) :
    checkReply inConversation elsewhere replyToMessageId db = .ok replyTo ↔
      (∀ id, replyToMessageId = some id → ∃ target ∈ db.messages,
        target.id = id ∧ inConversation target = true ∧ target.replyToMessageId = none) ∧
      replyTo = replyToMessageId := by
  cases replyToMessageId with
  | none =>
      constructor
      · intro h
        exact ⟨fun id hid => absurd hid (Option.some_ne_none id).symm, (Except.ok.inj h).symm⟩
      · intro ⟨_, h⟩
        rw [h]
        rfl
  | some id =>
      constructor
      · intro h
        have hto : replyTo = some id := by
          unfold checkReply at h
          dsimp only at h
          split at h
          · cases h
          · rename_i target hfind
            have hid : target.id = id := by simpa using List.find?_some hfind
            split at h
            · cases h
            · split at h
              · cases h
              · rw [← Except.ok.inj h, hid]
        refine ⟨fun id' hid' => ?_, hto⟩
        exact checkReply_ok h id' (hto.trans hid')
      · intro ⟨h, hto⟩
        obtain ⟨target, hmem, hid, hin, htop⟩ := h id rfl
        subst hid hto
        unfold checkReply
        dsimp only
        rw [hmessages.find?_eq hmem]
        dsimp only
        rw [if_neg (by simp [hin]), if_neg (by simp [htop])]

/-- The attachments of a request: no more than allowed, none twice, and each an uploaded one
of the sender that no message has yet. -/
structure Attachable (maxAttachments : Nat) (userId : Id) (mediaIds : List Id) (db : Db) : Prop where
  atMost : mediaIds.length ≤ maxAttachments
  distinct : mediaIds.Nodup
  free : ∀ id ∈ mediaIds, ∃ x ∈ db.messageMedia, x.id = id ∧ x.userId = userId ∧
    x.messageId = none ∧ x.uploadStatus = .complete

theorem checkAll_iff {check : MessageMedia → Except Err Unit} {rows : List MessageMedia} :
    checkAll check rows = .ok () ↔ ∀ r ∈ rows, check r = .ok () := by
  constructor
  · exact checkAll_ok
  · intro h
    induction rows with
    | nil => rfl
    | cons r rows ih =>
        rw [checkAll, h r List.mem_cons_self]
        exact ih fun r' hr' => h r' (List.mem_cons_of_mem _ hr')

/-- The ownership check passes exactly on attachable ids. -/
theorem assertAttachmentsOwned_iff {maxAttachments : Nat} {userId : Id} {mediaIds : List Id}
    {db : Db} (hmedia : Rows.Unique (·.id) db.messageMedia) :
    assertAttachmentsOwned maxAttachments userId mediaIds db = .ok () ↔
      Attachable maxAttachments userId mediaIds db := by
  constructor
  · intro h
    have hfree := assertAttachmentsOwned_ok hmedia h
    unfold assertAttachmentsOwned at h
    split at h
    · rename_i hempty
      obtain rfl := List.isEmpty_iff.mp hempty
      exact ⟨Nat.zero_le _, List.nodup_nil, hfree⟩
    · split at h
      · cases h
      · rename_i hmax
        split at h
        · cases h
        · rename_i hdup
          exact ⟨not_lt.mp hmax, not_not.mp hdup, hfree⟩
  · intro h
    unfold assertAttachmentsOwned
    split
    · rfl
    · rw [if_neg (not_lt.mpr h.atMost), if_neg (not_not.mpr h.distinct)]
      -- the rows found are the requested ones, each once
      have hperm : ((db.messageMedia.filter fun m => mediaIds.contains m.id).map (·.id)).Perm
          mediaIds := by
        rw [List.perm_ext_iff_of_nodup (hmedia.filter _) h.distinct]
        intro id
        constructor
        · intro hid
          obtain ⟨x, hx, rfl⟩ := List.mem_map.mp hid
          simpa using (List.mem_filter.mp hx).2
        · intro hid
          obtain ⟨x, hx, rfl, _⟩ := h.free id hid
          exact List.mem_map.mpr ⟨x, List.mem_filter.mpr ⟨hx, by simpa using hid⟩, rfl⟩
      have hlength : (db.messageMedia.filter fun m => mediaIds.contains m.id).length =
          mediaIds.length := by
        rw [← hperm.length_eq, List.length_map]
      dsimp only
      rw [if_neg (not_not.mpr hlength), checkAll_iff]
      intro x hx
      obtain ⟨hx, hin⟩ := List.mem_filter.mp hx
      obtain ⟨x', hx', hid, howner, hunbound, hcomplete⟩ := h.free x.id (by simpa using hin)
      obtain rfl := hmedia.eq hx' hx hid
      unfold checkAttachment
      rw [if_neg (not_not.mpr howner), if_neg (by simp [hunbound]), if_neg (not_not.mpr hcomplete)]

/-- The binding update takes the requested rows, all of them. -/
theorem bindMedia_attachable {maxAttachments : Nat} {userId messageId : Id} {mediaIds : List Id}
    {db : Db} (hmedia : Rows.Unique (·.id) db.messageMedia)
    (h : Attachable maxAttachments userId mediaIds db) :
    bindMedia userId mediaIds messageId db =
      { db with
        messageMedia := Rows.updateMany (mediaIds.contains ·.id)
          (fun x => { x with messageId := some messageId }) db.messageMedia } := by
  unfold bindMedia Rows.updateMany
  congr 1
  apply List.map_congr_left
  intro x hx
  cases hin : mediaIds.contains x.id with
  | false => simp only [hin, Bool.false_and, Bool.false_eq_true, ↓reduceIte]
  | true =>
      obtain ⟨x', hx', hid, howner, hunbound, _⟩ := h.free x.id (by simpa using hin)
      obtain rfl := hmedia.eq hx' hx hid
      simp [howner, hunbound]

/-- Rows made from the entries of a request have different indices. -/
theorem zipIdx_pairwise {α : Type} (l : List α) : l.zipIdx.Pairwise fun a b => a.2 ≠ b.2 := by
  have hindex : (l.zipIdx.map (·.2)).Nodup := by
    rw [List.zipIdx_map_snd]
    exact List.nodup_range'
  rwa [List.Nodup, List.pairwise_map] at hindex

/-- The envelopes of a message with new ids go in when they name different devices. -/
theorem insertEnvelopes_iff {ctx : Ctx} {db : Db} (hc : Constrained db) (hd : Drawn ctx db)
    {senderUserId recipientUserId : Id} {ids : List Id} {envelopes : List MessageEnvelopeDto} :
    (∃ rows, Rows.insertAll envelopeClash
        (directEnvelopes ctx senderUserId recipientUserId ids envelopes) db.messageEnvelopes =
          some rows) ↔
      (envelopes.map (·.recipientDeviceId)).Nodup := by
  have hstored : ∀ a ∈ directEnvelopes ctx senderUserId recipientUserId ids envelopes,
      ∀ e ∈ db.messageEnvelopes, envelopeClash a e = false := by
    intro a ha e he
    obtain ⟨⟨dto, i⟩, _, rfl⟩ := List.mem_map.mp ha
    have hmessage : e.messageId ≠ ctx.messageId := by
      obtain ⟨m, hm, hid⟩ := hc.envelopeMessages e he
      rw [← hid]
      exact hd.messageId m hm
    simp [envelopeClash, (hd.envelopeId e he i).symm, hmessage.symm]
  rw [Rows.insertAll_some_iff]
  unfold directEnvelopes at hstored ⊢
  rw [List.pairwise_map]
  constructor
  · intro h
    have hpair := h.2
    rw [List.Nodup, ← List.zipIdx_map_fst 0 envelopes, List.map_map, List.pairwise_map]
    refine hpair.imp ?_
    intro a b hab he
    simp only [Function.comp_apply] at he
    simp [envelopeClash, he] at hab
  · intro hnodup
    rw [List.Nodup, ← List.zipIdx_map_fst 0 envelopes, List.map_map, List.pairwise_map] at hnodup
    refine ⟨hstored, ((zipIdx_pairwise envelopes).and hnodup).imp ?_⟩
    intro a b h
    obtain ⟨hne, hdevice⟩ := h
    have hid : ctx.envelopeId b.2 ≠ ctx.envelopeId a.2 := fun he => hne (hd.envelopeIds he).symm
    have hother : b.1.recipientDeviceId ≠ a.1.recipientDeviceId := Ne.symm hdevice
    simp [envelopeClash, hid, hother]

/-- The insert of a message at the pair's next number. -/
theorem createNumbered_iff {ctx : Ctx} {db : Db} (hc : Constrained db) (hd : Drawn ctx db)
    {pair : Id × Id} {m : Message} {senderUserId recipientUserId : Id} {ids : List Id}
    {envelopes : List MessageEnvelopeDto} (hid : m.id = ctx.messageId)
    (hthread : m.threadId = some (threadOf ctx.threadId pair db).id) (hgroup : m.groupId = none)
    (hsequence : m.threadSequence = (bump (threadOf ctx.threadId pair db)).latestSequence)
    (hnew : findByKey m.senderDeviceId m.idempotencyKey db = none)
    (hdevice : ∃ d ∈ db.devices, d.id = m.senderDeviceId) :
    (∃ db', createMessage m (directEnvelopes ctx senderUserId recipientUserId ids envelopes)
        (numbered ctx.threadId pair db) = .ok db') ↔
      NumberFree pair db ∧ (envelopes.map (·.recipientDeviceId)).Nodup := by
  rw [createMessage_iff, numberFree_iff hc hd.threadId]
  show (∀ r ∈ db.messages, messageClash m r = false) ∧ db.devices.any (·.id == m.senderDeviceId) = true ∧
    (∃ rows, Rows.insertAll envelopeClash _ db.messageEnvelopes = some rows) ↔ _
  rw [insertEnvelopes_iff hc hd]
  have hany : db.devices.any (·.id == m.senderDeviceId) = true := by
    obtain ⟨d, hmem, he⟩ := hdevice
    exact List.any_eq_true.mpr ⟨d, hmem, beq_iff_eq.mpr he⟩
  constructor
  · intro ⟨hclash, _, hnodup⟩
    refine ⟨fun r hr he => ?_, hnodup⟩
    obtain ⟨_, _, hnumber, _⟩ := messageClash_false.mp (hclash r hr)
    rw [← hsequence]
    exact Ne.symm (hnumber _ hthread he)
  · intro ⟨hfree, hnodup⟩
    refine ⟨fun r hr => messageClash_false.mpr ⟨?_, ?_, ?_, ?_⟩, hany, hnodup⟩
    · rw [hid]
      exact (hd.messageId r hr).symm
    · intro he
      obtain ⟨hdev, hkey⟩ := Prod.mk.inj he
      have hmiss := List.find?_eq_none.mp hnew r hr
      simp [hdev, hkey] at hmiss
    · intro id hm he
      obtain rfl := Option.some.inj (hthread.symm.trans hm)
      rw [hsequence]
      exact Ne.symm (hfree r hr he)
    · intro id hm
      rw [hgroup] at hm
      cases hm

/-! ## Sending -/

/-- What a request to send needs. -/
structure Sendable (maxAttachments : Nat) (senderUserId : Id) (dto : SendMessageDto) (db : Db) : Prop
    extends Routable senderUserId dto.senderDeviceId dto.recipientUserId dto.envelopes db where
  once : (dto.envelopes.map (·.recipientDeviceId)).Nodup
  reply : ∀ id, dto.replyToMessageId = some id → ∃ target ∈ db.messages, target.id = id ∧
    target.replyToMessageId = none ∧ ∃ t ∈ db.directThreads,
      (t.userAId, t.userBId) = canonicalDirectPair senderUserId dto.recipientUserId ∧
      target.threadId = some t.id
  attachable : Attachable maxAttachments senderUserId dto.mediaIds db

/-- The message row of a sent request. -/
def acceptedMessage (ctx : Ctx) (senderUserId : Id) (dto : SendMessageDto) (db : Db) : Message :=
  let thread := threadOf ctx.threadId (canonicalDirectPair senderUserId dto.recipientUserId) db
  sentMessage ctx senderUserId dto thread (bump thread) dto.replyToMessageId

/-- Its envelope rows. -/
def acceptedEnvelopes (ctx : Ctx) (senderUserId : Id) (dto : SendMessageDto) (db : Db) :
    List MessageEnvelope :=
  directEnvelopes ctx senderUserId dto.recipientUserId (activeDeviceIds dto.recipientUserId db)
    dto.envelopes

/-- The store a sent request leaves: the thread of the pair, if it was missing, and its
counter, the message, one envelope for each one listed, and the attachments bound. -/
def accepted (ctx : Ctx) (senderUserId : Id) (dto : SendMessageDto) (db : Db) : Db :=
  { numbered ctx.threadId (canonicalDirectPair senderUserId dto.recipientUserId) db with
    messages := db.messages ++ [acceptedMessage ctx senderUserId dto db]
    messageEnvelopes := db.messageEnvelopes ++ acceptedEnvelopes ctx senderUserId dto db
    messageMedia := Rows.updateMany (dto.mediaIds.contains ·.id)
      (fun x => { x with messageId := some ctx.messageId }) db.messageMedia }

/-- What `send` tells the rest of the server about a message it has created. -/
inductive Announced where
  | messageCreated (created : Serialized)
  | enqueueRecalc (userId threadId : Id) (threadType : ThreadType)
  deriving DecidableEq

/-- The `message.created` event and the job that recounts the recipient's unread messages,
both after the commit. -/
def announce (recipientUserId : Id) : Except Err Sent → List Announced
  | .ok ⟨created, true⟩ =>
      .messageCreated created ::
        match created.message.threadId with
        | some threadId => [.enqueueRecalc recipientUserId threadId .direct]
        | none => []
  | _ => []

section Sending

variable {ctx : Ctx} {senderUserId : Id} {dto : SendMessageDto} {db : Db}

/-- The reply check of `sendTx`, made against the thread of the pair. -/
theorem checkReply_pair (hc : Constrained db) (hd : Drawn ctx db) {pair : Id × Id}
    {elsewhere : String} {replyToMessageId replyTo : Option Id} :
    checkReply (·.threadId == some (threadOf ctx.threadId pair db).id) elsewhere replyToMessageId
        (numbered ctx.threadId pair db) = .ok replyTo ↔
      (∀ id, replyToMessageId = some id → ∃ target ∈ db.messages, target.id = id ∧
        target.replyToMessageId = none ∧ ∃ t ∈ db.directThreads,
          (t.userAId, t.userBId) = pair ∧ target.threadId = some t.id) ∧
      replyTo = replyToMessageId := by
  have hmessages : Rows.Unique (·.id) (numbered ctx.threadId pair db).messages := hc.messageIds
  rw [checkReply_iff hmessages]
  refine and_congr_left fun _ => forall_congr' fun id => imp_congr_right fun _ => ?_
  refine exists_congr fun target => and_congr_right fun hmem => and_congr_right fun _ => ?_
  rw [and_comm, beq_iff_eq]
  refine and_congr_right fun _ => ?_
  rcases threadOf_cases pair hc hd.threadId with ⟨ht, hpair, _, _⟩ | ⟨hnone, hnew, _, _, _⟩
  · constructor
    · intro h
      exact ⟨_, ht, hpair, h⟩
    · intro ⟨t, htmem, htpair, h⟩
      obtain rfl := hc.threadPairs.eq htmem ht (htpair.trans hpair.symm)
      exact h
  · constructor
    · intro h
      exact absurd h (hnew target hmem)
    · intro ⟨t, htmem, htpair, _⟩
      exact absurd htpair (hnone t htmem)

/-- What the answer shows of a message that has just been inserted: no attachments yet. -/
theorem serializeMessage_new (hc : Constrained db) (hd : Drawn ctx db) {m : Message}
    (hid : m.id = ctx.messageId) {ids : List Id} {recipientUserId : Id}
    {envelopes : List MessageEnvelopeDto} {db' : Db}
    (henvelopes : db'.messageEnvelopes =
      db.messageEnvelopes ++ directEnvelopes ctx senderUserId recipientUserId ids envelopes)
    (hmedia : db'.messageMedia = db.messageMedia) :
    serializeMessage m db' =
      { message := m
        envelopes := directEnvelopes ctx senderUserId recipientUserId ids envelopes
        media := [] } := by
  have hold : db.messageEnvelopes.filter (·.messageId == m.id) = [] := by
    apply Rows.filter_eq_nil_of_ne
    intro e he hm
    obtain ⟨x, hx, hxid⟩ := hc.envelopeMessages e he
    exact hd.messageId x hx (by rw [hxid, hm, hid])
  have hown : (directEnvelopes ctx senderUserId recipientUserId ids envelopes).filter
      (·.messageId == m.id) = directEnvelopes ctx senderUserId recipientUserId ids envelopes := by
    rw [List.filter_eq_self]
    intro e he
    obtain ⟨⟨dto, i⟩, _, rfl⟩ := List.mem_map.mp he
    exact beq_iff_eq.mpr hid.symm
  have hbare : db.messageMedia.filter (·.messageId == some m.id) = [] := by
    apply Rows.filter_eq_nil_of_ne
    intro x hx hm
    obtain ⟨y, hy, hyid⟩ := hc.mediaMessages x hx m.id hm
    exact hd.messageId y hy (hyid.trans hid)
  unfold serializeMessage
  rw [henvelopes, hmedia, List.filter_append, hold, hown, hbare]
  rfl

/-- The transaction commits exactly on a sendable request whose number is free. -/
theorem sendTx_iff (hc : Constrained db) (hd : Drawn ctx db) (hquiet : ctx.Undisturbed)
    (hnew : findByKey dto.senderDeviceId dto.idempotencyKey db = none) {r : Serialized} {db' : Db} :
    sendTx ctx senderUserId dto db = .ok (r, db') ↔
      (Sendable ctx.maxAttachments senderUserId dto db ∧
        NumberFree (canonicalDirectPair senderUserId dto.recipientUserId) db) ∧
      r = { message := acceptedMessage ctx senderUserId dto db
            envelopes := acceptedEnvelopes ctx senderUserId dto db, media := [] } ∧
      db' = accepted ctx senderUserId dto db := by
  obtain ⟨db₁, hupsert, hincrement⟩ :=
    numbered_ok (canonicalDirectPair senderUserId dto.recipientUserId) hc hd.threadId
  -- the insert, once the devices have been checked
  have hinsert : ∀ hroute : Routable senderUserId dto.senderDeviceId dto.recipientUserId
      dto.envelopes db,
      (∃ db₃, createMessage (acceptedMessage ctx senderUserId dto db)
        (acceptedEnvelopes ctx senderUserId dto db)
        (numbered ctx.threadId (canonicalDirectPair senderUserId dto.recipientUserId) db) = .ok db₃) ↔
      NumberFree (canonicalDirectPair senderUserId dto.recipientUserId) db ∧
        (dto.envelopes.map (·.recipientDeviceId)).Nodup := by
    intro hroute
    obtain ⟨d, hdmem, hdid, _⟩ := mem_activeDeviceIds.mp hroute.device
    exact createNumbered_iff hc hd rfl rfl rfl rfl hnew ⟨d, hdmem, hdid⟩
  -- what the insert and the binding update leave
  have hstored : ∀ db₃, Attachable ctx.maxAttachments senderUserId dto.mediaIds db →
      createMessage (acceptedMessage ctx senderUserId dto db)
        (acceptedEnvelopes ctx senderUserId dto db)
        (numbered ctx.threadId (canonicalDirectPair senderUserId dto.recipientUserId) db) = .ok db₃ →
      serializeMessage (acceptedMessage ctx senderUserId dto db) db₃ =
          { message := acceptedMessage ctx senderUserId dto db
            envelopes := acceptedEnvelopes ctx senderUserId dto db, media := [] } ∧
        bindMedia senderUserId dto.mediaIds ctx.messageId db₃ = accepted ctx senderUserId dto db := by
    intro db₃ hattach hcreate
    obtain ⟨_, _, rfl⟩ := createMessage_ok hcreate
    refine ⟨serializeMessage_new hc hd rfl rfl rfl, ?_⟩
    have hfree : Attachable ctx.maxAttachments senderUserId dto.mediaIds
        { numbered ctx.threadId (canonicalDirectPair senderUserId dto.recipientUserId) db with
          messages := db.messages ++ [acceptedMessage ctx senderUserId dto db]
          messageEnvelopes := db.messageEnvelopes ++ acceptedEnvelopes ctx senderUserId dto db } :=
      ⟨hattach.atMost, hattach.distinct, hattach.free⟩
    exact bindMedia_attachable hc.mediaIds hfree
  constructor
  · intro h
    obtain ⟨ids, thread, db₁', sequenced, db₂, replyTo, db₃, hdevices, hupsert', hincrement',
      htarget, hown, hcreate, rfl, rfl⟩ := sendTx_cases h
    obtain ⟨hroute, rfl⟩ := (routeDevices_iff hc.deviceIds).mp hdevices
    obtain ⟨rfl, rfl⟩ := Prod.mk.inj (Except.ok.inj (hupsert'.symm.trans hupsert))
    obtain ⟨rfl, rfl⟩ := Prod.mk.inj (Except.ok.inj (hincrement'.symm.trans hincrement))
    obtain ⟨hreply, rfl⟩ := (checkReply_pair hc hd).mp htarget
    obtain ⟨hmost, hdistinct, hfree⟩ := (assertAttachmentsOwned_iff hc.mediaIds).mp hown
    obtain ⟨hnumber, honce⟩ := (hinsert hroute).mp ⟨db₃, hcreate⟩
    exact ⟨⟨⟨hroute, honce, hreply, ⟨hmost, hdistinct, hfree⟩⟩, hnumber⟩,
      hstored db₃ ⟨hmost, hdistinct, hfree⟩ hcreate⟩
  · intro ⟨⟨hs, hnumber⟩, hr, hdb⟩
    obtain ⟨db₃, hcreate⟩ := (hinsert hs.toRoutable).mpr ⟨hnumber, hs.once⟩
    obtain ⟨hserialized, hbound⟩ := hstored db₃ hs.attachable hcreate
    have hown : assertAttachmentsOwned ctx.maxAttachments senderUserId dto.mediaIds
        (numbered ctx.threadId (canonicalDirectPair senderUserId dto.recipientUserId) db) = .ok () :=
      (assertAttachmentsOwned_iff hc.mediaIds).mpr hs.attachable
    rw [hr, hdb, ← hserialized, ← hbound]
    unfold sendTx
    refine bind_ok.mpr ⟨(), hquiet.exec _, ?_⟩
    refine bind_ok.mpr ⟨_, (routeDevices_iff hc.deviceIds).mpr ⟨hs.toRoutable, rfl⟩, ?_⟩
    refine bind_ok.mpr ⟨(), hquiet.exec _, ?_⟩
    refine bind_ok.mpr ⟨_, hupsert, ?_⟩
    refine bind_ok.mpr ⟨(), hquiet.exec _, ?_⟩
    refine bind_ok.mpr ⟨_, hincrement, ?_⟩
    refine bind_ok.mpr ⟨(), hquiet.exec _, ?_⟩
    refine bind_ok.mpr ⟨_, (checkReply_pair hc hd).mpr ⟨hs.reply, rfl⟩, ?_⟩
    refine bind_ok.mpr ⟨(), hquiet.exec _, ?_⟩
    refine bind_ok.mpr ⟨(), hown, ?_⟩
    refine bind_ok.mpr ⟨(), hquiet.exec _, ?_⟩
    refine bind_ok.mpr ⟨db₃, hcreate, ?_⟩
    refine bind_ok.mpr ⟨(), hquiet.exec _, ?_⟩
    exact bind_ok.mpr ⟨(), hquiet.exec _, rfl⟩

/-- A request whose key is new answers as its transaction does. -/
theorem idempotently_new {senderDeviceId : Id} {idempotencyKey : String}
    {tx : Db → Except Err (Serialized × Db)}
    (hnew : findByKey senderDeviceId idempotencyKey db = none) :
    idempotently senderDeviceId idempotencyKey tx db =
      match tx db with
      | .ok (created, db') => (.ok ⟨created, true⟩, db')
      | .error e => (.error e, db) := by
  unfold idempotently atomically
  rw [hnew]
  dsimp only
  cases tx db with
  | ok p => rfl
  | error e => cases e <;> simp [hnew]

end Sending

/-! ## A store whose counter is behind -/

/-- Alice and Bob with a device each. -/
def pairDb : Db :=
  { devices :=
      [{ id := "d1", userId := "alice", platform := .ios, identityPublicKey := "k1", createdAt := 0 },
       { id := "d2", userId := "bob", platform := .ios, identityPublicKey := "k2", createdAt := 0 }] }

/-- A message of theirs with the number one, in a thread that counts none. -/
def behindDb : Db :=
  { pairDb with
    directThreads := [{ id := "t1", userAId := "alice", userBId := "bob" }]
    messages :=
      [{ id := "m1", threadId := some "t1", senderUserId := "bob", senderDeviceId := "d2"
         idempotencyKey := "earlier", threadSequence := 1, createdAt := 0 }] }

def pairCtx : Ctx :=
  { now := 10, messageId := "m2", threadId := "t2"
    envelopeId := fun i => String.ofList (List.replicate i 'e')
    mediaId := fun i => String.ofList (List.replicate i 'm') }

/-- A message from Alice that names Bob's device. -/
def pairDto : SendMessageDto :=
  { senderDeviceId := "d1", recipientUserId := "bob", idempotencyKey := "request"
    envelopes := [⟨"d2", "c"⟩] }

theorem pairDb_constrained : Constrained pairDb := by
  constructor <;> simp [pairDb, Rows.Unique]

theorem behindDb_constrained : Constrained behindDb := by
  constructor <;> simp [behindDb, pairDb, Rows.Unique]

/-- Ids that differ in their lengths. -/
theorem replicate_injective (c : Char) :
    Function.Injective fun i => String.ofList (List.replicate i c) := by
  intro i j h
  have hchars : List.replicate i c = List.replicate j c := String.ofList_injective h
  simpa using congrArg List.length hchars

end Birgap.Messages
