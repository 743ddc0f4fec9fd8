import Birgap.Messaging.ForwardTargets
import Birgap.Messaging.Idempotency
import Birgap.Messages.DerivedKeys

/-!
# A forward that is repeated

What a target of a forward adds to the store, and why no other target of the request undoes
how it ended: a message that is stored stays under its key, and what refused a target, the
devices, the membership or a number that is taken, is not removed by the others. So the same
request, run again, gives the same entries and changes nothing.
-/
namespace Birgap.Messaging

set_option autoImplicit false

open Birgap.Lib Birgap.Lib.Tx Birgap.Lib.Batch Birgap.Messages Birgap.Groups

/-! ## What a message adds -/

/-- The store with one message more, in a thread or a group, with its envelopes and its
attachments; a thread has been made or counted on for it at most. -/
structure Adds (messageId senderDeviceId : Id) (idempotencyKey : String) (db db' : Db) (m : Message) :
    Prop where
  id : m.id = messageId
  device : m.senderDeviceId = senderDeviceId
  key : m.idempotencyKey = idempotencyKey
  devices : db'.devices = db.devices
  members : db'.groupMembers = db.groupMembers
  messages : db'.messages = db.messages ++ [m]
  clash : ∀ x ∈ db.messages, messageClash m x = false
  home : ∀ id, m.threadId = some id → ∃ t ∈ db'.directThreads, t.id = id
  threadIds : Rows.Unique (·.id) db'.directThreads
  threadPairs : Rows.Unique (fun t => (t.userAId, t.userBId)) db'.directThreads
  threads : ∀ t ∈ db.directThreads, ∃ t' ∈ db'.directThreads,
    t'.id = t.id ∧ t'.userAId = t.userAId ∧ t'.userBId = t.userBId ∧
    (t'.latestSequence = t.latestSequence ∨
      ∀ x ∈ db.messages, x.threadId = some t.id → x.threadSequence ≠ t.latestSequence + 1)
  envelopes : ∃ new, (∀ e ∈ new, e.messageId = m.id) ∧
    Rows.insertAll envelopeClash new db.messageEnvelopes = some db'.messageEnvelopes
  media : ∃ new, db'.messageMedia = db.messageMedia ++ new ∧ ∀ x ∈ new, x.messageId = some m.id
  mediaIds : Rows.Unique (·.id) db'.messageMedia

/-- The schema's constraints are kept. -/
theorem Adds.constrained {messageId senderDeviceId : Id} {idempotencyKey : String} {db db' : Db}
    {m : Message} (h : Adds messageId senderDeviceId idempotencyKey db db' m)
    (hc : Constrained db) (hdevice : ∃ d ∈ db.devices, d.id = senderDeviceId) : Constrained db' := by
  obtain ⟨new, hto, hinsert⟩ := h.envelopes
  obtain ⟨media, hmedia, hbound⟩ := h.media
  have hrows := Rows.insertAll_eq hinsert
  have hclash := fun x hx => messageClash_false.mp (h.clash x hx)
  constructor
  · rw [h.devices]
    exact hc.deviceIds
  · exact h.threadIds
  · exact h.threadPairs
  · rw [h.messages]
    exact Rows.unique_append hc.messageIds fun x hx => Ne.symm (hclash x hx).1
  · rw [h.messages]
    exact Rows.unique_append hc.messageKeys fun x hx => Ne.symm (hclash x hx).2.1
  · rw [h.messages]
    have hnumber : ∀ x ∈ db.messages, ∀ id, m.threadId = some id → x.threadId = some id →
        m.threadSequence ≠ x.threadSequence := fun x hx => (hclash x hx).2.2.1
    intro a ha b hb hhome hthread hsequence
    obtain ⟨id, hid⟩ := Option.isSome_iff_exists.mp hhome
    rcases List.mem_append.mp ha with hold | hnew
    · rcases List.mem_append.mp hb with hold' | hnew'
      · exact hc.messageNumbers a hold b hold' hhome hthread hsequence
      · obtain rfl := List.mem_singleton.mp hnew'
        exact absurd hsequence.symm (hnumber a hold id (hthread.symm.trans hid) hid)
    · obtain rfl := List.mem_singleton.mp hnew
      rcases List.mem_append.mp hb with hold' | hnew'
      · exact absurd hsequence (hnumber b hold' id hid (hthread.symm.trans hid))
      · exact (List.mem_singleton.mp hnew').symm
  · rw [h.messages]
    intro x hx id hid
    rcases List.mem_append.mp hx with hx | hx
    · obtain ⟨t, ht, htid⟩ := hc.messageThreads x hx id hid
      obtain ⟨t', ht', hid', _⟩ := h.threads t ht
      exact ⟨t', ht', hid'.trans htid⟩
    · obtain rfl := List.mem_singleton.mp hx
      exact h.home id hid
  · rw [h.messages, h.devices]
    intro x hx
    rcases List.mem_append.mp hx with hx | hx
    · exact hc.messageDevices x hx
    · obtain rfl := List.mem_singleton.mp hx
      rw [h.device]
      exact hdevice
  · refine Rows.unique_insertAll ?_ hinsert hc.envelopeIds
    intro a b he
    simp [envelopeClash, he]
  · exact Rows.unique_insertAll envelopeClash_device hinsert hc.envelopeDevices
  · rw [hrows, h.messages]
    intro e he
    rcases List.mem_append.mp he with he | he
    · obtain ⟨x, hx, hid⟩ := hc.envelopeMessages e he
      exact ⟨x, List.mem_append_left _ hx, hid⟩
    · exact ⟨m, List.mem_append_right _ (List.mem_singleton_self m), (hto e he).symm⟩
  · exact h.mediaIds
  · rw [hmedia, h.messages]
    intro x hx id hid
    rcases List.mem_append.mp hx with hx | hx
    · obtain ⟨y, hy, hyid⟩ := hc.mediaMessages x hx id hid
      exact ⟨y, List.mem_append_left _ hy, hyid⟩
    · exact ⟨m, List.mem_append_right _ (List.mem_singleton_self m),
        Option.some.inj ((hbound x hx).symm.trans hid)⟩

/-- The message is found under its key. -/
theorem Adds.found {messageId senderDeviceId : Id} {idempotencyKey : String} {db db' : Db}
    {m : Message} (h : Adds messageId senderDeviceId idempotencyKey db db' m) :
    findByKey senderDeviceId idempotencyKey db' = some m := by
  rw [← h.device, ← h.key]
  exact findByKey_new h.messages h.clash

/-- Copies have ids of their own. -/
theorem cloneMediaForForward_unique {now : Time} {mediaId : Nat → Id} {userId messageId : Id}
    {source : List MessageMedia} {db db' : Db}
    (h : cloneMediaForForward now mediaId userId messageId source db = .ok db')
    (hu : Rows.Unique (·.id) db.messageMedia) : Rows.Unique (·.id) db'.messageMedia := by
  unfold cloneMediaForForward at h
  simp only at h
  split at h
  · cases h
  · rename_i rows hrows
    obtain rfl := Except.ok.inj h
    refine Rows.unique_insertAll ?_ hrows hu
    intro a b he
    exact beq_iff_eq.mpr he.symm

/-- What a forward to a user adds. -/
theorem adds_direct {ctx : Ctx} {f : Forward} {db db' : Db} {r : Serialized} (hc : Constrained db)
    (h : f.tx ctx db = .ok (r, db')) :
    Adds ctx.messageId f.senderDeviceId f.idempotencyKey db db' r.message := by
  obtain ⟨ids, _, hwritten, thread, x, db₁, _, hupsert, hx, hxid, hthread, hgroup, hsequence, hclash,
    hinsert, hdb⟩ := forwardTx_ok h
  obtain ⟨_, copies, hmedia, hcopies⟩ := forwardTx_media h
  -- the thread rows after the upsert
  have hopened : Rows.Unique (·.id) db₁.directThreads ∧
      Rows.Unique (fun t => (t.userAId, t.userBId)) db₁.directThreads ∧
      thread ∈ db₁.directThreads ∧ ∀ t ∈ db.directThreads, t ∈ db₁.directThreads := by
    rcases upsertThread_ok hupsert with ⟨hmem, _, _, rfl⟩ | ⟨hpair, hid, rfl, rfl⟩
    · exact ⟨hc.threadIds, hc.threadPairs, hmem, fun t ht => ht⟩
    · exact ⟨Rows.unique_append hc.threadIds hid, Rows.unique_append hc.threadPairs hpair,
        List.mem_append_right _ (List.mem_singleton_self _), fun t ht => List.mem_append_left _ ht⟩
  obtain ⟨hids, hpairs, hthreadmem, hkept⟩ := hopened
  obtain rfl := hids.eq hx hthreadmem hxid
  have hthreads : db'.directThreads = Rows.updateMany (·.id == x.id) bump db₁.directThreads := by
    rw [hdb]
  refine
    { id := hwritten.id
      device := hwritten.device
      key := hwritten.key
      devices := by rw [hdb]
      members := by rw [hdb]
      messages := by rw [hdb]
      clash := hclash
      home := ?_
      threadIds := ?_
      threadPairs := ?_
      threads := ?_
      envelopes := ?_
      media := ⟨copies, hmedia, fun c hcopy => (hcopies c hcopy).1⟩
      mediaIds := ?_ }
  · intro id hid
    rw [hthreads]
    obtain rfl := Option.some.inj (hthread.symm.trans hid)
    obtain ⟨x', hx', hx'id⟩ := Rows.updateMany_kept (p := (·.id == x.id)) (f := bump) (k := (·.id))
      (fun _ => rfl) hx
    exact ⟨x', hx', hx'id⟩
  · rw [hthreads]
    exact Rows.unique_updateMany (f := bump) (fun _ => rfl) hids
  · rw [hthreads]
    exact Rows.unique_updateMany (f := bump) (fun _ => rfl) hpairs
  · intro t ht
    rw [hthreads]
    refine ⟨_, Rows.mem_updateMany.mpr ⟨t, hkept t ht, rfl⟩, ?_⟩
    by_cases hsame : (t.id == x.id) = true
    · obtain rfl := hids.eq (hkept t ht) hx (beq_iff_eq.mp hsame)
      rw [if_pos hsame]
      refine ⟨rfl, rfl, rfl, Or.inr fun y hy hythread hnext => ?_⟩
      have hno := (messageClash_false.mp (hclash y hy)).2.2.1 t.id hthread hythread
      exact hno (hsequence.trans hnext.symm)
    · rw [if_neg hsame]
      exact ⟨rfl, rfl, rfl, Or.inl rfl⟩
  · refine ⟨_, ?_, by rw [hdb]; exact hinsert⟩
    intro e he
    obtain ⟨⟨dto, i⟩, _, rfl⟩ := List.mem_map.mp he
    exact hwritten.id.symm
  · obtain ⟨_, _, _, _, _, _, _, hupsert', hincrement, hcreate, _, hclone⟩ := forwardTx_cases h
    apply cloneMediaForForward_unique hclone
    rw [createMessage_media hupsert' hincrement hcreate]
    exact hc.mediaIds

/-- What a forward to a group adds. -/
theorem adds_group {ctx : Ctx} {r : GroupRequest} {db db' : Db} {contentType : MessageContentType}
    {source : List MessageMedia} (hc : Constrained db) (hpayload : r.payload = .forward contentType source)
    {sequence : Nat} (h : commitGroupMessage ctx.now ctx.mediaId
      (groupMessage ctx.now ctx.messageId r sequence none) r db = .ok db') :
    Adds ctx.messageId r.senderDeviceId r.idempotencyKey db db'
      (groupMessage ctx.now ctx.messageId r sequence none) := by
  obtain ⟨hclash, hdb⟩ := commitGroupMessage_eq h
  have hmedia := commitGroupMessage_media h
  rw [hpayload] at hmedia
  obtain ⟨copies, hmedia, hcopies⟩ := hmedia
  obtain ⟨_, hdevice, hkey⟩ := groupMessage_sender ctx.now ctx.messageId r sequence none
  have hthreads : db'.directThreads = db.directThreads := by rw [hdb]
  refine
    { id := groupMessage_id ..
      device := hdevice
      key := hkey
      devices := by rw [hdb]
      members := by rw [hdb]
      messages := by rw [hdb]
      clash := hclash
      home := ?_
      threadIds := by rw [hthreads]; exact hc.threadIds
      threadPairs := by rw [hthreads]; exact hc.threadPairs
      threads := ?_
      envelopes := ⟨[], fun e he => absurd he List.not_mem_nil, by rw [hdb]; rfl⟩
      media := ⟨copies, hmedia, fun c hcopy => (hcopies c hcopy).1⟩
      mediaIds := ?_ }
  · intro id hthread
    rw [groupMessage_thread] at hthread
    cases hthread
  · intro t ht
    rw [hthreads]
    exact ⟨t, ht, rfl, rfl, rfl, Or.inl rfl⟩
  · unfold commitGroupMessage at h
    obtain ⟨db₁, hcreate, h⟩ := bind_ok.mp h
    obtain ⟨_, _, rfl⟩ := createMessage_ok hcreate
    rw [hpayload] at h
    exact cloneMediaForForward_unique h hc.mediaIds

/-! ## What one target does -/

/-- What a target draws is new, and nothing fails on its way. -/
structure Draws (ctx : Ctx) (db : Db) : Prop extends Drawn ctx db, DrawnMedia ctx db where
  undisturbed : ctx.Undisturbed

theorem Draws.shared {ctx : Ctx} {db : Db} (h : Draws ctx db) : ctx.SharedOnly :=
  ⟨h.undisturbed _, h.undisturbed _, h.undisturbed _⟩

/-- What refuses a forward to a user, whatever it draws: the devices, or an index that the
insert violates. -/
def Refused (r : Forward) (e : Err) (db : Db) : Prop :=
  routeDevices r.senderUserId r.senderDeviceId r.recipientUserId r.envelopes db = .error e ∨
    Routable r.senderUserId r.senderDeviceId r.recipientUserId r.envelopes db ∧
      e = .uniqueConstraint ∧
      ¬ (NumberFree (canonicalDirectPair r.senderUserId r.recipientUserId) db ∧
        (r.envelopes.map (·.recipientDeviceId)).Nodup)

/-- From a stored device an insert is refused by an index only. -/
theorem createMessage_refused {m : Message} {envelopes : List MessageEnvelope} {db : Db}
    (hdevice : ∃ d ∈ db.devices, d.id = m.senderDeviceId)
    (h : ¬ ∃ db', createMessage m envelopes db = .ok db') :
    createMessage m envelopes db = .error .uniqueConstraint := by
  have hany : db.devices.any (·.id == m.senderDeviceId) = true := by
    obtain ⟨d, hd, hid⟩ := hdevice
    exact List.any_eq_true.mpr ⟨d, hd, beq_iff_eq.mpr hid⟩
  unfold createMessage at h ⊢
  split
  · rfl
  · rename_i hnone
    rw [if_neg hnone, if_neg (by simp [hany])] at h
    rw [if_neg (by simp [hany])]
    split
    · rfl
    · rename_i rows hrows
      rw [hrows] at h
      exact absurd ⟨_, rfl⟩ h

section Direct

variable {ctx : Ctx} {r : Forward} {db : Db}

theorem forwardTx_refused (hc : Constrained db) (hd : Draws ctx db)
    (hnew : findByKey r.senderDeviceId r.idempotencyKey db = none) {e : Err} (h : Refused r e db) :
    r.tx ctx db = .error e := by
  unfold Forward.tx forwardTx
  rw [hd.undisturbed.exec .devices]
  rcases h with hroute | ⟨hroutable, rfl, hblocked⟩
  · show (routeDevices _ _ _ _ _ >>= _) = _
    rw [hroute]
    rfl
  · obtain ⟨db₁, hupsert, hincrement⟩ :=
      numbered_ok (canonicalDirectPair r.senderUserId r.recipientUserId) hc hd.threadId
    obtain ⟨d, hdmem, hdid, _⟩ := mem_activeDeviceIds.mp hroutable.device
    let thread := threadOf ctx.threadId (canonicalDirectPair r.senderUserId r.recipientUserId) db
    have hinsert : createMessage (forwardedMessage ctx r.senderUserId r.senderDeviceId
        r.idempotencyKey r.contentType thread (bump thread))
        (directEnvelopes ctx r.senderUserId r.recipientUserId (activeDeviceIds r.recipientUserId db)
          r.envelopes)
        (numbered ctx.threadId (canonicalDirectPair r.senderUserId r.recipientUserId) db) =
        .error .uniqueConstraint := by
      refine createMessage_refused ?_ ?_
      · exact ⟨d, hdmem, hdid⟩
      · rw [createNumbered_iff hc hd.toDrawn rfl rfl rfl rfl hnew ⟨d, hdmem, hdid⟩]
        exact hblocked
    show (routeDevices _ _ _ _ _ >>= _) = _
    rw [(routeDevices_iff hc.deviceIds).mpr ⟨hroutable, rfl⟩, hd.undisturbed.exec .threadUpsert,
      hd.undisturbed.exec .threadUpdate, hd.undisturbed.exec .messageCreate]
    show (upsertThread _ _ _ _ >>= _) = _
    rw [hupsert]
    show (incrementSequence _ _ >>= _) = _
    rw [hincrement]
    show (createMessage (forwardedMessage ctx r.senderUserId r.senderDeviceId r.idempotencyKey
      r.contentType thread (bump thread)) _ _ >>= _) = _
    rw [hinsert]
    rfl

theorem forwardTx_accepted (hc : Constrained db) (hd : Draws ctx db)
    (hnew : findByKey r.senderDeviceId r.idempotencyKey db = none)
    (hroutable : Routable r.senderUserId r.senderDeviceId r.recipientUserId r.envelopes db)
    (hnumber : NumberFree (canonicalDirectPair r.senderUserId r.recipientUserId) db)
    (honce : (r.envelopes.map (·.recipientDeviceId)).Nodup) :
    ∃ answer db', r.tx ctx db = .ok (answer, db') := by
  have hsendable : Sendable ctx.maxAttachments r.senderUserId r.asSend db :=
    { toRoutable := hroutable
      once := honce
      reply := fun id hid => by cases hid
      attachable := ⟨Nat.zero_le _, List.nodup_nil, fun id hid => by cases hid⟩ }
  have hsent : sendTx ctx r.senderUserId r.asSend db = .ok (_, _) :=
    (sendTx_iff hc hd.toDrawn hd.undisturbed hnew).mpr ⟨⟨hsendable, hnumber⟩, rfl, rfl⟩
  rw [forwardTx_eq hd.shared hd.toDrawnMedia, hsent]
  exact ⟨_, _, rfl⟩

/-- A forward to a user commits or is refused. -/
theorem forwardTx_outcome (hc : Constrained db) (hd : Draws ctx db)
    (hnew : findByKey r.senderDeviceId r.idempotencyKey db = none) :
    (∃ answer db', r.tx ctx db = .ok (answer, db')) ∨ ∃ e, r.tx ctx db = .error e ∧ Refused r e db := by
  have hrefused : ∀ e, Refused r e db → ∃ e, r.tx ctx db = .error e ∧ Refused r e db :=
    fun e h => ⟨e, forwardTx_refused hc hd hnew h, h⟩
  cases hroute : routeDevices r.senderUserId r.senderDeviceId r.recipientUserId r.envelopes db with
  | error e => exact Or.inr (hrefused e (Or.inl hroute))
  | ok ids =>
      obtain ⟨hroutable, _⟩ := (routeDevices_iff hc.deviceIds).mp hroute
      by_cases hfree : NumberFree (canonicalDirectPair r.senderUserId r.recipientUserId) db ∧
          (r.envelopes.map (·.recipientDeviceId)).Nodup
      · exact Or.inl (forwardTx_accepted hc hd hnew hroutable hfree.1 hfree.2)
      · exact Or.inr (hrefused _ (Or.inr ⟨hroutable, rfl, hfree⟩))

/-- What refused a target still refuses it after another one has been stored. -/
theorem Refused.kept {messageId senderDeviceId : Id} {key : String} {db' : Db} {m : Message} {e : Err}
    (h : Refused r e db) (hadds : Adds messageId senderDeviceId key db db' m) (hc : Constrained db)
    (hc' : Constrained db') : Refused r e db' := by
  have hroutes : routeDevices r.senderUserId r.senderDeviceId r.recipientUserId r.envelopes db' =
      routeDevices r.senderUserId r.senderDeviceId r.recipientUserId r.envelopes db := by
    unfold routeDevices
    rw [hadds.devices]
  rcases h with hroute | ⟨hroutable, he, hblocked⟩
  · exact Or.inl (hroutes.trans hroute)
  · have hroute := (routeDevices_iff hc.deviceIds).mpr ⟨hroutable, rfl⟩
    refine Or.inr ⟨((routeDevices_iff hc'.deviceIds).mp (hroutes.trans hroute)).1, he, ?_⟩
    intro ⟨hfree, honce⟩
    refine hblocked ⟨fun t ht hpair x hx hthread hnext => ?_, honce⟩
    obtain ⟨t', ht', hid, ha, hb, hcounter⟩ := hadds.threads t ht
    rcases hcounter with hsame | hnone
    · have hx' : x ∈ db'.messages := by
        rw [hadds.messages]
        exact List.mem_append_left _ hx
      refine hfree t' ht' ?_ x hx' (hthread.trans (congrArg some hid.symm)) (hnext.trans ?_)
      · rw [ha, hb]
        exact hpair
      · rw [hsame]
    · exact hnone x hx hthread hnext

end Direct

/-- A forward of a member to a group commits: nobody else takes the next number. -/
theorem groupTx_accepted {ctx : Ctx} {r : GroupRequest} {db : Db} {contentType : MessageContentType}
    {source : List MessageMedia} (hd : Draws ctx db)
    (hpayload : r.payload = .forward contentType source)
    (hnew : findByKey r.senderDeviceId r.idempotencyKey db = none)
    (hdevice : ∃ d ∈ db.devices, d.id = r.senderDeviceId) :
    ∃ db', commitGroupMessage ctx.now ctx.mediaId
        (groupMessage ctx.now ctx.messageId r (nextSequence r.groupId db) none) r db = .ok db' ∧
      groupTx ctx r db =
        .ok (groupMessage ctx.now ctx.messageId r (nextSequence r.groupId db) none, db') := by
  let m := groupMessage ctx.now ctx.messageId r (nextSequence r.groupId db) none
  obtain ⟨_, hsender, hkey⟩ := groupMessage_sender ctx.now ctx.messageId r
    (nextSequence r.groupId db) none
  have hid : m.id = ctx.messageId := groupMessage_id ..
  obtain ⟨db₁, hcreate⟩ : ∃ db₁, createMessage m [] db = .ok db₁ := by
    rw [createMessage_iff]
    refine ⟨fun x hx => messageClash_false.mpr ⟨?_, ?_, ?_, ?_⟩, ?_, ⟨_, rfl⟩⟩
    · rw [hid]
      exact (hd.messageId x hx).symm
    · intro he
      obtain ⟨hdev, hk⟩ := Prod.mk.inj he
      have hmiss := List.find?_eq_none.mp hnew x hx
      simp [← hdev, ← hk, m, hsender, hkey] at hmiss
    · intro id hthread
      rw [show m.threadId = none from groupMessage_thread _ _ _ _ _] at hthread
      cases hthread
    · intro id hgroup hxgroup
      rw [show m.groupId = some r.groupId from groupMessage_group _ _ _ _ _] at hgroup
      obtain rfl := Option.some.inj hgroup
      rw [show m.threadSequence = _ from groupMessage_sequence _ _ _ _ _]
      exact Nat.ne_of_gt (lt_nextSequence hx hxgroup)
    · obtain ⟨d, hdmem, hdid⟩ := hdevice
      rw [show m.senderDeviceId = r.senderDeviceId from hsender]
      exact List.any_eq_true.mpr ⟨d, hdmem, beq_iff_eq.mpr hdid⟩
  have hd₁ : DrawnMedia ctx db₁ := by
    obtain ⟨_, _, rfl⟩ := createMessage_ok hcreate
    exact ⟨hd.mediaId, hd.mediaIds⟩
  have hcommit : commitGroupMessage ctx.now ctx.mediaId m r db =
      .ok { db₁ with messageMedia := db₁.messageMedia ++ clonesFor ctx r.senderUserId source } := by
    unfold commitGroupMessage
    rw [hcreate, hpayload, hid]
    exact cloneMediaForForward_new hd₁ r.senderUserId source
  refine ⟨_, hcommit, ?_⟩
  unfold groupTx
  rw [hnew]
  show (commitGroupMessage ctx.now ctx.mediaId m r db >>= _) = _
  rw [hcommit]
  rfl

/-! ## How a target ended -/

/-- How a target ended, as the store shows it: its message is under its key, or what refuses
it is there. -/
inductive Settled (f : Forwarding) (key : String) (target : ForwardTargetDto) (db : Db) :
    Except Err Id → Prop
  | invalid {e : Err} (h : destination target = .error e) : Settled f key target db (.error e)
  | sent {recipientUserId : Id} {envelopes : List MessageEnvelopeDto} {m : Message}
      (h : destination target = .ok (.direct recipientUserId envelopes))
      (hfound : findByKey f.dto.senderDeviceId key db = some m) : Settled f key target db (.ok m.id)
  | queued {groupId : Id} {ciphertext : Ciphertext} {m : Message}
      (h : destination target = .ok (.group groupId ciphertext))
      (hmember : isMember groupId f.userId db = true)
      (hfound : findByKey f.dto.senderDeviceId key db = some m) : Settled f key target db (.ok m.id)
  | refused {recipientUserId : Id} {envelopes : List MessageEnvelopeDto} {e : Err}
      (h : destination target = .ok (.direct recipientUserId envelopes))
      (hnew : findByKey f.dto.senderDeviceId key db = none)
      (hrefused : Refused (directRequest f key recipientUserId envelopes) e db) :
      Settled f key target db (.error e)
  | outsider {groupId : Id} {ciphertext : Ciphertext}
      (h : destination target = .ok (.group groupId ciphertext))
      (hmember : isMember groupId f.userId db = false) :
      Settled f key target db (.error (.forbidden "You are not a member of this group"))

section Targets

variable {ctx : Ctx} {f : Forwarding} {key : String} {target : ForwardTargetDto} {s : Store}

/-- A settled target, asked for again, ends the same way and changes nothing. -/
theorem Settled.again {o : Except Err Id} (h : Settled f key target s.db o) (hc : Constrained s.db)
    (hd : Draws ctx s.db) : forwardTarget ctx f key target s = (o, s) := by
  unfold forwardTarget
  cases h with
  | invalid h => rw [h]
  | @sent recipientUserId envelopes m h hfound =>
      have hfound' : findByKey (directRequest f key recipientUserId envelopes).senderDeviceId
          (directRequest f key recipientUserId envelopes).idempotencyKey s.db = some m := hfound
      rw [h]
      unfold forwardToDirect idempotently
      dsimp only
      rw [hfound']
      rfl
  | @queued groupId ciphertext m h hmember hfound =>
      have hfound' : findByKey (groupRequest f key groupId ciphertext).senderDeviceId
          (groupRequest f key groupId ciphertext).idempotencyKey s.db = some m := hfound
      rw [h]
      show forwardToGroup ctx (groupRequest f key groupId ciphertext) s = _
      unfold forwardToGroup
      rw [if_neg (by simpa [groupRequest] using hmember), hfound']
  | @refused recipientUserId envelopes e h hnew hrefused =>
      have hnew' : findByKey (directRequest f key recipientUserId envelopes).senderDeviceId
          (directRequest f key recipientUserId envelopes).idempotencyKey s.db = none := hnew
      rw [h]
      unfold forwardToDirect
      dsimp only
      rw [idempotently_new hnew', forwardTx_refused hc hd hnew' hrefused]
  | @outsider groupId ciphertext h hmember =>
      rw [h]
      show forwardToGroup ctx (groupRequest f key groupId ciphertext) s = _
      unfold forwardToGroup
      rw [if_pos (by simpa [groupRequest] using hmember)]

theorem Settled.unmoved {o : Except Err Id} (h : Settled f key target s.db o)
    (hc : Constrained s.db) (hd : Draws ctx s.db) :
    Settled f key target (forwardTarget ctx f key target s).2.db
        (forwardTarget ctx f key target s).1 ∧
      (forwardTarget ctx f key target s).2 = s := by
  rw [h.again hc hd]
  exact ⟨h, rfl⟩

/-- A target ends with an error and no change, or has stored a message, or found one. -/
theorem forwardTarget_cases (key : String) (target : ForwardTargetDto) (hc : Constrained s.db)
    (hd : Draws ctx s.db) (hdevice : ∃ d ∈ s.db.devices, d.id = f.dto.senderDeviceId) :
    Settled f key target (forwardTarget ctx f key target s).2.db
        (forwardTarget ctx f key target s).1 ∧
      ((forwardTarget ctx f key target s).2 = s ∨
        ∃ m, Adds ctx.messageId f.dto.senderDeviceId key s.db
          (forwardTarget ctx f key target s).2.db m) := by
  cases hdest : destination target with
  | error e => exact (Settled.unmoved (.invalid hdest) hc hd).imp_right Or.inl
  | ok dest =>
      cases dest with
      | direct recipientUserId envelopes =>
          cases hfind : findByKey f.dto.senderDeviceId key s.db with
          | some m => exact (Settled.unmoved (.sent hdest hfind) hc hd).imp_right Or.inl
          | none =>
              let r := directRequest f key recipientUserId envelopes
              have hnew : findByKey r.senderDeviceId r.idempotencyKey s.db = none := hfind
              rcases forwardTx_outcome hc hd hnew with ⟨answer, db', htx⟩ | ⟨e, _, hrefused⟩
              · have hend : forwardTarget ctx f key target s =
                    (.ok answer.message.id, { s with db := db' }) := by
                  unfold forwardTarget
                  rw [hdest]
                  dsimp only
                  unfold forwardToDirect
                  rw [idempotently_new hnew, htx]
                have hadds := adds_direct hc htx
                rw [hend]
                exact ⟨.sent hdest hadds.found, Or.inr ⟨_, hadds⟩⟩
              · exact (Settled.unmoved (.refused hdest hfind hrefused) hc hd).imp_right Or.inl
      | group groupId ciphertext =>
          cases hmember : isMember groupId f.userId s.db with
          | false => exact (Settled.unmoved (.outsider hdest hmember) hc hd).imp_right Or.inl
          | true =>
              cases hfind : findByKey f.dto.senderDeviceId key s.db with
              | some m => exact (Settled.unmoved (.queued hdest hmember hfind) hc hd).imp_right Or.inl
              | none =>
                  let r := groupRequest f key groupId ciphertext
                  have hnew : findByKey r.senderDeviceId r.idempotencyKey s.db = none := hfind
                  obtain ⟨db', hcommit, htx⟩ := groupTx_accepted (r := r) hd rfl hnew hdevice
                  have hadds := adds_group hc rfl hcommit
                  let m := groupMessage ctx.now ctx.messageId r (nextSequence r.groupId s.db) none
                  have hend : forwardTarget ctx f key target s =
                      (.ok m.id, { db := db', jobs := s.jobs ++ [fanoutJob r m] }) := by
                    unfold forwardTarget
                    rw [hdest]
                    show forwardToGroup ctx r s = _
                    unfold forwardToGroup atomically
                    rw [if_neg (by simpa [r, groupRequest] using hmember), hnew, htx]
                  rw [hend]
                  refine ⟨.queued hdest ?_ hadds.found, Or.inr ⟨_, hadds⟩⟩
                  unfold isMember at hmember ⊢
                  rw [hadds.members]
                  exact hmember

/-- A target that fails leaves the store and the queue alone. -/
theorem forwardTarget_error {e : Err} (h : (forwardTarget ctx f key target s).1 = .error e) :
    (forwardTarget ctx f key target s).2 = s := by
  unfold forwardTarget at h ⊢
  cases hdest : destination target with
  | error e => rfl
  | ok dest =>
      rw [hdest] at h
      cases dest with
      | direct recipientUserId envelopes =>
          dsimp only at h ⊢
          unfold forwardToDirect at h ⊢
          rcases idempotently_cases (directRequest f key recipientUserId envelopes).senderDeviceId
            (directRequest f key recipientUserId envelopes).idempotencyKey
            ((directRequest f key recipientUserId envelopes).tx ctx) s.db with
            ⟨r, db', _, hend⟩ | ⟨hsame, _⟩
          · rw [hend] at h
            cases h
          · split
            · rename_i hend
              rw [hend] at h
              cases h
            · rename_i hend
              rw [hend] at hsame
              exact congrArg (fun db => ({ db, jobs := s.jobs } : Store)) hsame
      | group groupId ciphertext =>
          dsimp only at h ⊢
          unfold forwardToGroup atomically at h ⊢
          split
          · rfl
          · rename_i hmember
            rw [if_neg hmember] at h
            split
            · rfl
            · rename_i hfind
              rw [hfind] at h
              cases htx : groupTx ctx (groupRequest f key groupId ciphertext) s.db with
              | error e => rfl
              | ok p =>
                  rw [htx] at h
                  cases h

end Targets

/-! ## What the other targets leave in place -/

section Kept

variable {f : Forwarding} {key key' : String} {target : ForwardTargetDto} {messageId : Id} {db db' : Db}
  {m : Message} {o : Except Err Id}

theorem Settled.kept (h : Settled f key target db o)
    (hadds : Adds messageId f.dto.senderDeviceId key' db db' m) (hother : key' ≠ key)
    (hc : Constrained db) (hc' : Constrained db') : Settled f key target db' o := by
  have hmembers : ∀ groupId, isMember groupId f.userId db' = isMember groupId f.userId db := by
    intro groupId
    unfold isMember
    rw [hadds.members]
  cases h with
  | invalid h => exact .invalid h
  | sent h hfound => exact .sent h (findByKey_append hadds.messages hfound)
  | queued h hmember hfound =>
      exact .queued h ((hmembers _).trans hmember) (findByKey_append hadds.messages hfound)
  | refused h hnew hrefused =>
      refine .refused h ?_ (hrefused.kept hadds hc hc')
      unfold findByKey at hnew ⊢
      rw [hadds.messages, List.find?_append, hnew, Option.none_or]
      simp [hadds.key, hother]
  | outsider h hmember => exact .outsider h ((hmembers _).trans hmember)

/-- Who takes part in the conversation of a stored message stays. -/
theorem hasAccess_kept {userId senderDeviceId : Id} {x : Message} (hx : x ∈ db.messages)
    (h : hasAccess userId x db = .ok ()) (hadds : Adds messageId senderDeviceId key db db' m)
    (hc : Constrained db) (hc' : Constrained db') : hasAccess userId x db' = .ok () := by
  unfold hasAccess at h ⊢
  cases hthread : x.threadId with
  | none =>
      rw [hthread] at h
      unfold isMember at h ⊢
      rw [hadds.members]
      cases hgroup : x.groupId with
      | none => rfl
      | some groupId =>
          rw [hgroup] at h
          exact h
  | some id =>
      rw [hthread] at h
      obtain ⟨t, ht, rfl⟩ := hc.messageThreads x hx id hthread
      obtain ⟨t', ht', hid, ha, hb, _⟩ := hadds.threads t ht
      have hfind := hc.threadIds.find?_eq ht
      have hfind' := hc'.threadIds.find?_eq ht'
      dsimp only at h hfind hfind' ⊢
      rw [hfind] at h
      rw [hid] at hfind'
      rw [hfind']
      simpa only [Option.any_some, ha, hb] using h

/-- The start of the request reads nothing that a target changes. -/
theorem startForward_kept {userId : Id} {dto : ForwardMessageDto}
    (h : startForward userId dto db = .ok f) {senderDeviceId : Id}
    (hadds : Adds messageId senderDeviceId key db db' m) (hc : Constrained db)
    (hc' : Constrained db') : startForward userId dto db' = .ok f := by
  unfold startForward at h ⊢
  obtain ⟨_, hdevice, h⟩ := bind_ok.mp h
  obtain ⟨source, haccess, h⟩ := bind_ok.mp h
  unfold assertMessageAccess at haccess
  cases hfind : db.messages.find? (·.id == dto.sourceMessageId) with
  | none =>
      rw [hfind] at haccess
      cases haccess
  | some x =>
      rw [hfind] at haccess
      obtain ⟨_, hpart, hx⟩ := bind_ok.mp haccess
      obtain rfl := Except.ok.inj hx
      have hmem := List.mem_of_find?_eq_some hfind
      have hid : x.id = dto.sourceMessageId := by simpa using List.find?_some hfind
      have hfind' : db'.messages.find? (·.id == dto.sourceMessageId) = some x := by
        rw [hadds.messages, List.find?_append, hfind]
        rfl
      -- the copies are bound to the new message, which is not the source
      have hmedia : db'.messageMedia.filter (·.messageId == some dto.sourceMessageId) =
          db.messageMedia.filter (·.messageId == some dto.sourceMessageId) := by
        obtain ⟨new, hrows, hbound⟩ := hadds.media
        rw [hrows, Rows.filter_append_of_ne]
        intro c hcopy hto
        rw [hbound c hcopy] at hto
        have hown : m.id = x.id := by
          rw [hid]
          exact Option.some.inj hto
        exact (messageClash_false.mp (hadds.clash x hmem)).1 hown
      refine bind_ok.mpr ⟨(), ?_, bind_ok.mpr ⟨x, ?_, ?_⟩⟩
      · unfold assertActiveDevice at hdevice ⊢
        rw [hadds.devices]
        exact hdevice
      · unfold assertMessageAccess
        rw [hfind']
        exact bind_ok.mpr ⟨(), hasAccess_kept hmem hpart hadds hc hc', rfl⟩
      · rw [hmedia]
        exact h

end Kept

/-! ## The whole request -/

/-- Target `i` by itself, under its own key, on the store left by the ones before it. -/
def aloneAt (ctx : Nat → Ctx) (f : Forwarding) (s : Store) (i : Nat) (target : ForwardTargetDto) :
    Except Err Id × Store :=
  forwardTarget (ctx i) f (f.dto.perTargetKey i) target (leftBy (targetSteps ctx f) s i)

/-- What holds of the store while the targets are run. -/
structure Between (userId : Id) (f : Forwarding) (db : Db) : Prop where
  constrained : Constrained db
  start : startForward userId f.dto db = .ok f

theorem Between.device {userId : Id} {f : Forwarding} {db : Db} (h : Between userId f db) :
    ∃ d ∈ db.devices, d.id = f.dto.senderDeviceId := by
  obtain ⟨_, _, _, hdevice⟩ := startForward_ok h.start
  have hany := ensure_ok.mp hdevice
  obtain ⟨d, hd, hsel⟩ := List.any_eq_true.mp hany
  simp only [Bool.and_eq_true, beq_iff_eq] at hsel
  exact ⟨d, hd, hsel.1.1⟩

section Whole

variable {ctx : Nat → Ctx} {userId : Id} {dto : ForwardMessageDto} {s : Store} {f : Forwarding}

theorem targetSteps_length (ctx : Nat → Ctx) (f : Forwarding) :
    (targetSteps ctx f).length = f.dto.targets.length := by
  unfold targetSteps
  rw [List.length_map, List.length_zipIdx]

theorem targetSteps_some {i : Nat} {step : Store → Except Err Id × Store}
    (h : (targetSteps ctx f)[i]? = some step) : ∃ target, f.dto.targets[i]? = some target ∧
      step = forwardTarget (ctx i) f (f.dto.perTargetKey i) target := by
  rw [targetSteps_getElem?, Option.map_eq_some_iff] at h
  obtain ⟨target, htarget, rfl⟩ := h
  exact ⟨target, htarget, rfl⟩

theorem leftBy_target {i : Nat} {target : ForwardTargetDto} (h : f.dto.targets[i]? = some target) :
    leftBy (targetSteps ctx f) s (i + 1) = (aloneAt ctx f s i target).2 := by
  apply leftBy_succ
  rw [targetSteps_getElem?, h]
  rfl

/-- Constraints and start hold between all targets. -/
theorem between_leftBy (hstart : startForward userId dto s.db = .ok f) (hc : Constrained s.db)
    (hdraws : ∀ i < dto.targets.length, Draws (ctx i) (leftBy (targetSteps ctx f) s i).db) :
    ∀ i ≤ dto.targets.length, Between userId f (leftBy (targetSteps ctx f) s i).db := by
  obtain ⟨_, hdto, _, _⟩ := startForward_ok hstart
  subst hdto
  rw [← targetSteps_length ctx f]
  apply leftBy_invariant (I := fun _ (s : Store) => Between userId f s.db)
  · exact ⟨hc, hstart⟩
  · intro i step hstep hbetween
    obtain ⟨target, htarget, rfl⟩ := targetSteps_some hstep
    have hi : i < f.dto.targets.length := (List.getElem?_eq_some_iff.mp htarget).1
    obtain ⟨_, hsame | ⟨m, hadds⟩⟩ := forwardTarget_cases (f.dto.perTargetKey i) target
      hbetween.constrained (hdraws i hi) hbetween.device
    · rw [hsame]
      exact hbetween
    · have hc' := hadds.constrained hbetween.constrained hbetween.device
      exact ⟨hc', startForward_kept hbetween.start hadds hbetween.constrained hc'⟩

theorem leftBy_targets : leftBy (targetSteps ctx f) s f.dto.targets.length =
    (runAll (targetSteps ctx f) s).2 := by
  rw [← leftBy_length, targetSteps_length]

/-- Every target settles in the store it leaves, later ones keep it settled, and a settled
target answers the same again: so the targets, run a second time, change nothing. -/
theorem targets_again {ctx' : Nat → Ctx} (hstart : startForward userId f.dto s.db = .ok f)
    (hc : Constrained s.db)
    (hdraws : ∀ i < f.dto.targets.length, Draws (ctx i) (leftBy (targetSteps ctx f) s i).db)
    (hdraws' : ∀ i < f.dto.targets.length, Draws (ctx' i) (runAll (targetSteps ctx f) s).2.db) :
    runAll (targetSteps ctx' f) (runAll (targetSteps ctx f) s).2 = runAll (targetSteps ctx f) s := by
  have hbetween := between_leftBy hstart hc hdraws
  have hlast := (hbetween f.dto.targets.length (Nat.le_refl _)).constrained
  rw [leftBy_targets] at hlast
  have hcases := fun i (hi : i < f.dto.targets.length) key target =>
    forwardTarget_cases key target (hbetween i (Nat.le_of_lt hi)).constrained (hdraws i hi)
      (hbetween i (Nat.le_of_lt hi)).device
  apply runAll_again (S := fun i o (s : Store) => ∀ target, f.dto.targets[i]? = some target →
    Settled f (f.dto.perTargetKey i) target s.db o)
  · rw [targetSteps_length, targetSteps_length]
  · intro i step hstep target htarget
    obtain ⟨target', htarget', rfl⟩ := targetSteps_some hstep
    obtain rfl := Option.some.inj (htarget.symm.trans htarget')
    have hi := (List.getElem?_eq_some_iff.mp htarget).1
    rw [leftBy_target htarget]
    exact (hcases i hi _ _).1
  · intro i j o hij hj hsettled target htarget
    rw [targetSteps_length] at hj
    have hj' := List.getElem?_eq_getElem hj
    have hother : f.dto.perTargetKey j ≠ f.dto.perTargetKey i := by
      intro he
      have hsame := perTargetKey_inj he
      omega
    have hafter := (hbetween (j + 1) hj).constrained
    rw [leftBy_target hj'] at hafter ⊢
    obtain ⟨_, hsame | ⟨m, hadds⟩⟩ := hcases j hj (f.dto.perTargetKey j) _
    · unfold aloneAt
      rw [hsame]
      exact hsettled target htarget
    · exact (hsettled target htarget).kept hadds hother
        (hbetween j (Nat.le_of_lt hj)).constrained hafter
  · intro i step o hstep hsettled
    obtain ⟨target, htarget, rfl⟩ := targetSteps_some hstep
    have hi := (List.getElem?_eq_some_iff.mp htarget).1
    exact (hsettled target htarget).again hlast (hdraws' i hi)

/-- Forwarding to the targets of a request, one by one: an entry for each target, in their
order, that tells how the target ends by itself on the store left by the ones before it; a
target that fails changes nothing, and the store is what the others add, one after another.
The same request, run again with new draws, gives the same entries and changes nothing. -/
theorem forward_targets (hstart : startForward userId dto s.db = .ok f) :
    (∃ results, forward ctx userId dto s =
        (.ok results, leftBy (targetSteps ctx f) s dto.targets.length) ∧
      results.length = dto.targets.length ∧
      ∀ i target, dto.targets[i]? = some target →
        (∃ entry, results[i]? = some entry ∧ entry = target.result (aloneAt ctx f s i target).1 ∧
          (entry.success = true ↔ ∃ id, (aloneAt ctx f s i target).1 = .ok id)) ∧
        leftBy (targetSteps ctx f) s (i + 1) = (aloneAt ctx f s i target).2 ∧
        ∀ e, (aloneAt ctx f s i target).1 = .error e →
          leftBy (targetSteps ctx f) s (i + 1) = leftBy (targetSteps ctx f) s i) ∧
    ∀ ctx' : Nat → Ctx, Constrained s.db →
      (∀ i < dto.targets.length, Draws (ctx i) (leftBy (targetSteps ctx f) s i).db) →
      (∀ i < dto.targets.length, Draws (ctx' i) (forward ctx userId dto s).2.db) →
      forward ctx' userId dto (forward ctx userId dto s).2 = forward ctx userId dto s := by
  obtain ⟨_, hdto, _, _⟩ := startForward_ok hstart
  subst hdto
  have hforward : forward ctx userId f.dto s = _ := forward_eq hstart
  constructor
  · refine ⟨_, hforward.trans (by rw [leftBy_targets]), ?_, ?_⟩
    · rw [List.length_zipWith, runAll_length, targetSteps_length, Nat.min_self]
    · intro i target htarget
      have hanswer : (runAll (targetSteps ctx f) s).1[i]? = some (aloneAt ctx f s i target).1 := by
        rw [runAll_getElem?, targetSteps_getElem?, htarget]
        rfl
      refine ⟨⟨target.result (aloneAt ctx f s i target).1, ?_, rfl, ?_⟩, leftBy_target htarget, ?_⟩
      · rw [List.getElem?_zipWith, htarget, hanswer]
      · cases (aloneAt ctx f s i target).1 with
        | ok id => exact iff_of_true rfl ⟨id, rfl⟩
        | error e =>
            refine iff_of_false Bool.false_ne_true ?_
            intro ⟨id, h⟩
            cases h
      · intro e he
        rw [leftBy_target htarget]
        exact forwardTarget_error he
  · intro ctx' hc hdraws hdraws'
    have hfinal : (forward ctx userId f.dto s).2 = (runAll (targetSteps ctx f) s).2 := by
      rw [hforward]
    rw [hfinal] at hdraws' ⊢
    have hlast := between_leftBy hstart hc hdraws f.dto.targets.length (Nat.le_refl _)
    rw [leftBy_targets] at hlast
    rw [hforward, forward_eq hlast.start, targets_again hstart hc hdraws hdraws']

end Whole

/-! ## Two targets, one of them refused -/

/-- A chat of Alice and Bob with one message. -/
def chatDb : Db :=
  { behindDb with
    directThreads := [{ id := "t1", userAId := "alice", userBId := "bob", latestSequence := 1 }] }

/-- Draws ids that begin with a letter of their own. -/
def letterCtx (c : Char) : Ctx :=
  { now := 10, messageId := String.ofList [c, 'm'], threadId := String.ofList [c, 't']
    envelopeId := fun i => String.ofList (c :: List.replicate i 'e')
    mediaId := fun i => String.ofList (c :: List.replicate i 'p') }

/-- No stored id begins with the letter. -/
def Unused (c : Char) (db : Db) : Prop :=
  (∀ m ∈ db.messages, m.id.toList.head? ≠ some c) ∧
  (∀ t ∈ db.directThreads, t.id.toList.head? ≠ some c) ∧
  (∀ e ∈ db.messageEnvelopes, e.id.toList.head? ≠ some c) ∧
  ∀ x ∈ db.messageMedia, x.id.toList.head? ≠ some c

instance (c : Char) (db : Db) : Decidable (Unused c db) :=
  inferInstanceAs (Decidable (_ ∧ _ ∧ _ ∧ _))

theorem letterCtx_draws {c : Char} {db : Db} (h : Unused c db) : Draws (letterCtx c) db := by
  obtain ⟨hmessages, hthreads, henvelopes, hmedia⟩ := h
  have hhead : ∀ (id : Id) (rest : List Char), id.toList.head? ≠ some c →
      id ≠ String.ofList (c :: rest) := by
    intro id rest hid he
    rw [he] at hid
    simp at hid
  have hids : ∀ last : Char,
      Function.Injective fun i => String.ofList (c :: List.replicate i last) := by
    intro last i j he
    have hchars : c :: List.replicate i last = c :: List.replicate j last :=
      String.ofList_injective he
    simpa using congrArg List.length hchars
  exact
    { messageId := fun m hm => hhead m.id _ (hmessages m hm)
      threadId := fun t ht => hhead t.id _ (hthreads t ht)
      envelopeId := fun e he i => hhead e.id _ (henvelopes e he)
      envelopeIds := hids 'e'
      mediaId := fun x hx i => hhead x.id _ (hmedia x hx)
      mediaIds := hids 'p'
      undisturbed := fun _ => rfl }

/-- Alice forwards Bob's message to a group she is not in, and back to him. -/
def twoTargets : ForwardMessageDto :=
  { sourceMessageId := "m1", senderDeviceId := "d1", idempotencyKey := "request"
    targets :=
      [{ type := .group, groupId := some "g1", ciphertext := some "c" },
       { type := .direct, recipientUserId := some "bob", envelopes := some [⟨"d2", "c"⟩] }] }

theorem chatDb_constrained : Constrained chatDb := by
  constructor <;> simp [chatDb, behindDb, pairDb, Rows.Unique]

/-- The first target is refused, the second one stored, and a repetition changes nothing. -/
theorem twoTargets_again :
    (∃ results, (forward (fun i => letterCtx (if i = 0 then 'x' else 'y')) "alice" twoTargets
        { db := chatDb, jobs := [] }).1 = .ok results ∧ results.map (·.success) = [false, true]) ∧
      forward (fun _ => letterCtx 'z') "alice" twoTargets
          (forward (fun i => letterCtx (if i = 0 then 'x' else 'y')) "alice" twoTargets
            { db := chatDb, jobs := [] }).2 =
        forward (fun i => letterCtx (if i = 0 then 'x' else 'y')) "alice" twoTargets
          { db := chatDb, jobs := [] } := by
  let f : Forwarding :=
    { userId := "alice", dto := twoTargets, sourceMedia := [], contentType := .text }
  have hstart : startForward "alice" twoTargets ({ db := chatDb, jobs := [] } : Store).db = .ok f := rfl
  constructor
  · exact ⟨_, rfl, by decide⟩
  · refine (forward_targets hstart).2 _ chatDb_constrained ?_ ?_
    · intro i hi
      have hi : i < 2 := hi
      rcases i with _ | _ | i
      · exact letterCtx_draws (by decide)
      · exact letterCtx_draws (by decide)
      · omega
    · intro i _
      exact letterCtx_draws (by decide)

end Birgap.Messaging
