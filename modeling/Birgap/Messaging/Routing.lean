import Birgap.Messaging.Idempotency

/-!
# Envelopes are routed to the owners of their devices

The recipient of an envelope is computed from the device checks of a direct message and from
the members of a group at fan-out time. Owner, sending device and uniqueness are right in
every run. A fan-out job normally belongs to a group message; the look-up inside a group
transaction can find a direct message under its key and adds a job for it, so the participants
of a thread are only safe along runs where it does not.
-/
namespace Birgap.Messaging

set_option autoImplicit false

open Birgap.Lib Birgap.Lib.Run Birgap.Messages Birgap.Groups Birgap.Auth

/-- Every envelope is addressed to the owner of its device, which is not the sending one, and
at most once for a message. -/
structure Addressed (db : Db) : Prop where
  owner : ∀ e ∈ db.messageEnvelopes,
    ∃ d ∈ db.devices, d.id = e.recipientDeviceId ∧ d.userId = e.recipientUserId
  otherDevice : ∀ e ∈ db.messageEnvelopes, ∀ m ∈ db.messages, m.id = e.messageId →
    e.recipientDeviceId ≠ m.senderDeviceId
  once : Rows.Unique (fun e => (e.messageId, e.recipientDeviceId)) db.messageEnvelopes

/-- A participant of a stored thread. -/
def TakesPart (db : Db) (threadId userId : Id) : Prop :=
  ∃ t ∈ db.directThreads, t.id = threadId ∧ (userId = t.userAId ∨ userId = t.userBId)

/-- The envelopes of a direct message go to participants of its thread. -/
def ParticipantsOnly (db : Db) : Prop :=
  ∀ e ∈ db.messageEnvelopes, ∀ m ∈ db.messages, m.id = e.messageId →
    ∀ threadId, m.threadId = some threadId → TakesPart db threadId e.recipientUserId

/-- The look-up inside a group transaction finds no message of a direct thread. -/
def NoDirectDuplicate (s : State) : Act → Prop
  | .txCheck pid =>
      match s.calls pid with
      | .entered t =>
          ∀ m, findByKey t.request.senderDeviceId t.request.idempotencyKey s.db = some m →
            m.threadId = none
      | _ => True
  | _ => True

/-- What holds of one envelope, with its message named; `inOrder` says whether the run has
kept to `NoDirectDuplicate`, and only the participants depend on it. -/
structure RoutedEnvelope (inOrder : Prop) (db : Db) (e : MessageEnvelope) : Prop where
  owner : ∃ d ∈ db.devices, d.id = e.recipientDeviceId ∧ d.userId = e.recipientUserId
  message : ∃ m ∈ db.messages, m.id = e.messageId ∧ e.recipientDeviceId ≠ m.senderDeviceId ∧
    (inOrder → ∀ threadId, m.threadId = some threadId → TakesPart db threadId e.recipientUserId)

/-- A message that was sent from the given device, in order one outside of all threads. -/
def SentFrom (inOrder : Prop) (db : Db) (messageId senderDeviceId : Id) : Prop :=
  ∃ m ∈ db.messages, m.id = messageId ∧ m.senderDeviceId = senderDeviceId ∧
    (inOrder → m.threadId = none)

/-- A call about to add a job has such a message of its device. -/
def AddsSent (inOrder : Prop) (db : Db) : Call → Prop
  | .enqueueing t m => SentFrom inOrder db m.id t.request.senderDeviceId
  | _ => True

structure RoutingInv (inOrder : Prop) (s : State) : Prop where
  devices : Devices.DeviceKeys s.db
  ids : Rows.Unique (·.id) s.db.messages
  once : Rows.Unique (fun e => (e.messageId, e.recipientDeviceId)) s.db.messageEnvelopes
  routed : ∀ e ∈ s.db.messageEnvelopes, RoutedEnvelope inOrder s.db e
  jobs : ∀ job ∈ s.jobs, SentFrom inOrder s.db job.messageId job.senderDeviceId
  calls : ∀ pid, AddsSent inOrder s.db (s.calls pid)

theorem start_routingInv (inOrder : Prop) {db : Db} (hk : Rows.Unique (·.id) db.devices) :
    RoutingInv inOrder (start db) := by
  refine ⟨hk, List.nodup_nil, List.nodup_nil, ?_, ?_, fun _ => trivial⟩
  · intro e he
    cases he
  · intro job hjob
    cases hjob

theorem RoutingInv.addressed {inOrder : Prop} {s : State} (h : RoutingInv inOrder s) :
    Addressed s.db := by
  refine ⟨fun e he => (h.routed e he).owner, ?_, h.once⟩
  intro e he m hm hid
  obtain ⟨x, hx, hxid, hne, _⟩ := (h.routed e he).message
  rw [h.ids.eq hm hx (hid.trans hxid.symm)]
  exact hne

theorem RoutingInv.participantsOnly {s : State} (h : RoutingInv True s) : ParticipantsOnly s.db := by
  intro e he m hm hid threadId hthread
  obtain ⟨x, hx, hxid, _, hpart⟩ := (h.routed e he).message
  rw [h.ids.eq hm hx (hid.trans hxid.symm)] at hthread
  exact hpart trivial threadId hthread

section Threads

variable {threadId : Id} {pair : Id × Id} {m : Message} {envelopes : List MessageEnvelope}
  {db db' : Db}

/-- Posting a message keeps every thread with its id and its pair. -/
theorem posted_thread_kept (h : Posted threadId pair m envelopes db db') {t : DirectThread}
    (ht : t ∈ db.directThreads) :
    ∃ t' ∈ db'.directThreads, (t'.id, t'.userAId, t'.userBId) = (t.id, t.userAId, t.userBId) := by
  obtain ⟨thread, x, db₁, media, hu, _, _, _, _, _, _, _, rfl⟩ := h
  have ht₁ : t ∈ db₁.directThreads := by
    obtain ⟨_, _, _, rfl⟩ | ⟨_, _, _, rfl⟩ := upsertThread_ok hu
    · exact ht
    · exact List.mem_append_left _ ht
  exact Rows.updateMany_kept (p := (·.id == thread.id)) (f := bump)
    (k := fun t => (t.id, t.userAId, t.userBId)) (fun _ => rfl) ht₁

/-- The thread of the posted message is stored with the pair. -/
theorem posted_thread (h : Posted threadId pair m envelopes db db') :
    ∃ t ∈ db'.directThreads, m.threadId = some t.id ∧ (t.userAId, t.userBId) = pair := by
  obtain ⟨thread, x, db₁, media, hu, _, _, hthread, _, _, _, _, rfl⟩ := h
  have hstored : thread ∈ db₁.directThreads ∧ thread.userAId = pair.1 ∧ thread.userBId = pair.2 := by
    obtain ⟨ht, ha, hb, rfl⟩ | ⟨_, _, rfl, rfl⟩ := upsertThread_ok hu
    · exact ⟨ht, ha, hb⟩
    · exact ⟨List.mem_append_right _ (List.mem_singleton_self _), rfl, rfl⟩
  obtain ⟨ht, ha, hb⟩ := hstored
  obtain ⟨t', ht', hkey⟩ := Rows.updateMany_kept (p := (·.id == thread.id)) (f := bump)
    (k := fun t => (t.id, t.userAId, t.userBId)) (fun _ => rfl) ht
  simp only [Prod.mk.injEq] at hkey
  refine ⟨t', ht', ?_, ?_⟩
  · rw [hkey.1]
    exact hthread
  · rw [hkey.2.1, hkey.2.2, ha, hb]

/-- Both users of the pair take part in the thread of the posted message. -/
theorem posted_takesPart_pair (h : Posted threadId pair m envelopes db db') {id userId : Id}
    (hid : m.threadId = some id) (hpair : userId = pair.1 ∨ userId = pair.2) :
    TakesPart db' id userId := by
  obtain ⟨t, ht, hthread, rfl⟩ := posted_thread h
  exact ⟨t, ht, Option.some.inj (hthread.symm.trans hid), hpair⟩

end Threads

/-- Ordering a pair keeps its two users. -/
theorem canonicalDirectPair_mem {a b x : Id} (h : x = b ∨ x = a) :
    x = (canonicalDirectPair a b).1 ∨ x = (canonicalDirectPair a b).2 := by
  unfold canonicalDirectPair
  split
  · exact h.symm
  · split
    · exact h.symm
    · exact h

section Kept

variable {env : AuthEnv} {configuredMax : Option Int} {s : State} {a : Act}
  {o : State × Option Returned}

/-- No step removes a thread or changes its pair. -/
theorem Effect.thread_kept (he : Effect env configuredMax s a o) {t : DirectThread}
    (ht : t ∈ s.db.directThreads) :
    ∃ t' ∈ o.1.db.directThreads, (t'.id, t'.userAId, t'.userBId) = (t.id, t.userAId, t.userBId) := by
  rcases he.inserts with hsame | ⟨m, hm⟩
  · rw [hsame.threads]
    exact ⟨t, ht, rfl⟩
  · cases hm with
    | posted hc htx =>
        obtain ⟨_, _, _, _, _, hp⟩ := DirectTask.tx_ok htx
        exact posted_thread_kept hp ht
    | committed hc hdb =>
        obtain ⟨_, hrow⟩ := commitGroupMessage_eq hdb
        rw [hrow]
        exact ⟨t, ht, rfl⟩

theorem Effect.takesPart_kept (he : Effect env configuredMax s a o) {id userId : Id}
    (ht : TakesPart s.db id userId) : TakesPart o.1.db id userId := by
  obtain ⟨t, ht, hid, hpart⟩ := ht
  obtain ⟨t', ht', hkey⟩ := he.thread_kept ht
  simp only [Prod.mk.injEq] at hkey
  refine ⟨t', ht', hkey.1.trans hid, ?_⟩
  rw [hkey.2.1, hkey.2.2]
  exact hpart

/-- Owners, messages and threads only grow, so a routed envelope stays routed. -/
theorem Effect.routedEnvelope_kept (he : Effect env configuredMax s a o)
    (hk : Devices.DeviceKeys s.db) {inOrder : Prop} {e : MessageEnvelope}
    (h : RoutedEnvelope inOrder s.db e) : RoutedEnvelope inOrder o.1.db e := by
  refine ⟨he.owner_kept hk h.owner, ?_⟩
  obtain ⟨m, hm, hid, hne, hpart⟩ := h.message
  refine ⟨m, he.messages_kept m hm, hid, hne, ?_⟩
  intro hin threadId ht
  exact he.takesPart_kept (hpart hin threadId ht)

theorem Effect.sentFrom_kept (he : Effect env configuredMax s a o) {inOrder : Prop}
    {messageId senderDeviceId : Id} (h : SentFrom inOrder s.db messageId senderDeviceId) :
    SentFrom inOrder o.1.db messageId senderDeviceId := by
  obtain ⟨m, hm, hrest⟩ := h
  exact ⟨m, he.messages_kept m hm, hrest⟩

theorem Effect.addsSent_kept (he : Effect env configuredMax s a o) {inOrder : Prop} {c : Call}
    (h : AddsSent inOrder s.db c) : AddsSent inOrder o.1.db c := by
  cases c with
  | enqueueing t m => exact he.sentFrom_kept h
  | _ => trivial

end Kept

/-- The envelopes of a direct message are addressed to the sender or the recipient, whoever
owns the device, and never to the sending device. -/
theorem mem_directEnvelopes_routed {ctx : Ctx} {senderUserId senderDeviceId recipientUserId : Id}
    {ids : List Id} {envelopes : List MessageEnvelopeDto} {db : Db} {e : MessageEnvelope}
    (hk : Devices.DeviceKeys db)
    (hroute : routeDevices senderUserId senderDeviceId recipientUserId envelopes db = .ok ids)
    (he : e ∈ directEnvelopes ctx senderUserId recipientUserId ids envelopes) :
    e.messageId = ctx.messageId ∧
      (e.recipientUserId = recipientUserId ∨ e.recipientUserId = senderUserId) ∧
      (∃ d ∈ db.devices, d.id = e.recipientDeviceId ∧ d.userId = e.recipientUserId) ∧
      e.recipientDeviceId ≠ senderDeviceId := by
  obtain ⟨⟨sender, hsender, hsid, hsown, _⟩, hne, hids, hall⟩ := routeDevices_ok hroute
  obtain ⟨⟨x, i⟩, hx, rfl⟩ := List.mem_map.mp he
  have hxm : x ∈ envelopes := List.fst_mem_of_mem_zipIdx hx
  by_cases hin : x.recipientDeviceId ∈ ids
  · obtain ⟨d, hd, hid, hown⟩ := hids _ hin
    simp only [List.contains_iff_mem.mpr hin, if_true]
    refine ⟨trivial, Or.inl trivial, ⟨d, hd, hid, hown⟩, ?_⟩
    intro hsame
    obtain rfl := hk.eq hd hsender (hid.trans (hsame.trans hsid.symm))
    exact hne (hsown.symm.trans hown)
  · rcases hall x hxm with hin' | ⟨d, hd, hid, hown, hdne⟩
    · exact absurd hin' hin
    · have hcontains : ids.contains x.recipientDeviceId = false := by simpa using hin
      simp only [hcontains, Bool.false_eq_true, if_false]
      refine ⟨trivial, Or.inr trivial, ⟨d, hd, hid, hown⟩, ?_⟩
      rw [← hid]
      exact hdne

/-- The envelopes of a fan-out are addressed to the owners of other devices. -/
theorem mem_fanout_routed {now : Time} {envelopeId : Nat → Id} {job : GroupFanoutJobData} {db : Db}
    {e : MessageEnvelope} (he : e ∈ (Groups.fanout now envelopeId job db).2.messageEnvelopes) :
    e ∈ db.messageEnvelopes ∨
      (e.messageId = job.messageId ∧
        (∃ d ∈ db.devices, d.id = e.recipientDeviceId ∧ d.userId = e.recipientUserId) ∧
        e.recipientDeviceId ≠ job.senderDeviceId) := by
  unfold Groups.fanout at he
  dsimp only at he
  split at he
  · exact Or.inl he
  · split at he
    · exact Or.inl he
    · refine (Rows.mem_createManySkip he).imp_right ?_
      intro hnew
      obtain ⟨⟨d, i⟩, hd, rfl⟩ := List.mem_map.mp hnew
      obtain ⟨hdm, hsel⟩ := List.mem_filter.mp (List.fst_mem_of_mem_zipIdx hd)
      simp only [Bool.and_eq_true, bne_iff_ne] at hsel
      exact ⟨rfl, ⟨d, hdm, rfl, rfl⟩, hsel.2⟩

theorem fanout_once (now : Time) (envelopeId : Nat → Id) (job : GroupFanoutJobData) {db : Db}
    (h : Rows.Unique (fun e => (e.messageId, e.recipientDeviceId)) db.messageEnvelopes) :
    Rows.Unique (fun e => (e.messageId, e.recipientDeviceId))
      (Groups.fanout now envelopeId job db).2.messageEnvelopes := by
  unfold Groups.fanout
  dsimp only
  split
  · exact h
  · split
    · exact h
    · exact Rows.unique_createManySkip envelopeClash_device h

/-- The look-up inside a group transaction finds a message of its own device. -/
theorem Moves.addsSent {s : State} {a : Act} {c c' : Call} {r : Option Returned} {inOrder : Prop}
    (h : Moves s a c c' r) (hin : inOrder → NoDirectDuplicate s a) : AddsSent inOrder s.db c' := by
  cases h with
  | @enqueueing t m hc ha hm =>
      have hsel := List.find?_some hm
      simp only [Bool.and_eq_true, beq_iff_eq] at hsel
      refine ⟨m, List.mem_of_find?_eq_some hm, rfl, hsel.1, ?_⟩
      intro ho
      obtain ⟨pid, rfl, hp⟩ := ha
      have hno := hin ho
      simp only [NoDirectDuplicate, hp] at hno
      exact hno m hm
  | _ => trivial

/-- The new envelopes of a direct message are routed in the store it leaves. -/
theorem posted_routed {inOrder : Prop} {ctx : Ctx} {t : DirectTask} {recipientUserId : Id}
    {envelopes : List MessageEnvelopeDto} {ids : List Id} {m : Message} {db db' : Db}
    (hk : Devices.DeviceKeys db)
    (hroute : routeDevices t.senderUserId t.senderDeviceId recipientUserId envelopes db = .ok ids)
    (hw : WrittenFrom ctx.messageId t.senderUserId t.senderDeviceId t.idempotencyKey db m)
    (hp : Posted ctx.threadId (canonicalDirectPair t.senderUserId recipientUserId) m
      (directEnvelopes ctx t.senderUserId recipientUserId ids envelopes) db db') :
    ∀ e ∈ directEnvelopes ctx t.senderUserId recipientUserId ids envelopes,
      RoutedEnvelope inOrder db' e := by
  intro e he
  obtain ⟨hid, huser, howner, hne⟩ := mem_directEnvelopes_routed hk hroute he
  obtain ⟨_, hmsgs, _, _⟩ := hp.messages
  have hdevices : db'.devices = db.devices := by
    obtain ⟨_, _, _, _, _, _, _, _, _, _, _, _, rfl⟩ := hp
    rfl
  refine ⟨by rw [hdevices]; exact howner, m, ?_, hw.id.trans hid.symm, ?_, ?_⟩
  · rw [hmsgs]
    exact List.mem_append_right _ (List.mem_singleton_self m)
  · rw [hw.device]
    exact hne
  · intro _ threadId hthread
    exact posted_takesPart_pair hp hthread (canonicalDirectPair_mem huser)

/-- A job sends the message of its device to other devices. -/
theorem SentFrom.routed {inOrder : Prop} {db : Db} {job : GroupFanoutJobData} {e : MessageEnvelope}
    (h : SentFrom inOrder db job.messageId job.senderDeviceId) (hid : e.messageId = job.messageId)
    (howner : ∃ d ∈ db.devices, d.id = e.recipientDeviceId ∧ d.userId = e.recipientUserId)
    (hne : e.recipientDeviceId ≠ job.senderDeviceId) : RoutedEnvelope inOrder db e := by
  obtain ⟨m, hm, hmid, hdevice, hthread⟩ := h
  refine ⟨howner, m, hm, hmid.trans hid.symm, by rw [hdevice]; exact hne, ?_⟩
  intro hin threadId ht
  rw [hthread hin] at ht
  cases ht

theorem fanoutJob_device (r : GroupRequest) (m : Message) :
    (fanoutJob r m).senderDeviceId = r.senderDeviceId := by
  unfold fanoutJob
  cases r.payload <;> rfl

section Preserved

variable {env : AuthEnv} {configuredMax : Option Int} {s : State} {a : Act}
  {o : State × Option Returned} {inOrder : Prop}

/-- Only a direct transaction and a fan-out write envelopes. -/
theorem Effect.envelopes (he : Effect env configuredMax s a o) :
    o.1.db.messageEnvelopes = s.db.messageEnvelopes ∨
    (∃ (t : DirectTask) (ctx : Ctx) (created : Serialized), t.tx ctx s.db = .ok (created, o.1.db)) ∨
    ∃ job ∈ s.jobs, ∃ now envelopeId, o.1.db = (Groups.fanout now envelopeId job s.db).2 := by
  cases he with
  | stay => exact Or.inl rfl
  | moved hm => exact Or.inl rfl
  | enqueued hc => exact Or.inl rfl
  | @posted pid t ctx created db hc htx => exact Or.inr (Or.inl ⟨t, ctx, created, htx⟩)
  | committed hc hdb =>
      obtain ⟨_, _, henv, _⟩ := commitGroupMessage_ok hdb
      exact Or.inl henv
  | @fannedOut index now envelopeId job hjob =>
      exact Or.inr (Or.inr ⟨job, hjob, now, envelopeId, rfl⟩)
  | @device op =>
      obtain ⟨devices, tokens, hf⟩ := Devices.step_frame env configuredMax s.db op
      rw [hf]
      exact Or.inl rfl

theorem Effect.once_kept (he : Effect env configuredMax s a o)
    (h : Rows.Unique (fun e => (e.messageId, e.recipientDeviceId)) s.db.messageEnvelopes) :
    Rows.Unique (fun e => (e.messageId, e.recipientDeviceId)) o.1.db.messageEnvelopes := by
  rcases he.envelopes with hsame | ⟨t, ctx, created, htx⟩ | ⟨job, _, now, envelopeId, hf⟩
  · rw [hsame]
    exact h
  · obtain ⟨_, _, _, _, _, hp⟩ := DirectTask.tx_ok htx
    obtain ⟨_, hrows⟩ := hp.envelopes
    exact Rows.unique_insertAll envelopeClash_device hrows h
  · rw [hf]
    exact fanout_once now envelopeId job h

/-- The envelopes that were there stay routed, and the new ones are. -/
theorem Effect.routed_kept (he : Effect env configuredMax s a o) (h : RoutingInv inOrder s) :
    ∀ e ∈ o.1.db.messageEnvelopes, RoutedEnvelope inOrder o.1.db e := by
  intro e hm
  have hold : e ∈ s.db.messageEnvelopes → RoutedEnvelope inOrder o.1.db e := fun hin =>
    he.routedEnvelope_kept h.devices (h.routed e hin)
  rcases he.envelopes with hsame | ⟨t, ctx, created, htx⟩ | ⟨job, hjob, now, envelopeId, hf⟩
  · rw [hsame] at hm
    exact hold hm
  · obtain ⟨recipientUserId, envelopes, ids, hroute, hw, hp⟩ := DirectTask.tx_ok htx
    rw [hp.envelopes.1] at hm
    rcases List.mem_append.mp hm with hin | hnew
    · exact hold hin
    · exact posted_routed h.devices hroute hw hp e hnew
  · have hsent := he.sentFrom_kept (h.jobs job hjob)
    have hdevices : o.1.db.devices = s.db.devices := by
      obtain ⟨envelopes, hframe⟩ := fanout_frame now envelopeId job s.db
      rw [hf, hframe]
    rw [hf] at hm
    rcases mem_fanout_routed hm with hin | ⟨hid, howner, hne⟩
    · exact hold hin
    · rw [← hdevices] at howner
      exact hsent.routed hid howner hne

theorem Effect.jobs_sent (he : Effect env configuredMax s a o) (h : RoutingInv inOrder s) :
    ∀ job ∈ o.1.jobs, SentFrom inOrder o.1.db job.messageId job.senderDeviceId := by
  have hjobs : ∀ job ∈ s.jobs, SentFrom inOrder o.1.db job.messageId job.senderDeviceId :=
    fun job hj => he.sentFrom_kept (h.jobs job hj)
  cases he with
  | @enqueued pid t m hc =>
      intro job hj
      rcases List.mem_append.mp hj with hold | hnew
      · exact hjobs job hold
      · have hadd := h.calls pid
        rw [hc] at hadd
        rw [List.mem_singleton.mp hnew, fanoutJob_message, fanoutJob_device]
        exact hadd
  | _ => exact hjobs

theorem Effect.calls_sent (he : Effect env configuredMax s a o) (h : RoutingInv inOrder s)
    (hin : inOrder → NoDirectDuplicate s a) : ∀ pid, AddsSent inOrder o.1.db (o.1.calls pid) := by
  have hcalls : ∀ pid, AddsSent inOrder o.1.db (s.calls pid) := fun pid =>
    he.addsSent_kept (h.calls pid)
  cases he with
  | moved hm => exact State.set_calls hcalls (hm.addsSent hin)
  | @posted pid t ctx created db hc htx =>
      exact State.set_calls hcalls (t.settle_call trivial (fun _ => trivial) (.ok created))
  | @committed pid t sequence replyTo now messageId mediaId db hc hdb =>
      obtain ⟨_, hmsgs, _, _⟩ := commitGroupMessage_ok hdb
      have hmem : groupMessage now messageId t.request sequence replyTo ∈ db.messages := by
        rw [hmsgs]
        exact List.mem_append_right _ (List.mem_singleton_self _)
      exact State.set_calls hcalls ⟨_, hmem, rfl,
        (groupMessage_sender now messageId t.request sequence replyTo).2.1,
        fun _ => groupMessage_thread now messageId t.request sequence replyTo⟩
  | @enqueued pid t m hc =>
      exact State.set_calls hcalls (t.settle_call trivial (fun _ => trivial) (.ok (m.id, true)))
  | _ => exact hcalls

end Preserved

section Runs

variable (env : AuthEnv) (configuredMax : Option Int)

theorem step_routingInv {inOrder : Prop} (s : State) (a : Act) (h : RoutingInv inOrder s)
    (hin : inOrder → NoDirectDuplicate s a) : RoutingInv inOrder (step env configuredMax s a) := by
  have he := exec_effect env configuredMax s a
  exact {
    devices := he.deviceKeys h.devices
    ids := he.unique (fun m x hx => by simp [messageClash, hx]) h.ids
    once := he.once_kept h.once
    routed := he.routed_kept h
    jobs := he.jobs_sent h
    calls := he.calls_sent h hin }

/-- A transaction that starts right after the first look-up of its call finds nothing in the
second one, so calls that do not overlap keep to `NoDirectDuplicate`. -/
theorem lookups_agree {s : State} {pid : Nat} {t : GroupTask}
    (he : (enterGroup s pid t).1.calls pid = .entered t) :
    NoDirectDuplicate (enterGroup s pid t).1 (.txCheck pid) := by
  have hended : ∀ o, (s.set pid (t.settle o).1).calls pid ≠ .entered t := by
    intro o hc
    rw [State.set_self] at hc
    cases t <;> cases o <;> cases hc
  simp only [NoDirectDuplicate, he]
  intro m hm
  unfold enterGroup at he hm
  by_cases hmember : (!isMember t.request.groupId t.request.senderUserId s.db) = true
  · rw [if_pos hmember] at he
    exact absurd he (hended _)
  · rw [if_neg hmember] at he hm
    cases hf : findByKey t.request.senderDeviceId t.request.idempotencyKey s.db with
    | some x =>
        rw [hf] at he
        exact absurd he (hended _)
    | none =>
        rw [hf] at hm
        have hm' : findByKey t.request.senderDeviceId t.request.idempotencyKey s.db = some m := hm
        rw [hf] at hm'
        cases hm'

end Runs

/-- Alice starts a group message, sends to Bob under the same key, and the group transaction
takes Bob's message for its own. -/
def sharedKey : List Act :=
  [.queueGroupMessage 1 "alice" "g1"
     { senderDeviceId := "d1", idempotencyKey := "send-key-1", ciphertext := "c" },
   .send 0 "alice" (sampleDto "send-key-1"), .tx 0 (sampleCtx "m1"),
   .txCheck 1, .enqueue 1, .fanout 0 20 fun i => "e" ++ toString i]

/-- A message to Bob, and one to the group whose job runs twice. -/
def separateKeys : List Act :=
  [.send 0 "alice" (sampleDto "send-key-1"), .tx 0 (sampleCtx "m1")] ++
    groupSend 1 "alice" "d1" "group-key-1" "m2" ++
    [.enqueue 1, .fanout 0 20 fun i => "e" ++ toString i, .fanout 0 30 fun i => "f" ++ toString i]

end Birgap.Messaging
