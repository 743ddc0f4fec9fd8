import Birgap.Messages.Delivery
import Birgap.Groups.Queue
import Birgap.Lib.JobQueue
import Mathlib.Data.List.Dedup

/-!
# Unread counters under concurrent recalculation

Sends, fan-outs, acks and mark-all-read requests run beside the workers of the
`unread-recalc` queue. A request that changes what a user has not read adds a
recalculation job for the conversation; the job counts in one statement and stores the
number in a later one. The counters are right whenever no job is under way, along every
run in which nothing reaches a conversation between the count and the store of its job.
-/
namespace Birgap.Unread

set_option autoImplicit false

open Birgap.Lib Birgap.Lib.Tx Birgap.Lib.Run Birgap.Lib.JobQueue Birgap.Messages Birgap.Groups

/-- The requests that write messages, envelopes or counters. A group message gets its
envelopes from its fan-out. -/
inductive Request where
  | send (ctx : Ctx) (senderUserId : Id) (dto : SendMessageDto)
  | forward (ctx : Ctx) (f : Forward)
  | groupCommit (now : Time) (mediaId : Nat → Id) (messageId : Id) (r : GroupRequest)
      (sequence : Nat) (replyTo : Option Id)
  | fanout (now : Time) (envelopeId : Nat → Id) (job : GroupFanoutJobData)
  | ack (now : Time) (userId messageId : Id) (dto : AckMessageDto)
  | markAllRead (now : Time) (userId : Id) (dto : MarkAllReadDto)

/-- The recalculation a direct message asks for. -/
def sentKeys (recipientUserId : Id) : Except Err Sent → List RecalcKey
  | .ok ⟨r, true⟩ =>
      match r.message.threadId with
      | some threadId => [{ userId := recipientUserId, threadType := .direct, threadId }]
      | none => []
  | _ => []

/-- The store after a request, and the keys it adds recalculation jobs for. -/
def request (db : Db) : Request → Db × List RecalcKey
  | .send ctx senderUserId dto =>
      ((Messages.send ctx senderUserId dto db).2,
        sentKeys dto.recipientUserId (Messages.send ctx senderUserId dto db).1)
  | .forward ctx f =>
      ((forwardToDirect ctx f db).2, sentKeys f.recipientUserId (forwardToDirect ctx f db).1)
  | .groupCommit now mediaId messageId r sequence replyTo =>
      match commitGroupMessage now mediaId (groupMessage now messageId r sequence replyTo) r db with
      | .ok db' => (db', [])
      | .error _ => (db, [])
  | .fanout now envelopeId job =>
      match Groups.fanout now envelopeId job db with
      | (.ok (_, keys), db') => (db', keys)
      | (.error _, db') => (db', [])
  | .ack now userId messageId dto =>
      match Messages.ack now userId messageId dto db with
      | (.ok key, db') => (db', key.toList)
      | (.error _, db') => (db', [])
  | .markAllRead now userId dto => ((Messages.markAllRead now userId dto db).2, [])

structure State where
  db : Db
  jobs : RecalcKey → Option (Job Nat)
  busy : Nat

/-- A request, or a step of the queue and its workers for the job of one key. -/
inductive Act where
  | request (q : Request)
  | promote (key : RecalcKey)
  | start (key : RecalcKey)
  | count (key : RecalcKey)
  | upsert (key : RecalcKey)
  | fail (key : RecalcKey)
  | evict (key : RecalcKey)

/-- `concurrency` and `attempts` of the queue. -/
def concurrency : Nat := 5
def attempts : Nat := 3

def State.set (s : State) (key : RecalcKey) (job : Option (Job Nat)) : State :=
  { s with jobs := Function.update s.jobs key job }

def step (s : State) : Act → State
  | .request q => { s with db := (request s.db q).1, jobs := addAll s.jobs (request s.db q).2 }
  | .promote key =>
      match s.jobs key with
      | some (.delayed failures) => s.set key (some (.waiting failures))
      | _ => s
  | .start key =>
      match s.jobs key with
      | some (.waiting failures) =>
          if s.busy < concurrency then
            { s.set key (some (.active failures none)) with busy := s.busy + 1 }
          else s
      | _ => s
  | .count key =>
      match s.jobs key with
      | some (.active failures none) =>
          s.set key (some (.active failures (some (unreadCount key s.db))))
      | _ => s
  | .upsert key =>
      match s.jobs key with
      | some (.active _ (some count)) =>
          { s.set key none with
            db := { s.db with unreadCounters := upsertCounter key count s.db.unreadCounters }
            busy := s.busy - 1 }
      | _ => s
  | .fail key =>
      match s.jobs key with
      | some (.active failures _) =>
          { s.set key (some (if failures + 1 < attempts then .delayed (failures + 1) else .failed)) with
            busy := s.busy - 1 }
      | _ => s
  | .evict key =>
      match s.jobs key with
      | some .failed => s.set key none
      | _ => s

/-- No messages, envelopes, counters or jobs; any users, devices and groups. -/
def start (db : Db) : State :=
  { db := { db with
      directThreads := [], messages := [], messageEnvelopes := [], unreadCounters := [] }
    jobs := fun _ => none
    busy := 0 }

/-- The messages of the conversation, not sent by the user, with an envelope for the user
that is not READ. -/
def unreadMessages (key : RecalcKey) (db : Db) : List Message :=
  db.messages.filter fun m =>
    inThread key.threadType key.threadId m && m.senderUserId != key.userId &&
      db.messageEnvelopes.any fun e =>
        e.messageId == m.id && e.recipientUserId == key.userId && e.status != .read

/-- The counter is the number of unread messages; without a counter there is none. -/
def CounterRight (key : RecalcKey) (db : Db) : Prop :=
  (counterOf key db).getD 0 = (unreadMessages key db).length

/-- Every counter is right for which no job is delayed, waiting or running. -/
def RightAtRest (s : State) : Prop := ∀ key, Resting (s.jobs key) → CounterRight key s.db

/-- What a request must find: a DELIVERED ack no READ envelope, and a fan-out the message
its job describes. -/
def RequestFits (db : Db) : Request → Prop
  | .ack _ userId messageId dto =>
      dto.status = .delivered → ∀ e, ackEnvelope userId messageId dto.deviceId db = .ok e →
        e.status ≠ .read
  | .fanout _ _ job =>
      ∀ m ∈ db.messages, m.id = job.messageId →
        m.groupId = some job.groupId ∧ m.senderUserId = job.senderUserId
  | _ => True

/-- No request changes the number of unread messages of a conversation whose job has counted
and not yet stored, every request fits, and no job fails its last attempt. -/
def Undisturbed (s : State) : Act → Prop
  | .request q =>
      (∀ key, work (s.jobs key) = none ∨
        unreadCount key (request s.db q).1 = unreadCount key s.db) ∧ RequestFits s.db q
  | .fail key => ∀ failures w, s.jobs key = some (.active failures w) → failures + 1 < attempts
  | _ => True

/-- The keys of the tables, and a stored message of one conversation for every envelope. -/
structure Wf (db : Db) : Prop where
  ids : Rows.Unique (·.id) db.messages
  devices : Rows.Unique (fun e => (e.messageId, e.recipientDeviceId)) db.messageEnvelopes
  owned : ∀ e ∈ db.messageEnvelopes, ∃ m, messageOf e db = some m
  exclusive : ∀ m ∈ db.messages, m.threadId = none ∨ m.groupId = none

theorem messageOf_some {e : MessageEnvelope} {db : Db} {m : Message} (h : messageOf e db = some m) :
    m ∈ db.messages ∧ m.id = e.messageId :=
  ⟨List.mem_of_find?_eq_some h, by simpa using List.find?_some h⟩

theorem Wf.messageOf_eq {db : Db} (hw : Wf db) {e : MessageEnvelope} {m : Message}
    (hm : m ∈ db.messages) (hid : m.id = e.messageId) : messageOf e db = some m := by
  unfold messageOf
  rw [← hid]
  exact hw.ids.find?_eq hm

/-- The query of the recalculation counts the unread messages. -/
theorem Wf.unreadCount_eq {db : Db} (hw : Wf db) (key : RecalcKey) :
    unreadCount key db = (unreadMessages key db).length := by
  have hperm : ((db.messageEnvelopes.filter (countedEnvelope key db)).map (·.messageId)).dedup.Perm
      ((unreadMessages key db).map (·.id)) := by
    have hnodup : ((unreadMessages key db).map (·.id)).Nodup := hw.ids.filter _
    rw [List.perm_ext_iff_of_nodup (List.nodup_dedup _) hnodup]
    intro id
    rw [List.mem_dedup, List.mem_map, List.mem_map]
    constructor
    · rintro ⟨e, he, rfl⟩
      obtain ⟨hmem, hc⟩ := List.mem_filter.mp he
      obtain ⟨m, hm⟩ := hw.owned e hmem
      obtain ⟨hmm, hid⟩ := messageOf_some hm
      obtain ⟨huser, hstatus, hthread, hsender⟩ := (countedEnvelope_iff hm).mp hc
      refine ⟨m, List.mem_filter.mpr ⟨hmm, ?_⟩, hid⟩
      simp only [Bool.and_eq_true, bne_iff_ne, List.any_eq_true, beq_iff_eq]
      exact ⟨⟨hthread, hsender⟩, e, hmem, ⟨hid.symm, huser⟩, hstatus⟩
    · rintro ⟨m, hm, rfl⟩
      obtain ⟨hmm, hc⟩ := List.mem_filter.mp hm
      simp only [Bool.and_eq_true, bne_iff_ne, List.any_eq_true, beq_iff_eq] at hc
      obtain ⟨⟨hthread, hsender⟩, e, hmem, ⟨hid, huser⟩, hstatus⟩ := hc
      refine ⟨e, List.mem_filter.mpr ⟨hmem, ?_⟩, hid⟩
      exact (countedEnvelope_iff (hw.messageOf_eq hmm hid.symm)).mpr
        ⟨huser, hstatus, hthread, hsender⟩
  rw [unreadCount, hperm.length_eq, List.length_map]

/-- Neither the count nor the counter of the key changes. -/
def Untouched (key : RecalcKey) (db db' : Db) : Prop :=
  unreadCount key db' = unreadCount key db ∧ counterOf key db' = counterOf key db

theorem messageOf_append {e : MessageEnvelope} {db db' : Db} {m : Message} {new : List Message}
    (hm : messageOf e db = some m) (hmsg : db'.messages = db.messages ++ new) :
    messageOf e db' = some m := by
  unfold messageOf at hm ⊢
  rw [hmsg, List.find?_append, hm]
  rfl

theorem countedEnvelope_congr {key : RecalcKey} {db db' : Db} {e e' : MessageEnvelope}
    (hmsg : messageOf e' db' = messageOf e db) (huser : e'.recipientUserId = e.recipientUserId)
    (hread : e'.status = .read ↔ e.status = .read) :
    countedEnvelope key db' e' = countedEnvelope key db e := by
  have hs : (e'.status != .read) = (e.status != .read) := by
    rw [Bool.eq_iff_iff, bne_iff_ne, bne_iff_ne]
    exact not_congr hread
  simp only [countedEnvelope, unreadEnvelope, hmsg, huser, hs]

/-- Appending messages and envelopes reaches only the keys the new envelopes count for. -/
theorem append_untouched {key : RecalcKey} {db db' : Db} {new : List Message}
    {extra : List MessageEnvelope} (hw : Wf db) (hmsg : db'.messages = db.messages ++ new)
    (henv : db'.messageEnvelopes = db.messageEnvelopes ++ extra)
    (hcnt : db'.unreadCounters = db.unreadCounters)
    (hno : ∀ e ∈ extra, ¬ countedEnvelope key db' e = true) : Untouched key db db' := by
  refine ⟨unreadCount_append henv ?_ hno, ?_⟩
  · intro e he
    obtain ⟨m, hm⟩ := hw.owned e he
    exact countedEnvelope_congr ((messageOf_append hm hmsg).trans hm.symm) rfl Iff.rfl
  · unfold counterOf
    rw [hcnt]

/-- Rewriting envelopes reaches only the keys whose counted rows change. -/
theorem map_untouched {key : RecalcKey} {db db' : Db} {g : MessageEnvelope → MessageEnvelope}
    (hmsg : db'.messages = db.messages)
    (henv : db'.messageEnvelopes = db.messageEnvelopes.map g)
    (hcnt : counterOf key db' = counterOf key db) (hg : Delivery.KeepsKeys g)
    (hrow : ∀ e ∈ db.messageEnvelopes, ((g e).status = .read ↔ e.status = .read) ∨
      (¬ countedEnvelope key db e = true ∧ (g e).status = .read)) : Untouched key db db' := by
  refine ⟨unreadCount_map henv hg.messageId ?_, hcnt⟩
  intro e he
  have hof : messageOf (g e) db' = messageOf e db := by
    unfold messageOf
    rw [hmsg, hg.messageId]
  rcases hrow e he with hread | ⟨hno, hread⟩
  · exact countedEnvelope_congr hof (hg.user e) hread
  · have hno' : ¬ countedEnvelope key db' (g e) = true := by
      simp [countedEnvelope, unreadEnvelope, hread]
    rw [Bool.not_eq_true] at hno hno'
    rw [hno, hno']

theorem Wf.append {db db' : Db} {new : List Message} {extra : List MessageEnvelope} (hw : Wf db)
    (hmsg : db'.messages = db.messages ++ new)
    (henv : db'.messageEnvelopes = db.messageEnvelopes ++ extra)
    (hids : Rows.Unique (·.id) db'.messages)
    (hdev : Rows.Unique (fun e => (e.messageId, e.recipientDeviceId)) db'.messageEnvelopes)
    (hown : ∀ e ∈ extra, ∃ m, messageOf e db' = some m)
    (hex : ∀ m ∈ new, m.threadId = none ∨ m.groupId = none) : Wf db' := by
  refine ⟨hids, hdev, ?_, ?_⟩
  · intro e he
    rw [henv] at he
    rcases List.mem_append.mp he with he | he
    · obtain ⟨m, hm⟩ := hw.owned e he
      exact ⟨m, messageOf_append hm hmsg⟩
    · exact hown e he
  · intro m hm
    rw [hmsg] at hm
    rcases List.mem_append.mp hm with hm | hm
    · exact hw.exclusive m hm
    · exact hex m hm

theorem Wf.map {db db' : Db} {g : MessageEnvelope → MessageEnvelope} (hw : Wf db)
    (hmsg : db'.messages = db.messages) (henv : db'.messageEnvelopes = db.messageEnvelopes.map g)
    (hg : Delivery.KeepsKeys g) : Wf db' := by
  refine ⟨?_, ?_, ?_, ?_⟩
  · rw [hmsg]
    exact hw.ids
  · rw [henv]
    exact Rows.unique_map hg.deviceKey hw.devices
  · intro e he
    rw [henv] at he
    obtain ⟨e₀, he₀, rfl⟩ := List.mem_map.mp he
    obtain ⟨m, hm⟩ := hw.owned e₀ he₀
    refine ⟨m, ?_⟩
    unfold messageOf at hm ⊢
    rw [hmsg, hg.messageId]
    exact hm
  · rw [hmsg]
    exact hw.exclusive

/-- The envelopes of a direct message go to its recipient and its sender. -/
theorem mem_directEnvelopes {ctx : Ctx} {senderUserId recipientUserId : Id} {ids : List Id}
    {envelopes : List MessageEnvelopeDto} {e : MessageEnvelope}
    (h : e ∈ directEnvelopes ctx senderUserId recipientUserId ids envelopes) :
    e.messageId = ctx.messageId ∧
      (e.recipientUserId = recipientUserId ∨ e.recipientUserId = senderUserId) := by
  obtain ⟨⟨x, i⟩, _, rfl⟩ := List.mem_map.mp h
  refine ⟨rfl, ?_⟩
  simp only
  split
  · exact Or.inl rfl
  · exact Or.inr rfl

section Posted

variable {threadId senderUserId recipientUserId : Id} {pair : Id × Id} {m : Message}
  {envelopes : List MessageEnvelope} {db db' : Db}

theorem posted_wf (hw : Wf db) (hp : Posted threadId pair m envelopes db db')
    (he : ∀ e ∈ envelopes, e.messageId = m.id) : Wf db' := by
  obtain ⟨thread, x, db₁, media, _, _, _, _, hg, _, hclash, hrows, rfl⟩ := hp
  have hids : Rows.Unique (·.id) (db.messages ++ [m]) := Rows.unique_append hw.ids (messageClash_fresh hclash)
  refine hw.append rfl rfl hids (Rows.unique_insertAll envelopeClash_device hrows hw.devices) ?_ ?_
  · intro e hmem
    refine ⟨m, ?_⟩
    unfold messageOf
    rw [he e hmem]
    exact hids.find?_eq (List.mem_append_right _ (List.mem_singleton_self m))
  · intro m' hm'
    rw [List.mem_singleton.mp hm']
    exact Or.inr hg

/-- A direct message counts for nobody but its recipient in its thread. -/
theorem posted_untouched (hw : Wf db) (hp : Posted threadId pair m envelopes db db')
    (hs : m.senderUserId = senderUserId)
    (he : ∀ e ∈ envelopes, e.messageId = m.id ∧
      (e.recipientUserId = recipientUserId ∨ e.recipientUserId = senderUserId))
    {key : RecalcKey}
    (hkey : ∀ t, m.threadId = some t →
      key ≠ { userId := recipientUserId, threadType := .direct, threadId := t }) :
    Untouched key db db' := by
  have hw' := posted_wf hw hp fun e hmem => (he e hmem).1
  obtain ⟨thread, x, db₁, media, _, _, _, ht, hg, _, _, _, rfl⟩ := hp
  refine append_untouched hw rfl rfl rfl ?_
  intro e hmem hc
  obtain ⟨hid, huser⟩ := he e hmem
  have hm := hw'.messageOf_eq (e := e) (List.mem_append_right _ (List.mem_singleton_self m)) hid.symm
  obtain ⟨hu, _, hthread, hsender⟩ := (countedEnvelope_iff hm).mp hc
  apply hkey thread.id ht
  obtain ⟨userId, threadType, threadId⟩ := key
  have hin : inThread .direct thread.id m = true := by simp [inThread, ht]
  obtain ⟨rfl, rfl⟩ := inThread_inj (Or.inr hg) hthread hin
  rcases huser with huser | huser
  · rw [← huser, hu]
  · exact absurd (hs.trans (huser.symm.trans hu)) hsender

end Posted

/-- A write keeps the store well formed and reaches no key but those listed. -/
structure Reaches (db db' : Db) (keys : List RecalcKey) : Prop where
  wf : Wf db'
  untouched : ∀ key, key ∉ keys → Untouched key db db'

theorem Reaches.refl {db : Db} (hw : Wf db) (keys : List RecalcKey) : Reaches db db keys :=
  ⟨hw, fun _ _ => ⟨rfl, rfl⟩⟩

theorem posted_reaches {threadId senderUserId recipientUserId : Id} {pair : Id × Id}
    {envelopes : List MessageEnvelope} {db db' : Db} {r : Serialized} (hw : Wf db)
    (hp : Posted threadId pair r.message envelopes db db')
    (hs : r.message.senderUserId = senderUserId)
    (he : ∀ e ∈ envelopes, e.messageId = r.message.id ∧
      (e.recipientUserId = recipientUserId ∨ e.recipientUserId = senderUserId)) :
    Reaches db db' (sentKeys recipientUserId (.ok ⟨r, true⟩)) := by
  refine ⟨posted_wf hw hp fun e hmem => (he e hmem).1, ?_⟩
  intro key hkey
  refine posted_untouched hw hp hs he ?_
  rintro t ht rfl
  apply hkey
  simp [sentKeys, ht]

/-- The idempotent frame asks for a recalculation only when its transaction committed. -/
theorem idempotently_reaches {senderDeviceId recipientUserId : Id} {idempotencyKey : String}
    {tx : Db → Except Err (Serialized × Db)} {db : Db} (hw : Wf db)
    (htx : ∀ r db', tx db = .ok (r, db') →
      Reaches db db' (sentKeys recipientUserId (.ok ⟨r, true⟩))) :
    Reaches db (idempotently senderDeviceId idempotencyKey tx db).2
      (sentKeys recipientUserId (idempotently senderDeviceId idempotencyKey tx db).1) := by
  rcases idempotently_cases senderDeviceId idempotencyKey tx db with ⟨r, db', hok, he⟩ | ⟨he, _⟩
  · rw [he]
    exact htx r db' hok
  · rw [he]
    exact Reaches.refl hw _

theorem send_reaches (ctx : Ctx) (senderUserId : Id) (dto : SendMessageDto) {db : Db} (hw : Wf db) :
    Reaches db (request db (.send ctx senderUserId dto)).1
      (request db (.send ctx senderUserId dto)).2 := by
  refine idempotently_reaches hw ?_
  intro r db' hok
  obtain ⟨ids, _, hfrom, hp⟩ := sendTx_ok hok
  refine posted_reaches hw hp hfrom.sender ?_
  intro e he
  rw [hfrom.id]
  exact mem_directEnvelopes he

theorem forward_reaches (ctx : Ctx) (f : Forward) {db : Db} (hw : Wf db) :
    Reaches db (request db (.forward ctx f)).1 (request db (.forward ctx f)).2 := by
  refine idempotently_reaches hw ?_
  intro r db' hok
  obtain ⟨ids, _, hfrom, hp⟩ := forwardTx_ok hok
  refine posted_reaches hw hp hfrom.sender ?_
  intro e he
  rw [hfrom.id]
  exact mem_directEnvelopes he

/-- A group message without envelopes counts for nobody. -/
theorem groupCommit_reaches (now : Time) (mediaId : Nat → Id) (messageId : Id) (r : GroupRequest)
    (sequence : Nat) (replyTo : Option Id) {db : Db} (hw : Wf db) :
    Reaches db (request db (.groupCommit now mediaId messageId r sequence replyTo)).1
      (request db (.groupCommit now mediaId messageId r sequence replyTo)).2 := by
  simp only [request]
  split
  · rename_i db' hok
    obtain ⟨hclash, hmsg, henv, hcnt⟩ := commitGroupMessage_ok hok
    have henv' : db'.messageEnvelopes = db.messageEnvelopes ++ [] := by
      rw [List.append_nil]
      exact henv
    refine ⟨hw.append hmsg henv' ?_ ?_ ?_ ?_, fun key _ => append_untouched hw hmsg henv' hcnt ?_⟩
    · rw [hmsg]
      exact Rows.unique_append hw.ids (messageClash_fresh hclash)
    · rw [henv]
      exact hw.devices
    · intro e he
      cases he
    · intro m hm
      rw [List.mem_singleton.mp hm]
      exact Or.inl (groupMessage_thread now messageId r sequence replyTo)
    · intro e he
      cases he
  · exact Reaches.refl hw _

/-- The envelopes of a fan-out go to members other than the sending device. -/
theorem mem_fanoutEnvelopes {now : Time} {envelopeId : Nat → Id} {job : GroupFanoutJobData}
    {devices : List Device} {e : MessageEnvelope}
    (h : e ∈ fanoutEnvelopes now envelopeId job devices) :
    e.messageId = job.messageId ∧ e.recipientUserId ∈ devices.map (·.userId) := by
  obtain ⟨⟨d, i⟩, hd, rfl⟩ := List.mem_map.mp h
  exact ⟨rfl, List.mem_map_of_mem (List.fst_mem_of_mem_zipIdx hd)⟩

/-- The insert of a fan-out counts for the recipients it lists. -/
theorem fanoutInsert_reaches {job : GroupFanoutJobData} {devices : List Device} {db : Db}
    {rows extra : List MessageEnvelope} (hw : Wf db)
    (hfits : ∀ m ∈ db.messages, m.id = job.messageId →
      m.groupId = some job.groupId ∧ m.senderUserId = job.senderUserId)
    (hstored : ∃ m ∈ db.messages, m.id = job.messageId)
    (hrows : rows = db.messageEnvelopes ++ extra)
    (hdev : Rows.Unique (fun e => (e.messageId, e.recipientDeviceId)) rows)
    (hextra : ∀ e ∈ extra, e.messageId = job.messageId ∧ e.recipientUserId ∈ devices.map (·.userId)) :
    Reaches db { db with messageEnvelopes := rows }
      (((devices.map (·.userId)).filter (· != job.senderUserId)).eraseDups.map fun userId =>
        { userId, threadType := .group, threadId := job.groupId }) := by
  obtain ⟨m, hm, hid⟩ := hstored
  obtain ⟨hgroup, hsender⟩ := hfits m hm hid
  have hof : ∀ e ∈ extra, messageOf e { db with messageEnvelopes := rows } = some m :=
    fun e he => hw.messageOf_eq hm (hid.trans (hextra e he).1.symm)
  have hmsg : ({ db with messageEnvelopes := rows } : Db).messages = db.messages ++ [] :=
    (List.append_nil _).symm
  refine ⟨hw.append hmsg hrows hw.ids hdev (fun e he => ⟨m, hof e he⟩) ?_, ?_⟩
  · intro x hx
    cases hx
  · intro key hkey
    refine append_untouched hw hmsg hrows rfl ?_
    intro e he hc
    obtain ⟨huser, _, hthread, hother⟩ := (countedEnvelope_iff (hof e he)).mp hc
    apply hkey
    have hin : inThread .group job.groupId m = true := by simp [inThread, hgroup]
    obtain ⟨ht, hi⟩ := inThread_inj (hw.exclusive m hm) hthread hin
    refine List.mem_map.mpr ⟨key.userId, ?_, ?_⟩
    · rw [List.mem_eraseDups, List.mem_filter, ← huser]
      refine ⟨(hextra e he).2, ?_⟩
      rw [huser, ← hsender]
      simpa using Ne.symm hother
    · rw [← ht, ← hi]

theorem fanout_reaches (now : Time) (envelopeId : Nat → Id) (job : GroupFanoutJobData) {db : Db}
    (hw : Wf db)
    (hfits : ∀ m ∈ db.messages, m.id = job.messageId →
      m.groupId = some job.groupId ∧ m.senderUserId = job.senderUserId) :
    Reaches db (request db (.fanout now envelopeId job)).1
      (request db (.fanout now envelopeId job)).2 := by
  simp only [request, Groups.fanout]
  split
  · rename_i n keys db' hok
    split at hok
    · cases hok
      exact Reaches.refl hw _
    · split at hok
      · cases hok
      · rename_i hstored
        cases hok
        obtain ⟨extra, hextra, hnew⟩ := Rows.createManySkip_append envelopeClash
          (fanoutEnvelopes now envelopeId job (targetDevices job.groupId job.senderDeviceId db))
          db.messageEnvelopes
        exact fanoutInsert_reaches hw hfits (by simpa using hstored) hextra
          (Rows.unique_createManySkip envelopeClash_device hw.devices)
          fun e he => mem_fanoutEnvelopes (hnew e he)
  · rename_i err db' hok
    split at hok
    · cases hok
    · split at hok
      · cases hok
        exact Reaches.refl hw _
      · cases hok

/-- The key a READ ack asks to have recalculated is the one its message counts for. -/
theorem ackRecalc_read {userId messageId : Id} {db : Db} {m : Message} {t : ThreadType} {i : Id}
    (hm : db.messages.find? (·.id == messageId) = some m)
    (hx : m.threadId = none ∨ m.groupId = none) (hin : inThread t i m = true) :
    ackRecalc userId messageId .read db = some { userId, threadType := t, threadId := i } := by
  simp only [ackRecalc, hm]
  cases ht : m.threadId with
  | some threadId =>
      obtain ⟨rfl, rfl⟩ := inThread_inj (t := .direct) (i := threadId) hx (by simp [inThread, ht]) hin
      rfl
  | none =>
      cases hg : m.groupId with
      | some groupId =>
          obtain ⟨rfl, rfl⟩ := inThread_inj (t := .group) (i := groupId) hx (by simp [inThread, hg]) hin
          rfl
      | none =>
          cases t <;> simp [inThread, ht, hg] at hin

/-- A READ ack reaches the conversation of its message, for the acknowledging user. -/
theorem readAck_reaches {now : Time} {userId messageId deviceId : Id} {e₀ : MessageEnvelope}
    {db : Db} (hw : Wf db) (he₀ : ackEnvelope userId messageId deviceId db = .ok e₀) :
    Reaches db
      { db with
        messageEnvelopes := ackOne now messageId deviceId .read e₀.deliveredAt
          (readAll now userId messageId e₀.deliveredAt db.messageEnvelopes) }
      (ackRecalc userId messageId .read db).toList := by
  obtain ⟨hmem₀, hmid₀, hdev₀, huser₀⟩ := Delivery.ackEnvelope_ok he₀
  obtain ⟨f, hf, hfs, hfrows⟩ :=
    Delivery.keepsKeys_readAll now userId messageId e₀.deliveredAt
  obtain ⟨g, hg, hgs, hgrows⟩ :=
    Delivery.keepsKeys_ackOne now messageId deviceId .read e₀.deliveredAt
  have hrows : ackOne now messageId deviceId .read e₀.deliveredAt
      (readAll now userId messageId e₀.deliveredAt db.messageEnvelopes) =
        db.messageEnvelopes.map (g ∘ f) := by
    rw [hfrows, hgrows, List.map_map]
  refine ⟨hw.map rfl hrows (hg.comp hf), ?_⟩
  intro key hkey
  refine map_untouched rfl hrows rfl (hg.comp hf) ?_
  -- a row the ack writes belongs to the user and the message, and counts for no other key
  have hwritten : ∀ e ∈ db.messageEnvelopes, e.messageId = messageId →
      e.recipientUserId = userId → ¬ countedEnvelope key db e = true := by
    intro e he hid huser hc
    obtain ⟨m, hm⟩ := hw.owned e he
    obtain ⟨hu, _, hthread, _⟩ := (countedEnvelope_iff hm).mp hc
    apply hkey
    have hfind : db.messages.find? (·.id == messageId) = some m := by
      rw [← hid]
      exact hm
    rw [ackRecalc_read hfind (hw.exclusive m (messageOf_some hm).1) hthread, ← huser, hu]
    simp
  intro e he
  show ((g (f e)).status = .read ↔ e.status = .read) ∨
    (¬ countedEnvelope key db e = true ∧ (g (f e)).status = .read)
  rw [hgs, hf.messageId, hf.device]
  split
  · rename_i hrow
    obtain rfl := hw.devices.eq he hmem₀ (Prod.ext (hrow.1.trans hmid₀.symm) (hrow.2.trans hdev₀.symm))
    exact Or.inr ⟨hwritten e he hmid₀ huser₀, rfl⟩
  · rcases hfs e with hsame | ⟨hread, hid, huser⟩
    · rw [hsame]
      exact Or.inl Iff.rfl
    · exact Or.inr ⟨hwritten e he hid huser, hread⟩

/-- A DELIVERED ack of an envelope that is not READ reaches nothing. -/
theorem deliveredAck_reaches {now : Time} {userId messageId deviceId : Id} {e₀ : MessageEnvelope}
    {db : Db} (hw : Wf db) (he₀ : ackEnvelope userId messageId deviceId db = .ok e₀)
    (hunread : e₀.status ≠ .read) :
    Reaches db
      { db with
        messageEnvelopes :=
          ackOne now messageId deviceId .delivered e₀.deliveredAt db.messageEnvelopes }
      (ackRecalc userId messageId .delivered db).toList := by
  obtain ⟨hmem₀, hmid₀, hdev₀, _⟩ := Delivery.ackEnvelope_ok he₀
  obtain ⟨g, hg, hgs, hrows⟩ :=
    Delivery.keepsKeys_ackOne now messageId deviceId .delivered e₀.deliveredAt
  refine ⟨hw.map rfl (hrows _) hg, fun key _ => map_untouched rfl (hrows _) rfl hg ?_⟩
  intro e he
  left
  rw [hgs]
  split
  · rename_i hrow
    obtain rfl := hw.devices.eq he hmem₀ (Prod.ext (hrow.1.trans hmid₀.symm) (hrow.2.trans hdev₀.symm))
    constructor
    · intro h
      cases h
    · intro h
      exact absurd h hunread
  · exact Iff.rfl

theorem ack_reaches (now : Time) (userId messageId : Id) (dto : AckMessageDto) {db : Db}
    (hw : Wf db)
    (hfits : dto.status = .delivered → ∀ e, ackEnvelope userId messageId dto.deviceId db = .ok e →
      e.status ≠ .read) :
    Reaches db (request db (.ack now userId messageId dto)).1
      (request db (.ack now userId messageId dto)).2 := by
  simp only [request, Messages.ack]
  cases he : ackEnvelope userId messageId dto.deviceId db with
  | error err => exact Reaches.refl hw _
  | ok e =>
      cases hs : dto.status with
      | read => exact readAck_reaches hw he
      | delivered => exact deliveredAck_reaches hw he (hfits hs e he)

/-- Mark-all-read empties the conversation it names and reaches no other. -/
theorem markAllRead_reaches (now : Time) (key : RecalcKey) {db : Db} (hw : Wf db) :
    Reaches db (Unread.markAllRead now key db) [key] ∧
      unreadCount key (Unread.markAllRead now key db) = 0 ∧
      counterOf key (Unread.markAllRead now key db) = some 0 := by
  have hg : Delivery.KeepsKeys fun e : MessageEnvelope =>
      if unreadEnvelope key db e then { e with status := .read, readAt := some now, updatedAt := now }
      else e :=
    Delivery.keepsKeys_if ⟨fun _ => rfl, fun _ => rfl, fun _ => rfl, fun _ => rfl⟩
  refine ⟨⟨hw.map rfl rfl hg, ?_⟩, ?_, counterOf_upsert_self rfl⟩
  · intro key' hne
    have hne' : key' ≠ key := by simpa using hne
    refine map_untouched rfl rfl (counterOf_upsert_of_ne hne' rfl) hg ?_
    intro e he
    cases hu : unreadEnvelope key db e with
    | false => exact Or.inl Iff.rfl
    | true =>
        refine Or.inr ⟨?_, rfl⟩
        intro hc
        obtain ⟨m, hm⟩ := hw.owned e he
        obtain ⟨huser', _, hthread', _⟩ := (countedEnvelope_iff hm).mp hc
        simp only [unreadEnvelope, hm, Option.any_some, Bool.and_eq_true, beq_iff_eq] at hu
        obtain ⟨⟨huser, _⟩, hthread⟩ := hu
        obtain ⟨ht, hi⟩ := inThread_inj (hw.exclusive m (messageOf_some hm).1) hthread' hthread
        apply hne'
        cases key
        cases key'
        simp_all
  · apply unreadCount_eq_zero
    intro e' he' hc
    obtain ⟨e, he, rfl⟩ := Rows.mem_updateMany.mp he'
    have hunread := (Bool.and_eq_true_iff.mp hc).1
    cases hu : unreadEnvelope key db e with
    | false =>
        rw [hu] at hunread
        have hsame : unreadEnvelope key (Unread.markAllRead now key db) e =
            unreadEnvelope key db e := rfl
        rw [if_neg Bool.false_ne_true, hsame, hu] at hunread
        cases hunread
    | true =>
        rw [hu] at hunread
        simp [unreadEnvelope] at hunread

/-- What the job of a key promises, given the stored counter and the number of unread
messages: the counter is right without a job, and a counted job holds the number. -/
def JobRight (counter : Option Nat) (unread : Nat) : Option (Job Nat) → Prop
  | none => counter.getD 0 = unread
  | some (.active _ (some count)) => count = unread
  | some .failed => False
  | _ => True

/-- A job that is present keeps its promise while the number it may have counted stays. -/
theorem JobRight.of_quiet {counter counter' : Option Nat} {n n' : Nat} {job : Job Nat}
    (h : JobRight counter n (some job)) (hquiet : work (some job) = none ∨ n' = n) :
    JobRight counter' n' (some job) := by
  cases job with
  | failed => exact h
  | delayed failures => trivial
  | waiting failures => trivial
  | active failures w =>
      cases w with
      | none => trivial
      | some count =>
          rcases hquiet with hwork | hn
          · cases hwork
          · rw [hn]
            exact h

structure Inv (s : State) : Prop where
  wf : Wf s.db
  right : ∀ key, JobRight (counterOf key s.db) (unreadCount key s.db) (s.jobs key)

theorem start_inv (db : Db) : Inv (start db) := by
  refine ⟨⟨List.nodup_nil, List.nodup_nil, ?_, ?_⟩, fun key => rfl⟩
  · intro e he
    cases he
  · intro m hm
    cases hm

theorem Inv.rightAtRest {s : State} (h : Inv s) : RightAtRest s := by
  intro key hrest
  have hr := h.right key
  unfold CounterRight
  rw [← h.wf.unreadCount_eq]
  cases hj : s.jobs key with
  | none =>
      rw [hj] at hr
      exact hr
  | some job =>
      rw [hj] at hr hrest
      cases job with
      | failed => exact absurd hr id
      | delayed failures => exact absurd hrest id
      | waiting failures => exact absurd hrest id
      | active failures w => exact absurd hrest id

/-- A job moved by the queue, with the store as it is. -/
theorem Inv.set {s : State} (h : Inv s) (key : RecalcKey) (job : Option (Job Nat))
    (hj : JobRight (counterOf key s.db) (unreadCount key s.db) job) : Inv (s.set key job) := by
  refine ⟨h.wf, ?_⟩
  exact (Function.forall_update_iff s.jobs fun q job =>
    JobRight (counterOf q s.db) (unreadCount q s.db) job).mpr ⟨hj, fun q _ => h.right q⟩

/-- A request that reaches `keys` and adds jobs for all of them. -/
theorem Inv.request {s : State} (h : Inv s) {db' : Db} {keys : List RecalcKey}
    (hr : Reaches s.db db' keys)
    (hquiet : ∀ key, work (s.jobs key) = none ∨ unreadCount key db' = unreadCount key s.db) :
    Inv { s with db := db', jobs := addAll s.jobs keys } := by
  refine ⟨hr.wf, ?_⟩
  intro key
  have hold := h.right key
  show JobRight (counterOf key db') (unreadCount key db') (addAll s.jobs keys key)
  by_cases hk : key ∈ keys
  · have hwork := hquiet key
    rw [addAll_of_mem hk]
    cases hj : s.jobs key with
    | none => trivial
    | some job =>
        rw [hj] at hold hwork
        exact hold.of_quiet hwork
  · obtain ⟨hcount, hcounter⟩ := hr.untouched key hk
    rw [addAll_of_notMem hk, hcount, hcounter]
    exact hold

/-- Mark-all-read writes the counter itself. -/
theorem Inv.markAllRead {s : State} (h : Inv s) (now : Time) (key : RecalcKey)
    (hquiet : work (s.jobs key) = none ∨
      unreadCount key (Unread.markAllRead now key s.db) = unreadCount key s.db) :
    Inv { s with db := Unread.markAllRead now key s.db } := by
  obtain ⟨hr, hcount, hcounter⟩ := markAllRead_reaches now key h.wf
  refine ⟨hr.wf, ?_⟩
  intro q
  have hold := h.right q
  by_cases hq : q = key
  · subst hq
    rw [hcounter]
    show JobRight (some 0) (unreadCount q (Unread.markAllRead now q s.db)) (s.jobs q)
    cases hj : s.jobs q with
    | none => exact hcount.symm
    | some job =>
        rw [hj] at hold hquiet
        exact hold.of_quiet hquiet
  · obtain ⟨hsame, hsame'⟩ := hr.untouched q (by simpa using hq)
    rw [hsame, hsame']
    exact hold

theorem step_request_inv {s : State} (h : Inv s) (q : Request)
    (hquiet : ∀ key, work (s.jobs key) = none ∨
      unreadCount key (request s.db q).1 = unreadCount key s.db) (hfits : RequestFits s.db q) :
    Inv (step s (.request q)) := by
  cases q with
  | send ctx senderUserId dto => exact h.request (send_reaches ctx senderUserId dto h.wf) hquiet
  | forward ctx f => exact h.request (forward_reaches ctx f h.wf) hquiet
  | groupCommit now mediaId messageId r sequence replyTo =>
      exact h.request (groupCommit_reaches now mediaId messageId r sequence replyTo h.wf) hquiet
  | fanout now envelopeId job => exact h.request (fanout_reaches now envelopeId job h.wf hfits) hquiet
  | ack now userId messageId dto =>
      exact h.request (ack_reaches now userId messageId dto h.wf hfits) hquiet
  | markAllRead now userId dto =>
      simp only [Unread.request, Messages.markAllRead] at hquiet
      simp only [step, Unread.request, Messages.markAllRead]
      split
      · exact h
      · rename_i hdevice
        rw [hdevice] at hquiet
        exact h.markAllRead now _ (hquiet _)

theorem step_inv (s : State) (a : Act) (h : Inv s) (hc : Undisturbed s a) : Inv (step s a) := by
  cases a with
  | request q => exact step_request_inv h q hc.1 hc.2
  | promote key =>
      simp only [step]
      split
      · exact h.set key _ trivial
      · exact h
  | start key =>
      simp only [step]
      split
      · rename_i failures hj
        split
        · have hset := h.set key (some (.active failures none)) trivial
          exact ⟨hset.wf, hset.right⟩
        · exact h
      · exact h
  | count key =>
      simp only [step]
      split
      · exact h.set key _ rfl
      · exact h
  | upsert key =>
      simp only [step]
      split
      · rename_i failures count hj
        have hcount := h.right key
        rw [hj] at hcount
        refine ⟨⟨h.wf.ids, h.wf.devices, h.wf.owned, h.wf.exclusive⟩, ?_⟩
        intro q
        show JobRight (counterOf q { s.db with
          unreadCounters := upsertCounter key count s.db.unreadCounters })
          (unreadCount q s.db) (Function.update s.jobs key none q)
        by_cases hq : q = key
        · subst hq
          rw [Function.update_self, counterOf_upsert_self rfl]
          exact hcount
        · rw [Function.update_of_ne hq, counterOf_upsert_of_ne hq rfl]
          exact h.right q
      · exact h
  | fail key =>
      simp only [step]
      split
      · rename_i failures w hj
        rw [if_pos (hc failures w hj)]
        have hset := h.set key (some (.delayed (failures + 1))) trivial
        exact ⟨hset.wf, hset.right⟩
      · exact h
  | evict key =>
      simp only [step]
      split
      · rename_i hj
        have hr := h.right key
        rw [hj] at hr
        exact absurd hr id
      · exact h

/-- Along every undisturbed run, every counter is right in every state in which no
recalculation of it is delayed, waiting or running. -/
theorem counters_right_at_rest (db : Db) (acts : List Act)
    (h : Along step Undisturbed (start db) acts) : Always step RightAtRest (start db) acts :=
  (always_of_along step_inv acts (start db) (start_inv db) h).mono fun _ => Inv.rightAtRest

def sampleDb : Db :=
  { devices :=
      [{ id := "d1", userId := "alice", platform := .ios, identityPublicKey := "k1", createdAt := 0 },
       { id := "d2", userId := "bob", platform := .ios, identityPublicKey := "k2", createdAt := 0 }] }

/-- Alice writes to Bob. -/
def sampleSend (messageId : Id) : Act :=
  .request (.send
    { now := 0, messageId, threadId := "t1"
      envelopeId := fun i => messageId ++ "-e" ++ toString i
      mediaId := fun i => messageId ++ "-m" ++ toString i }
    "alice"
    { senderDeviceId := "d1", recipientUserId := "bob", idempotencyKey := "send-key-" ++ messageId
      envelopes := [⟨"d2", "c"⟩] })

def sampleKey : RecalcKey := { userId := "bob", threadType := .direct, threadId := "t1" }

/-- The second message arrives while the job of the first has counted and not yet stored. -/
def sendDuringJob : List Act :=
  [sampleSend "m1", .promote sampleKey, .start sampleKey, .count sampleKey, sampleSend "m2",
   .upsert sampleKey]

/-- Its recalculation is dropped, and the counter stays at one with two messages unread. -/
theorem send_during_job_lost :
    (run step (start sampleDb) sendDuringJob).jobs sampleKey = none ∧
    counterOf sampleKey (run step (start sampleDb) sendDuringJob).db = some 1 ∧
    (unreadMessages sampleKey (run step (start sampleDb) sendDuringJob).db).length = 2 ∧
    ¬ Always step RightAtRest (start sampleDb) sendDuringJob := by
  have hjob : (run step (start sampleDb) sendDuringJob).jobs sampleKey = none := by decide
  have hcounter : counterOf sampleKey (run step (start sampleDb) sendDuringJob).db = some 1 := by
    decide
  have hunread : (unreadMessages sampleKey (run step (start sampleDb) sendDuringJob).db).length = 2 := by
    decide
  refine ⟨hjob, hcounter, hunread, ?_⟩
  intro h
  have hright := h sendDuringJob (List.prefix_refl _) sampleKey (by rw [hjob]; trivial)
  unfold CounterRight at hright
  rw [hcounter, hunread] at hright
  cases hright

/-- The job of a message runs to its end before anything else happens. -/
def sendThenJob : List Act :=
  [sampleSend "m1", .promote sampleKey, .start sampleKey, .count sampleKey, .upsert sampleKey]

theorem send_then_job_right :
    Always step RightAtRest (start sampleDb) sendThenJob ∧
    counterOf sampleKey (run step (start sampleDb) sendThenJob).db = some 1 := by
  refine ⟨counters_right_at_rest sampleDb sendThenJob ?_, by decide⟩
  simp only [sendThenJob, along_cons]
  exact ⟨⟨fun _ => Or.inl rfl, trivial⟩, trivial, trivial, trivial, trivial, along_nil _ _ _⟩

end Birgap.Unread
