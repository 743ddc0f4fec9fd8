import Birgap.Messaging.Requests
import Birgap.Messaging.Routing
import Birgap.Messages.DerivedKeys

/-!
# Derived keys against the keys of clients

The keys of the targets of a forward share their index with the keys that clients choose. Two
forwards never meet there, but a client may choose a key that ends in a colon and an index, and
a look-up answers with whatever message it finds. Where no client does, every message goes back
to one request, and every answer names a message of its own request.
-/
namespace Birgap.Messaging

set_option autoImplicit false

open Birgap.Lib Birgap.Lib.Run Birgap.Messages Birgap.Groups Birgap.Auth

/-- The message is in the thread with the recipient of the target, or in its group. -/
def InTarget (userId : Id) (target : ForwardTargetDto) (db : Db) (m : Message) : Prop :=
  match target.type with
  | .direct =>
      ∃ recipientUserId, target.recipientUserId = some recipientUserId ∧
        ∃ t ∈ db.directThreads, m.threadId = some t.id ∧
          (t.userAId, t.userBId) = canonicalDirectPair userId recipientUserId
  | .group => ∃ groupId, target.groupId = some groupId ∧ m.groupId = some groupId

/-- The step from one state to the next in which a `send` stores a message. -/
structure SendCreates (s : State) (a : Act) (s' : State) (id : Id) : Prop where
  sending : ∃ pid ctx senderUserId dto,
    a = .tx pid ctx ∧ s.calls pid = .sending (.send senderUserId dto)
  fresh : ∀ m ∈ s.db.messages, m.id ≠ id
  stored : ∃ m ∈ s'.db.messages, m.id = id

/-- The message of an answer is of the kind, and in the conversation, that was asked for;
`created` says which messages a `send` has stored. -/
def Returned.Right (created : Id → Prop) (db : Db) : Returned → Prop
  | .sent _ _ response => created response.message.id
  | .queued _ _ _ _ _ => True
  | .forwarded f =>
      ∀ (i : Nat) (result : ForwardResult) (id : Id), f.results[i]? = some result →
        result.messageId = some id → ∃ target, f.dto.targets[i]? = some target ∧
          ∃ m ∈ db.messages, m.id = id ∧ m.forwarded = true ∧ InTarget f.userId target db m

section Runs

variable (env : AuthEnv) (configuredMax : Option Int) (db : Db)

/-- A `send` of the run has stored the message. -/
def CreatedBySend (acts : List Act) (id : Id) : Prop :=
  ∃ pre a, pre ++ [a] <+: acts ∧
    SendCreates (run (step env configuredMax) (start db) pre) a
      (run (step env configuredMax) (start db) (pre ++ [a])) id

/-- Every answer of the run is right in the state it leaves. -/
def AnswersRight (acts : List Act) : Prop :=
  ∀ pre a, pre ++ [a] <+: acts →
    ∀ r, answer env configuredMax (run (step env configuredMax) (start db) pre) a = some r →
      r.Right (CreatedBySend env configuredMax db (pre ++ [a]))
        (run (step env configuredMax) (start db) (pre ++ [a])).db

end Runs

/-- A device uses a key for one request, which it may repeat. -/
def OneRequestPerKey (acts : List Act) : Prop :=
  ∀ r ∈ requests acts, ∀ r' ∈ requests acts, r.deviceKey = r'.deviceKey → r = r'

theorem oneRequestPerKey_of_unique {acts : List Act}
    (h : Rows.Unique Request.deviceKey (requests acts)) : OneRequestPerKey acts :=
  fun _ hr _ hr' he => h.eq hr hr' he

/-- The keys have the lengths that the DTOs admit. -/
def KeysAdmitted (acts : List Act) : Prop :=
  ∀ r ∈ requests acts, 8 ≤ r.idempotencyKey.length ∧ r.idempotencyKey.length ≤ 128

/-- The request of a single message. -/
def Request.IsSingle : Request → Prop
  | .send _ _ => True
  | .queueGroupMessage _ _ _ => True
  | .forward _ _ => False

/-- No single message of a device has the key of a target of a forward of the device. -/
def DerivedKeysUnused (acts : List Act) : Prop :=
  ∀ userId dto, .forward userId dto ∈ requests acts → ∀ i < dto.targets.length,
    ∀ r ∈ requests acts, r.IsSingle → r.deviceKey ≠ (dto.senderDeviceId, dto.perTargetKey i)

/-! ## Where a message comes from -/

/-- What the message of a request is. -/
def Origin (created : Id → Prop) (db : Db) (m : Message) : Request → Prop
  | .send _ dto => keyOf m = (dto.senderDeviceId, dto.idempotencyKey) ∧ created m.id
  | .queueGroupMessage _ _ dto => keyOf m = (dto.senderDeviceId, dto.idempotencyKey)
  | .forward userId dto =>
      ∃ i target, dto.targets[i]? = some target ∧
        keyOf m = (dto.senderDeviceId, dto.perTargetKey i) ∧ m.forwarded = true ∧
        InTarget userId target db m

/-- A conversation keeps its messages while threads keep their pairs. -/
theorem InTarget.kept {userId : Id} {target : ForwardTargetDto} {db db' : Db} {m : Message}
    (hthreads : ∀ t ∈ db.directThreads, ∃ t' ∈ db'.directThreads,
      (t'.id, t'.userAId, t'.userBId) = (t.id, t.userAId, t.userBId))
    (h : InTarget userId target db m) : InTarget userId target db' m := by
  unfold InTarget at h ⊢
  split at h
  · obtain ⟨recipientUserId, hrecipient, t, ht, hthread, hpair⟩ := h
    obtain ⟨t', ht', hkey⟩ := hthreads t ht
    simp only [Prod.mk.injEq] at hkey
    refine ⟨recipientUserId, hrecipient, t', ht', ?_, ?_⟩
    · rw [hkey.1]
      exact hthread
    · rw [hkey.2.1, hkey.2.2]
      exact hpair
  · exact h

theorem Origin.kept {created created' : Id → Prop} {db db' : Db} {m : Message} {r : Request}
    (hcreated : ∀ id, created id → created' id)
    (hthreads : ∀ t ∈ db.directThreads, ∃ t' ∈ db'.directThreads,
      (t'.id, t'.userAId, t'.userBId) = (t.id, t.userAId, t.userBId))
    (h : Origin created db m r) : Origin created' db' m r := by
  cases r with
  | send senderUserId dto => exact ⟨h.1, hcreated _ h.2⟩
  | queueGroupMessage senderUserId groupId dto => exact h
  | forward userId dto =>
      obtain ⟨i, target, htarget, hkey, hforwarded, hin⟩ := h
      exact ⟨i, target, htarget, hkey, hforwarded, hin.kept hthreads⟩

section Written

variable {Q : Request → Prop} {created : Id → Prop} {db db' : Db}

/-- A direct transaction writes the message of its request. -/
theorem posted_origin {t : DirectTask} {ctx : Ctx} {answer : Serialized} (ht : t.From Q)
    (htx : t.tx ctx db = .ok (answer, db'))
    (hsend : ∀ senderUserId dto, t = .send senderUserId dto → created answer.message.id) :
    ∃ r, Q r ∧ Origin created db' answer.message r := by
  cases t with
  | send senderUserId dto =>
      obtain ⟨_, _, hw, _⟩ := sendTx_ok htx
      exact ⟨_, ht, Prod.ext hw.device hw.key, hsend senderUserId dto rfl⟩
  | forward f recipientUserId envelopes =>
      obtain ⟨hf, target, htarget, htype, hvalid⟩ := ht
      obtain ⟨_, _, hw, hp⟩ := forwardTx_ok htx
      have hforwarded : answer.message.forwarded = true := by
        obtain ⟨_, _, _, _, _, _, _, _, _, _, rfl, _⟩ := forwardTx_cases htx
        rfl
      refine ⟨_, hf.request, f.results.length, target, htarget, Prod.ext hw.device hw.key,
        hforwarded, ?_⟩
      unfold InTarget
      rw [htype]
      exact ⟨recipientUserId, validateDirectTarget_ok hvalid, posted_thread hp⟩

/-- A group insert writes the message of its request. -/
theorem committed_origin {t : GroupTask} (ht : t.From Q) (now : Time) (messageId : Id)
    (sequence : Nat) (replyTo : Option Id) :
    ∃ r, Q r ∧ Origin created db' (groupMessage now messageId t.request sequence replyTo) r := by
  obtain ⟨_, hdevice, hkey⟩ := groupMessage_sender now messageId t.request sequence replyTo
  cases t with
  | message senderUserId groupId dto => exact ⟨_, ht, Prod.ext hdevice hkey⟩
  | forward f groupId ciphertext =>
      obtain ⟨hf, target, htarget, htype, hvalid⟩ := ht
      refine ⟨_, hf.request, f.results.length, target, htarget, Prod.ext hdevice hkey, rfl, ?_⟩
      unfold InTarget
      rw [htype]
      exact ⟨groupId, validateGroupTarget_ok hvalid, rfl⟩

end Written

/-- A step leaves every message with its origin, and a new one with a request of a call. -/
theorem Effect.origins {env : AuthEnv} {configuredMax : Option Int} {s : State} {a : Act}
    {o : State × Option Returned} (he : Effect env configuredMax s a o) {Q : Request → Prop}
    {created created' : Id → Prop} (hcalls : ∀ pid, (s.calls pid).From Q)
    (hcreated : ∀ id, created id → created' id)
    (hsend : ∀ id, SendCreates s a o.1 id → created' id)
    (h : ∀ m ∈ s.db.messages, ∃ r, Q r ∧ Origin created s.db m r) :
    ∀ m ∈ o.1.db.messages, ∃ r, Q r ∧ Origin created' o.1.db m r := by
  have hthreads : ∀ t ∈ s.db.directThreads, ∃ t' ∈ o.1.db.directThreads,
      (t'.id, t'.userAId, t'.userBId) = (t.id, t.userAId, t.userBId) := fun t ht => he.thread_kept ht
  have hold : ∀ m ∈ s.db.messages, ∃ r, Q r ∧ Origin created' o.1.db m r := by
    intro m hm
    obtain ⟨r, hr, horigin⟩ := h m hm
    exact ⟨r, hr, horigin.kept hcreated hthreads⟩
  intro m hm
  rcases he.inserts with hsame | ⟨x, hx⟩
  · rw [hsame.messages] at hm
    exact hold m hm
  · obtain ⟨hclash, hmsgs⟩ := hx.messages
    have hin := hm
    rw [hmsgs] at hin
    rcases List.mem_append.mp hin with hin | hin
    · exact hold m hin
    · obtain rfl := List.mem_singleton.mp hin
      cases hx with
      | @posted pid t ctx answer hc htx =>
          have ht := hcalls pid
          rw [hc] at ht
          refine posted_origin ht htx ?_
          rintro senderUserId dto rfl
          apply hsend
          exact ⟨⟨pid, ctx, senderUserId, dto, rfl, hc⟩, messageClash_fresh hclash,
            answer.message, hm, rfl⟩
      | @committed pid t sequence replyTo now messageId mediaId hc hdb =>
          have ht := hcalls pid
          rw [hc] at ht
          exact committed_origin ht now messageId sequence replyTo

/-! ## What the answers name -/

section Answers

variable {acts : List Act} {created : Id → Prop} {db : Db}

/-- The message stored under a key, with its origin. -/
theorem StoredAs.origin {senderDeviceId : Id} {idempotencyKey : String} {id : Id}
    (h : StoredAs db senderDeviceId idempotencyKey id)
    (hall : ∀ m ∈ db.messages, ∃ r, r ∈ requests acts ∧ Origin created db m r) :
    ∃ m ∈ db.messages, m.id = id ∧ keyOf m = (senderDeviceId, idempotencyKey) ∧
      ∃ r ∈ requests acts, Origin created db m r := by
  obtain ⟨m, hm, hid⟩ := Option.map_eq_some_iff.mp h
  have hsel := List.find?_some hm
  simp only [Bool.and_eq_true, beq_iff_eq] at hsel
  have hmem := List.mem_of_find?_eq_some hm
  exact ⟨m, hmem, hid, Prod.ext hsel.1 hsel.2, hall m hmem⟩

variable (hone : OneRequestPerKey acts) (hunused : DerivedKeysUnused acts)

include hone hunused

/-- The message under the key of a `send` is its own. -/
theorem sent_right {senderUserId : Id} {dto : SendMessageDto} {m : Message} {r : Request}
    (hrequest : .send senderUserId dto ∈ requests acts)
    (hkey : keyOf m = (dto.senderDeviceId, dto.idempotencyKey)) (hr : r ∈ requests acts)
    (h : Origin created db m r) : created m.id := by
  cases r with
  | send senderUserId' dto' => exact h.2
  | queueGroupMessage senderUserId' groupId dto' =>
      have hsame : keyOf m = (dto'.senderDeviceId, dto'.idempotencyKey) := h
      have he := hone _ hrequest _ hr (hkey.symm.trans hsame)
      cases he
  | forward userId dto' =>
      obtain ⟨i, target, htarget, hderived, _⟩ := h
      have hi := (List.getElem?_eq_some_iff.mp htarget).1
      exact absurd (hkey.symm.trans hderived) (hunused userId dto' hr i hi _ hrequest trivial)

/-- The message under the key of a target is the forwarded one, where it was sent to. -/
theorem target_right {userId : Id} {dto : ForwardMessageDto} {i : Nat} {m : Message} {r : Request}
    (hrequest : .forward userId dto ∈ requests acts) (hi : i < dto.targets.length)
    (hkey : keyOf m = (dto.senderDeviceId, dto.perTargetKey i)) (hr : r ∈ requests acts)
    (h : Origin created db m r) :
    ∃ target, dto.targets[i]? = some target ∧ m.forwarded = true ∧ InTarget userId target db m := by
  have hsingle : r.IsSingle → keyOf m ≠ r.deviceKey := by
    intro hs he
    exact hunused userId dto hrequest i hi r hr hs (he.symm.trans hkey)
  cases r with
  | send senderUserId dto' => exact absurd h.1 (hsingle trivial)
  | queueGroupMessage senderUserId groupId dto' => exact absurd h (hsingle trivial)
  | forward userId' dto' =>
      obtain ⟨j, target, htarget, hderived, hforwarded, hin⟩ := h
      obtain ⟨hdevice, hkeys⟩ := Prod.mk.inj (hkey.symm.trans hderived)
      obtain ⟨hbase, rfl⟩ := derivedKey_inj hkeys
      have he := hone _ hrequest _ hr (Prod.ext hdevice hbase)
      obtain ⟨rfl, rfl⟩ := Request.forward.inj he
      exact ⟨target, htarget, hforwarded, hin⟩

/-- An answer that belongs to a request of the run and names stored messages is right. -/
theorem Returned.right {r : Returned} (hfrom : r.From (· ∈ requests acts)) (hstored : r.Stored db)
    (hall : ∀ m ∈ db.messages, ∃ r, r ∈ requests acts ∧ Origin created db m r) :
    r.Right created db := by
  cases r with
  | sent senderUserId dto response =>
      obtain ⟨m, _, hid, hkey, r, hr, horigin⟩ := StoredAs.origin hstored hall
      show created response.message.id
      rw [← hid]
      exact sent_right hone hunused hfrom hkey hr horigin
  | queued senderUserId groupId dto messageId queued => trivial
  | forwarded f =>
      intro i result id hresult hid
      have hi : i < f.dto.targets.length :=
        Nat.lt_of_lt_of_le (List.getElem?_eq_some_iff.mp hresult).1 hfrom.results
      obtain ⟨m, hm, hmid, hkey, r, hr, horigin⟩ :=
        StoredAs.origin (hstored i result id hresult hid) hall
      obtain ⟨target, htarget, hforwarded, hin⟩ :=
        target_right hone hunused hfrom.request hi hkey hr horigin
      exact ⟨target, htarget, m, hm, hmid, hforwarded, hin⟩

end Answers

section Theorems

variable (env : AuthEnv) (configuredMax : Option Int)

theorem createdBySend_later {db : Db} {acts later : List Act} {id : Id}
    (h : CreatedBySend env configuredMax db acts id) :
    CreatedBySend env configuredMax db (acts ++ later) id := by
  obtain ⟨pre, a, hpre, hcreates⟩ := h
  exact ⟨pre, a, hpre.trans (List.prefix_append acts later), hcreates⟩

/-- In a run every stored message goes back to a request of the run. -/
theorem run_origins (db : Db) (acts : List Act) :
    ∀ m ∈ (run (step env configuredMax) (start db) acts).db.messages,
      ∃ r, r ∈ requests acts ∧ Origin (CreatedBySend env configuredMax db acts)
        (run (step env configuredMax) (start db) acts).db m r := by
  refine run_history (I := fun pre (s : State) => ∀ m ∈ s.db.messages, ∃ r, r ∈ requests pre ∧
    Origin (CreatedBySend env configuredMax db pre) s.db m r) ?_ ?_ acts
  · intro m hm
    cases hm
  · intro pre a hpre
    have hcalls := (run_from env configuredMax db pre).1
    have hlater : ∀ id, CreatedBySend env configuredMax db pre id →
        CreatedBySend env configuredMax db (pre ++ [a]) id :=
      fun id hid => createdBySend_later env configuredMax hid
    refine (exec_effect env configuredMax _ a).origins ?_ hlater ?_ ?_
    · intro pid
      exact (hcalls pid).mono fun r hr => mem_requests_concat.mpr (Or.inl hr)
    · intro id hsend
      refine ⟨pre, a, List.prefix_refl _, ?_⟩
      rw [run_concat]
      exact hsend
    · intro m hm
      obtain ⟨r, hr, horigin⟩ := hpre m hm
      exact ⟨r, mem_requests_concat.mpr (Or.inl hr), horigin⟩

/-- In every run in which a device uses a key for one request, and never the key of a target of
one of its forwards, a forward answers with forwarded messages in the conversations of its
targets and a `send` with a message that a `send` has stored. -/
theorem derived_keys_separate (db : Db) (acts : List Act) (hone : OneRequestPerKey acts)
    (hunused : DerivedKeysUnused acts) : AnswersRight env configuredMax db acts := by
  intro pre a hpre r hr
  have hkeyed : Keyed (run (step env configuredMax) (start db) pre) :=
    run_invariant (step_keyed env configuredMax) pre (start db) (start_keyed db)
  have hlast : run (step env configuredMax) (start db) (pre ++ [a]) =
      step env configuredMax (run (step env configuredMax) (start db) pre) a := run_concat _ _ _
  have hstored := step_stored env configuredMax _ a hkeyed r hr
  rw [← hlast] at hstored
  have hone' : OneRequestPerKey (pre ++ [a]) := fun x hx y hy =>
    hone x (mem_requests_later hpre hx) y (mem_requests_later hpre hy)
  have hunused' : DerivedKeysUnused (pre ++ [a]) := fun userId dto hdto i hi x hx =>
    hunused userId dto (mem_requests_later hpre hdto) i hi x (mem_requests_later hpre hx)
  exact Returned.right hone' hunused' ((run_from env configuredMax db acts).2 pre a hpre r hr) hstored
    (run_origins env configuredMax db (pre ++ [a]))

end Theorems

/-! ## A key with a colon and an index -/

/-- Alice's message to Bob forwarded to Mallory. -/
def toMallory (idempotencyKey : String) : ForwardMessageDto :=
  { sourceMessageId := "m1", senderDeviceId := "d1", idempotencyKey
    targets :=
      [{ type := .direct, recipientUserId := some "mallory", envelopes := some [⟨"d3", "c"⟩] }] }

/-- Alice sends to Bob under the key that her forward derives for its only target. -/
def takenKey : List Act :=
  [.send 0 "alice" (sampleDto "abcdefgh:0"), .tx 0 (sampleCtx "m1"),
   .forward 1 "alice" (toMallory "abcdefgh"), .target 1]

/-- The forward to Mallory reports the message to Bob as sent. -/
theorem derived_key_taken :
    ¬ ∀ (env : AuthEnv) (configuredMax : Option Int) (db : Db) (acts : List Act),
      KeysAdmitted acts → OneRequestPerKey acts → AnswersRight env configuredMax db acts := by
  intro h
  have hadmitted : KeysAdmitted (takenKey ++ [.target 1]) := by
    unfold KeysAdmitted
    decide
  have hone : OneRequestPerKey (takenKey ++ [.target 1]) := oneRequestPerKey_of_unique (by decide)
  let f : Forwarding :=
    { userId := "alice", dto := toMallory "abcdefgh", sourceMedia := [], contentType := .text
      results :=
        [{ targetType := .direct, targetId := "mallory", success := true, messageId := some "m1" }] }
  have hanswer : answer Devices.sampleEnv none
      (run (step Devices.sampleEnv none) (start sampleDb) takenKey) (.target 1) =
      some (.forwarded f) := rfl
  have hright := h Devices.sampleEnv none sampleDb _ hadmitted hone takenKey (.target 1)
    (List.prefix_refl _) _ hanswer
  obtain ⟨_, _, m, hm, _, hforwarded, _⟩ := hright 0 _ "m1" rfl rfl
  have hplain : ∀ m ∈ (run (step Devices.sampleEnv none) (start sampleDb)
      (takenKey ++ [.target 1])).db.messages, m.forwarded = false := by decide
  rw [hplain m hm] at hforwarded
  cases hforwarded

/-- The same requests under keys that do not meet. -/
def keysApart : List Act :=
  [.send 0 "alice" (sampleDto "send-key-1"), .tx 0 (sampleCtx "m1"),
   .forward 1 "alice" (toMallory "forward-1"), .target 1,
   .tx 1 { sampleCtx "m2" with threadId := "t2" }, .target 1]

theorem keysApart_right :
    (run (step Devices.sampleEnv none) (start sampleDb) keysApart).db.messages.map (·.forwarded) =
        [false, true] ∧
      AnswersRight Devices.sampleEnv none sampleDb keysApart := by
  have hrequests : requests keysApart =
      [.send "alice" (sampleDto "send-key-1"), .forward "alice" (toMallory "forward-1")] := rfl
  refine ⟨by decide, derived_keys_separate Devices.sampleEnv none sampleDb keysApart
    (oneRequestPerKey_of_unique (by decide)) ?_⟩
  intro userId dto hdto i hi r hr hsingle
  rw [hrequests] at hdto hr
  obtain hdto | hdto := List.mem_pair.mp hdto
  · cases hdto
  · obtain ⟨rfl, rfl⟩ := Request.forward.inj hdto
    obtain rfl | rfl := List.mem_pair.mp hr
    · obtain rfl : i = 0 := Nat.lt_one_iff.mp hi
      decide
    · exact False.elim hsingle

end Birgap.Messaging
