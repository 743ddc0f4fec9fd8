import Birgap.Messaging.System

/-!
# What a step of the messaging system can do

`exec_effect` says once what a step changes: one call, and at most one of the store and the
queue. The invariants of the other modules are proved by cases on it and never unfold
`exec`.
-/
namespace Birgap.Messaging

set_option autoImplicit false

open Birgap.Lib Birgap.Lib.Tx Birgap.Messages Birgap.Groups Birgap.Auth

theorem State.set_self (s : State) (pid : Nat) (c : Call) : (s.set pid c).calls pid = c := by
  show Function.update s.calls pid c pid = c
  rw [Function.update_self]

theorem State.set_of_ne (s : State) {pid q : Nat} (h : q ≠ pid) (c : Call) :
    (s.set pid c).calls q = s.calls q := by
  show Function.update s.calls pid c q = s.calls q
  rw [Function.update_of_ne h]

/-- What holds of every call before and of the new one holds of every call after. -/
theorem State.set_calls {s : State} {pid : Nat} {c : Call} {P : Call → Prop}
    (h : ∀ q, P (s.calls q)) (hc : P c) : ∀ q, P ((s.set pid c).calls q) :=
  (Function.forall_update_iff s.calls fun _ => P).mpr ⟨hc, fun q _ => h q⟩

/-- A settled request leaves its call idle, or between two targets. -/
theorem DirectTask.settle_call {P : Call → Prop} (hidle : P .idle) (hf : ∀ f, P (.forwarding f))
    (t : DirectTask) (o : Except Err Serialized) : P (t.settle o).1 := by
  cases t with
  | send senderUserId dto => cases o <;> exact hidle
  | forward f recipientUserId envelopes => cases o <;> exact hf _

theorem GroupTask.settle_call {P : Call → Prop} (hidle : P .idle) (hf : ∀ f, P (.forwarding f))
    (t : GroupTask) (o : Except Err (Id × Bool)) : P (t.settle o).1 := by
  cases t with
  | message senderUserId groupId dto => cases o <;> exact hidle
  | forward f groupId ciphertext => cases o <;> exact hf _

/-- The acts that look the key of a `send` up outside of its transaction. -/
inductive LooksUp (s : State) (senderUserId : Id) (dto : SendMessageDto) : Act → Prop where
  | first {pid : Nat} (hc : s.calls pid = .idle) : LooksUp s senderUserId dto (.send pid senderUserId dto)
  | again {pid : Nat} (hc : s.calls pid = .recovering (.send senderUserId dto)) :
      LooksUp s senderUserId dto (.recover pid)

/-- How a call moves without writing: from `c` to the second call, returning the last
argument. -/
inductive Moves (s : State) (a : Act) (c : Call) : Call → Option Returned → Prop where
  | ended : Moves s a c .idle none
  | failed {f : Forwarding} (e : Err) (hf : c.forwardOf = some f) :
      Moves s a c (.forwarding (f.push (.error e))) none
  | began {userId : Id} {dto : ForwardMessageDto} {f : Forwarding}
      (hf : startForward userId dto s.db = .ok f) : Moves s a c (.forwarding f) none
  | returned {f : Forwarding} (hf : c.forwardOf = some f) : Moves s a c .idle (some (.forwarded f))
  | sent {senderUserId : Id} {dto : SendMessageDto} {m : Message} (ha : LooksUp s senderUserId dto a)
      (hm : findByKey dto.senderDeviceId dto.idempotencyKey s.db = some m) :
      Moves s a c .idle (some (.sent senderUserId dto (serializeMessage m s.db)))
  | queued {senderUserId groupId : Id} {dto : SendGroupMessageDto} {m : Message}
      (hm : findByKey dto.senderDeviceId dto.idempotencyKey s.db = some m) :
      Moves s a c .idle (some (.queued senderUserId groupId dto m.id false))
  | found {f : Forwarding} {m : Message} (hf : c.forwardOf = some f)
      (hm : findByKey f.dto.senderDeviceId f.perTargetKey s.db = some m) :
      Moves s a c (.forwarding (f.push (.ok m.id))) none
  | sending {t : DirectTask} (hf : c.forwardOf = t.forwarding) : Moves s a c (.sending t) none
  | recovering {t : DirectTask} (hc : c = .sending t) : Moves s a c (.recovering t) none
  | entered {t : GroupTask} (hf : c.forwardOf = t.forwarding)
      (hidle : c = .idle ∨ ∃ f, c = .forwarding f)
      (hmember : isMember t.request.groupId t.request.senderUserId s.db = true)
      (hnone : findByKey t.request.senderDeviceId t.request.idempotencyKey s.db = none) :
      Moves s a c (.entered t) none
  | checked {t : GroupTask} (hc : c = .entered t)
      (hnone : findByKey t.request.senderDeviceId t.request.idempotencyKey s.db = none) :
      Moves s a c (.checked t) none
  | enqueueing {t : GroupTask} {m : Message} (hc : c = .entered t)
      (ha : ∃ pid, a = .txCheck pid ∧ s.calls pid = .entered t)
      (hm : findByKey t.request.senderDeviceId t.request.idempotencyKey s.db = some m) :
      Moves s a c (.enqueueing t m) none
  | numbered {t : GroupTask} (hc : c = .checked t) :
      Moves s a c (.numbered t (nextSequence t.request.groupId s.db)) none
  | validated {t : GroupTask} {sequence : Nat} {replyTo : Option Id} {maxAttachments : Nat}
      (hc : c = .numbered t sequence)
      (hv : validatePayload maxAttachments t.request s.db = .ok replyTo) :
      Moves s a c (.validated t sequence replyTo) none

/-- Where the forward of a moved call comes from: it was there before, it has recorded one
more outcome, or it has just begun. -/
theorem Moves.forwardOf_cases {s : State} {a : Act} {c c' : Call} {r : Option Returned}
    (h : Moves s a c c' r) {f : Forwarding} (hf' : c'.forwardOf = some f) :
    c.forwardOf = some f ∨
    (∃ f₀ o, c.forwardOf = some f₀ ∧ f = f₀.push o ∧ ∀ id, o = .ok id →
      ∃ m, findByKey f₀.dto.senderDeviceId f₀.perTargetKey s.db = some m ∧ m.id = id) ∨
    ∃ userId dto, startForward userId dto s.db = .ok f := by
  cases h with
  | ended => cases hf'
  | returned hf => cases hf'
  | sent ha hm => cases hf'
  | queued hm => cases hf'
  | @failed f₀ e hf =>
      refine Or.inr (Or.inl ⟨f₀, .error e, hf, (Option.some.inj hf').symm, ?_⟩)
      intro id he
      cases he
  | @found f₀ m hf hm =>
      refine Or.inr (Or.inl ⟨f₀, .ok m.id, hf, (Option.some.inj hf').symm, ?_⟩)
      intro id he
      exact ⟨m, hm, Except.ok.inj he⟩
  | @began userId dto g hg =>
      obtain rfl : g = f := Option.some.inj hf'
      exact Or.inr (Or.inr ⟨userId, dto, hg⟩)
  | sending hf => exact Or.inl (hf.trans hf')
  | entered hf hidle hmember hnone => exact Or.inl (hf.trans hf')
  | recovering hc =>
      rw [hc]
      exact Or.inl hf'
  | checked hc hnone =>
      rw [hc]
      exact Or.inl hf'
  | enqueueing hc ha hm =>
      rw [hc]
      exact Or.inl hf'
  | numbered hc =>
      rw [hc]
      exact Or.inl hf'
  | validated hc hv =>
      rw [hc]
      exact Or.inl hf'

/-- What a step does to the whole state, with what it returns. A write belongs to its own
act; a call can also move by an act that would have written. -/
inductive Effect (env : AuthEnv) (configuredMax : Option Int) (s : State) :
    Act → State × Option Returned → Prop where
  | stay {a : Act} : Effect env configuredMax s a (s, none)
  | moved {a : Act} {pid : Nat} {c : Call} {r : Option Returned} (h : Moves s a (s.calls pid) c r) :
      Effect env configuredMax s a (s.set pid c, r)
  | posted {pid : Nat} {t : DirectTask} {ctx : Ctx} {created : Serialized} {db : Db}
      (hc : s.calls pid = .sending t) (htx : t.tx ctx s.db = .ok (created, db)) :
      Effect env configuredMax s (.tx pid ctx)
        ({ s with db := db }.finish pid (t.settle (.ok created)))
  | committed {pid : Nat} {t : GroupTask} {sequence : Nat} {replyTo : Option Id} {now : Time}
      {messageId : Id} {mediaId : Nat → Id} {db : Db}
      (hc : s.calls pid = .validated t sequence replyTo)
      (hdb : commitGroupMessage now mediaId (groupMessage now messageId t.request sequence replyTo)
        t.request s.db = .ok db) :
      Effect env configuredMax s (.commit pid now messageId mediaId)
        ({ s with db := db }.set pid
          (.enqueueing t (groupMessage now messageId t.request sequence replyTo)), none)
  | enqueued {pid : Nat} {t : GroupTask} {m : Message} (hc : s.calls pid = .enqueueing t m) :
      Effect env configuredMax s (.enqueue pid)
        ({ s with jobs := s.jobs ++ [fanoutJob t.request m] }.finish pid (t.settle (.ok (m.id, true))))
  | fannedOut {index : Nat} {now : Time} {envelopeId : Nat → Id} {job : GroupFanoutJobData}
      (hjob : job ∈ s.jobs) :
      Effect env configuredMax s (.fanout index now envelopeId)
        ({ s with db := (Groups.fanout now envelopeId job s.db).2 }, none)
  | device {op : Devices.Op} :
      Effect env configuredMax s (.device op)
        ({ s with db := Devices.step env configuredMax s.db op }, none)

/-- An error ends a request, or is recorded for the current target of a forward. -/
theorem moves_direct_error {s : State} {a : Act} {c : Call} (t : DirectTask) (e : Err)
    (hf : c.forwardOf = t.forwarding) :
    Moves s a c (t.settle (.error e)).1 (t.settle (.error e)).2 := by
  cases t with
  | send senderUserId dto => exact Moves.ended
  | forward f recipientUserId envelopes => exact Moves.failed e hf

theorem moves_group_error {s : State} {a : Act} {c : Call} (t : GroupTask) (e : Err)
    (hf : c.forwardOf = t.forwarding) :
    Moves s a c (t.settle (.error e)).1 (t.settle (.error e)).2 := by
  cases t with
  | message senderUserId groupId dto => exact Moves.ended
  | forward f groupId ciphertext => exact Moves.failed e hf

theorem moves_throw (s : State) (a : Act) (c : Call) (e : Err) : Moves s a c (c.throw e) none := by
  have hdirect : ∀ t : DirectTask, (t.settle (.error e)).2 = none := by
    intro t
    cases t <;> rfl
  have hgroup : ∀ t : GroupTask, (t.settle (.error e)).2 = none := by
    intro t
    cases t <;> rfl
  cases c with
  | idle => exact Moves.ended
  | forwarding f => exact Moves.ended
  | sending t =>
      rw [← hdirect t]
      exact moves_direct_error t e rfl
  | recovering t =>
      rw [← hdirect t]
      exact moves_direct_error t e rfl
  | entered t =>
      rw [← hgroup t]
      exact moves_group_error t e rfl
  | checked t =>
      rw [← hgroup t]
      exact moves_group_error t e rfl
  | numbered t sequence =>
      rw [← hgroup t]
      exact moves_group_error t e rfl
  | validated t sequence replyTo =>
      rw [← hgroup t]
      exact moves_group_error t e rfl
  | enqueueing t m =>
      rw [← hgroup t]
      exact moves_group_error t e rfl

/-- A stored message under the key of a direct request ends it. -/
theorem moves_direct_found {s : State} {a : Act} {c : Call} {t : DirectTask} {m : Message}
    (ha : ∀ senderUserId dto, t = .send senderUserId dto → LooksUp s senderUserId dto a)
    (hf : c.forwardOf = t.forwarding)
    (hm : findByKey t.senderDeviceId t.idempotencyKey s.db = some m) :
    Moves s a c (t.settle (.ok (serializeMessage m s.db))).1
      (t.settle (.ok (serializeMessage m s.db))).2 := by
  cases t with
  | send senderUserId dto => exact Moves.sent (ha senderUserId dto rfl) hm
  | forward f recipientUserId envelopes => exact Moves.found hf hm

theorem moves_group_found {s : State} {a : Act} {c : Call} {t : GroupTask} {m : Message}
    (hf : c.forwardOf = t.forwarding)
    (hm : findByKey t.request.senderDeviceId t.request.idempotencyKey s.db = some m) :
    Moves s a c (t.settle (.ok (m.id, false))).1 (t.settle (.ok (m.id, false))).2 := by
  cases t with
  | message senderUserId groupId dto => exact Moves.queued hm
  | forward f groupId ciphertext => exact Moves.found hf hm

/-- What a committed direct transaction did, whichever service ran it. -/
theorem DirectTask.tx_ok {t : DirectTask} {ctx : Ctx} {db db' : Db} {created : Serialized}
    (h : t.tx ctx db = .ok (created, db')) :
    ∃ recipientUserId envelopes ids,
      routeDevices t.senderUserId t.senderDeviceId recipientUserId envelopes db = .ok ids ∧
      WrittenFrom ctx.messageId t.senderUserId t.senderDeviceId t.idempotencyKey db created.message ∧
      Posted ctx.threadId (canonicalDirectPair t.senderUserId recipientUserId) created.message
        (directEnvelopes ctx t.senderUserId recipientUserId ids envelopes) db db' := by
  cases t with
  | send senderUserId dto =>
      obtain ⟨ids, hr, hw, hp⟩ := sendTx_ok h
      exact ⟨dto.recipientUserId, dto.envelopes, ids, hr, hw, hp⟩
  | forward f recipientUserId envelopes =>
      obtain ⟨ids, hr, hw, hp⟩ := forwardTx_ok h
      exact ⟨recipientUserId, envelopes, ids, hr, hw, hp⟩

section Effects

variable (env : AuthEnv) (configuredMax : Option Int)

theorem enterDirect_effect {s : State} {a : Act} {pid : Nat} {t : DirectTask}
    (ha : ∀ senderUserId dto, t = .send senderUserId dto → LooksUp s senderUserId dto a)
    (hf : (s.calls pid).forwardOf = t.forwarding) :
    Effect env configuredMax s a (enterDirect s pid t) := by
  unfold enterDirect
  split
  · rename_i m hm
    exact Effect.moved (moves_direct_found ha hf hm)
  · exact Effect.moved (Moves.sending hf)

theorem enterGroup_effect {s : State} {a : Act} {pid : Nat} {t : GroupTask}
    (hf : (s.calls pid).forwardOf = t.forwarding)
    (hidle : s.calls pid = .idle ∨ ∃ f, s.calls pid = .forwarding f) :
    Effect env configuredMax s a (enterGroup s pid t) := by
  unfold enterGroup
  split
  · exact Effect.moved (moves_group_error t _ hf)
  · rename_i hmember
    split
    · rename_i m hm
      exact Effect.moved (moves_group_found hf hm)
    · rename_i hnone
      exact Effect.moved (Moves.entered hf hidle (by simpa using hmember) hnone)

theorem nextTarget_effect {s : State} {a : Act} {pid : Nat} {f : Forwarding}
    (hc : s.calls pid = .forwarding f) : Effect env configuredMax s a (nextTarget s pid f) := by
  have hf : (s.calls pid).forwardOf = some f := by
    rw [hc]
    rfl
  unfold nextTarget
  split
  · exact Effect.moved (Moves.returned hf)
  · split
    · split
      · exact Effect.moved (Moves.failed _ hf)
      · exact enterDirect_effect env configuredMax (fun _ _ he => by cases he) hf
    · split
      · exact Effect.moved (Moves.failed _ hf)
      · exact enterGroup_effect env configuredMax hf (Or.inr ⟨f, hc⟩)

theorem exec_effect (s : State) (a : Act) :
    Effect env configuredMax s a (exec env configuredMax s a) := by
  cases a with
  | send pid senderUserId dto =>
      simp only [exec]
      split
      · rename_i hc
        apply enterDirect_effect
        · intro senderUserId' dto' he
          obtain ⟨rfl, rfl⟩ := DirectTask.send.inj he
          exact LooksUp.first hc
        · rw [hc]
          rfl
      · exact Effect.stay
  | queueGroupMessage pid senderUserId groupId dto =>
      simp only [exec]
      split
      · rename_i hc
        refine enterGroup_effect env configuredMax ?_ (Or.inl hc)
        rw [hc]
        rfl
      · exact Effect.stay
  | forward pid userId dto =>
      simp only [exec]
      split
      · split
        · exact Effect.stay
        · rename_i f hf
          exact Effect.moved (Moves.began hf)
      · exact Effect.stay
  | target pid =>
      simp only [exec]
      split
      · rename_i f hc
        exact nextTarget_effect env configuredMax hc
      · exact Effect.stay
  | tx pid ctx =>
      simp only [exec]
      split
      · rename_i t hc
        split
        · rename_i created db htx
          exact Effect.posted hc htx
        · exact Effect.moved (Moves.recovering hc)
        · exact Effect.moved (moves_direct_error t _ (by rw [hc]; rfl))
      · exact Effect.stay
  | recover pid =>
      simp only [exec]
      split
      · rename_i t hc
        have hf : (s.calls pid).forwardOf = t.forwarding := by
          rw [hc]
          rfl
        split
        · rename_i m hm
          refine Effect.moved (moves_direct_found ?_ hf hm)
          intro senderUserId dto he
          rw [he] at hc
          exact LooksUp.again hc
        · exact Effect.moved (moves_direct_error t _ hf)
      · exact Effect.stay
  | txCheck pid =>
      simp only [exec]
      split
      · rename_i t hc
        split
        · rename_i m hm
          exact Effect.moved (Moves.enqueueing hc ⟨pid, rfl, hc⟩ hm)
        · rename_i hnone
          exact Effect.moved (Moves.checked hc hnone)
      · exact Effect.stay
  | readMax pid =>
      simp only [exec]
      split
      · rename_i t hc
        exact Effect.moved (Moves.numbered hc)
      · exact Effect.stay
  | validate pid maxAttachments =>
      simp only [exec]
      split
      · rename_i t sequence hc
        split
        · rename_i replyTo hv
          exact Effect.moved (Moves.validated hc hv)
        · exact Effect.moved (moves_group_error t _ (by rw [hc]; rfl))
      · exact Effect.stay
  | commit pid now messageId mediaId =>
      simp only [exec]
      split
      · rename_i t sequence replyTo hc
        split
        · rename_i db hdb
          exact Effect.committed hc hdb
        · exact Effect.moved (moves_group_error t _ (by rw [hc]; rfl))
      · exact Effect.stay
  | enqueue pid =>
      simp only [exec]
      split
      · rename_i t m hc
        exact Effect.enqueued hc
      · exact Effect.stay
  | fail pid e =>
      simp only [exec]
      exact Effect.moved (moves_throw s _ (s.calls pid) e)
  | fanout index now envelopeId =>
      simp only [exec]
      split
      · rename_i job hjob
        exact Effect.fannedOut (List.mem_of_getElem? hjob)
      · exact Effect.stay
  | device op =>
      simp only [exec]
      exact Effect.device

end Effects

/-! ## Forwards in flight -/

/-- The forward goes on from the one of a call, or has just begun. -/
def Continues (s : State) (c : Call) (f : Forwarding) : Prop :=
  (∃ f₀, c.forwardOf = some f₀ ∧ f.userId = f₀.userId ∧ f.dto = f₀.dto ∧
    f.sourceMedia = f₀.sourceMedia) ∨
  ∃ userId dto, startForward userId dto s.db = .ok f

theorem Continues.push {s : State} {c : Call} {f : Forwarding} (hf : c.forwardOf = some f)
    (o : Except Err Id) : Continues s c (f.push o) :=
  Or.inl ⟨f, hf, f.push_userId o, f.push_dto o, f.push_sourceMedia o⟩

theorem Continues.refl {s : State} {c : Call} {f : Forwarding} (hf : c.forwardOf = some f) :
    Continues s c f :=
  Or.inl ⟨f, hf, rfl, rfl, rfl⟩

theorem Moves.continues {s : State} {a : Act} {c c' : Call} {r : Option Returned}
    (h : Moves s a c c' r) {f : Forwarding} (hf : c'.forwardOf = some f) : Continues s c f := by
  rcases h.forwardOf_cases hf with hold | ⟨f₀, o, hf₀, rfl, _⟩ | hstart
  · exact Continues.refl hold
  · exact Continues.push hf₀ o
  · exact Or.inr hstart

/-- Only the moved call has another forward. -/
theorem set_continues {s t : State} (ht : t.calls = s.calls) {q : Nat} {c : Call}
    (hc : ∀ f, c.forwardOf = some f → Continues s (s.calls q) f) {pid : Nat} {f : Forwarding}
    (hf : ((t.set q c).calls pid).forwardOf = some f) : Continues s (s.calls pid) f := by
  by_cases hq : pid = q
  · subst hq
    rw [State.set_self] at hf
    exact hc f hf
  · rw [State.set_of_ne _ hq, ht] at hf
    exact Continues.refl hf

theorem Effect.continues {env : AuthEnv} {configuredMax : Option Int} {s : State} {a : Act}
    {o : State × Option Returned} (h : Effect env configuredMax s a o) {pid : Nat} {f : Forwarding}
    (hf : (o.1.calls pid).forwardOf = some f) : Continues s (s.calls pid) f := by
  cases h with
  | stay => exact Continues.refl hf
  | moved hm => exact set_continues rfl (fun _ hg => hm.continues hg) hf
  | @posted q t ctx created db hc htx =>
      refine set_continues (s := s) (t := { s with db := db }) rfl ?_ hf
      intro g hg
      rw [hc]
      cases t with
      | send senderUserId dto => cases hg
      | forward f₀ recipientUserId envelopes =>
          obtain rfl := Option.some.inj hg
          exact Continues.push rfl _
  | @committed q t sequence replyTo now messageId mediaId db hc hdb =>
      refine set_continues (s := s) (t := { s with db := db }) rfl ?_ hf
      intro g hg
      rw [hc]
      exact Continues.refl hg
  | @enqueued q t m hc =>
      refine set_continues (s := s) (t := { s with jobs := s.jobs ++ [fanoutJob t.request m] }) rfl ?_ hf
      intro g hg
      rw [hc]
      cases t with
      | message senderUserId groupId dto => cases hg
      | forward f₀ groupId ciphertext =>
          obtain rfl := Option.some.inj hg
          exact Continues.push rfl _
  | fannedOut hjob => exact Continues.refl hf
  | device => exact Continues.refl hf

section Store

variable {env : AuthEnv} {configuredMax : Option Int}

/-- A fan-out writes envelopes only. -/
theorem fanout_frame (now : Time) (envelopeId : Nat → Id) (job : GroupFanoutJobData) (db : Db) :
    ∃ envelopes, (Groups.fanout now envelopeId job db).2 = { db with messageEnvelopes := envelopes } := by
  unfold Groups.fanout
  dsimp only
  split
  · exact ⟨db.messageEnvelopes, rfl⟩
  · split
    · exact ⟨db.messageEnvelopes, rfl⟩
    · exact ⟨_, rfl⟩

/-- A step that stores a message, and the message. -/
inductive Inserts (s : State) (db' : Db) : Act → Message → Prop where
  | posted {pid : Nat} {t : DirectTask} {ctx : Ctx} {answer : Serialized}
      (hc : s.calls pid = .sending t) (htx : t.tx ctx s.db = .ok (answer, db')) :
      Inserts s db' (.tx pid ctx) answer.message
  | committed {pid : Nat} {t : GroupTask} {sequence : Nat} {replyTo : Option Id} {now : Time}
      {messageId : Id} {mediaId : Nat → Id} (hc : s.calls pid = .validated t sequence replyTo)
      (hdb : commitGroupMessage now mediaId (groupMessage now messageId t.request sequence replyTo)
        t.request s.db = .ok db') :
      Inserts s db' (.commit pid now messageId mediaId)
        (groupMessage now messageId t.request sequence replyTo)

/-- The message violates no unique index, and is stored after all others. -/
theorem Inserts.messages {s : State} {db' : Db} {a : Act} {m : Message} (h : Inserts s db' a m) :
    (∀ x ∈ s.db.messages, messageClash m x = false) ∧ db'.messages = s.db.messages ++ [m] := by
  cases h with
  | posted hc htx =>
      obtain ⟨_, _, _, _, _, hp⟩ := DirectTask.tx_ok htx
      obtain ⟨hclash, hmsgs, _, _⟩ := hp.messages
      exact ⟨hclash, hmsgs⟩
  | committed hc hdb =>
      obtain ⟨hclash, hmsgs, _, _⟩ := commitGroupMessage_ok hdb
      exact ⟨hclash, hmsgs⟩

/-- The tables that only an insert of a message touches. -/
structure SameConversations (db db' : Db) : Prop where
  messages : db'.messages = db.messages
  threads : db'.directThreads = db.directThreads
  media : db'.messageMedia = db.messageMedia

theorem SameConversations.refl (db : Db) : SameConversations db db := ⟨rfl, rfl, rfl⟩

/-- A step stores one message, or leaves messages, threads and attachments alone. -/
theorem Effect.inserts {s : State} {a : Act} {o : State × Option Returned}
    (h : Effect env configuredMax s a o) :
    SameConversations s.db o.1.db ∨ ∃ m, Inserts s o.1.db a m := by
  cases h with
  | stay => exact Or.inl (.refl s.db)
  | moved h => exact Or.inl (.refl s.db)
  | enqueued hc => exact Or.inl (.refl s.db)
  | posted hc htx => exact Or.inr ⟨_, .posted hc htx⟩
  | committed hc hdb => exact Or.inr ⟨_, .committed hc hdb⟩
  | @fannedOut index now envelopeId job hjob =>
      obtain ⟨envelopes, hf⟩ := fanout_frame now envelopeId job s.db
      rw [hf]
      exact Or.inl ⟨rfl, rfl, rfl⟩
  | @device op =>
      obtain ⟨devices, tokens, hf⟩ := Devices.step_frame env configuredMax s.db op
      rw [hf]
      exact Or.inl ⟨rfl, rfl, rfl⟩

/-- A step adds at most one message, and only one that violates no unique index. -/
theorem Effect.messages {s : State} {a : Act} {o : State × Option Returned}
    (h : Effect env configuredMax s a o) :
    o.1.db.messages = s.db.messages ∨
      ∃ m, (∀ x ∈ s.db.messages, messageClash m x = false) ∧
        o.1.db.messages = s.db.messages ++ [m] := by
  rcases h.inserts with hsame | ⟨m, hm⟩
  · exact Or.inl hsame.messages
  · exact Or.inr ⟨m, hm.messages⟩

/-- Every unique index of the message table holds after a step. -/
theorem Effect.unique {κ : Type} {k : Message → κ} (hk : ∀ m x, k x = k m → messageClash m x = true)
    {s : State} {a : Act} {o : State × Option Returned} (h : Effect env configuredMax s a o)
    (hu : Rows.Unique k s.db.messages) : Rows.Unique k o.1.db.messages := by
  rcases h.messages with hm | ⟨m, hclash, hm⟩
  · rw [hm]
    exact hu
  · rw [hm]
    apply Rows.unique_append hu
    intro x hx he
    have hno := hclash x hx
    rw [hk m x he] at hno
    cases hno

/-- Only the operations on devices write the devices. -/
theorem Effect.devices {s : State} {a : Act} {o : State × Option Returned}
    (h : Effect env configuredMax s a o) :
    o.1.db.devices = s.db.devices ∨
      ∃ op, o.1.db.devices = (Devices.step env configuredMax s.db op).devices := by
  cases h with
  | stay => exact Or.inl rfl
  | moved h => exact Or.inl rfl
  | enqueued hc => exact Or.inl rfl
  | posted hc htx =>
      obtain ⟨_, _, _, _, _, hp⟩ := DirectTask.tx_ok htx
      obtain ⟨_, _, _, _, _, _, _, _, _, _, _, _, rfl⟩ := hp
      exact Or.inl rfl
  | @committed pid t sequence replyTo now messageId mediaId db hc hdb =>
      obtain ⟨_, hrow⟩ := commitGroupMessage_eq hdb
      left
      show db.devices = s.db.devices
      rw [hrow]
  | @fannedOut index now envelopeId job hjob =>
      obtain ⟨envelopes, hf⟩ := fanout_frame now envelopeId job s.db
      rw [hf]
      exact Or.inl rfl
  | @device op => exact Or.inr ⟨op, rfl⟩

theorem Effect.deviceKeys {s : State} {a : Act} {o : State × Option Returned}
    (h : Effect env configuredMax s a o) (hk : Devices.DeviceKeys s.db) :
    Devices.DeviceKeys o.1.db := by
  unfold Devices.DeviceKeys
  rcases h.devices with he | ⟨op, he⟩
  · rw [he]
    exact hk
  · rw [he]
    exact Devices.step_keys env configuredMax s.db op hk

/-- No step removes a device or changes its owner. -/
theorem Effect.owner_kept {s : State} {a : Act} {o : State × Option Returned}
    (h : Effect env configuredMax s a o) (hk : Devices.DeviceKeys s.db) {id userId : Id}
    (hd : ∃ d ∈ s.db.devices, d.id = id ∧ d.userId = userId) :
    ∃ d ∈ o.1.db.devices, d.id = id ∧ d.userId = userId := by
  rcases h.devices with he | ⟨op, he⟩
  · rw [he]
    exact hd
  · obtain ⟨d, hd, rfl, rfl⟩ := hd
    rw [he]
    exact Devices.step_owners env configuredMax s.db op hk hd

/-- No step removes or changes a message. -/
theorem Effect.messages_kept {s : State} {a : Act} {o : State × Option Returned}
    (h : Effect env configuredMax s a o) : ∀ x ∈ s.db.messages, x ∈ o.1.db.messages := by
  intro x hx
  rcases h.messages with he | ⟨m, _, he⟩
  · rw [he]
    exact hx
  · rw [he]
    exact List.mem_append_left _ hx

/-- The threads stay numbered through every step. -/
theorem Effect.sequenced {s : State} {a : Act} {o : State × Option Returned}
    (h : Effect env configuredMax s a o) (hs : Sequence.Sequenced s.db) :
    Sequence.Sequenced o.1.db := by
  rcases h.inserts with hsame | ⟨m, hm⟩
  · exact hs.frame hsame.threads hsame.messages
  · cases hm with
    | posted hc htx =>
        obtain ⟨_, _, _, hroute, _, hp⟩ := DirectTask.tx_ok htx
        exact Sequence.posted_sequenced hp (canonicalDirectPair_lt (routeDevices_ne hroute)) hs
    | @committed pid t sequence replyTo now messageId mediaId hc hdb =>
        obtain ⟨_, hrow⟩ := commitGroupMessage_eq hdb
        rw [hrow]
        exact hs.append_other (groupMessage_thread now messageId t.request sequence replyTo)
          o.1.db.messageMedia

end Store

end Birgap.Messaging
