import Birgap.Messaging.Numbering

/-!
# Replies are one level deep

A direct transaction checks the reply target and numbers the message in one step. A group
transaction reads its number before the target, so that the target comes first is not seen
when it is read: it follows from the insert, which only succeeds under the next number.
-/
namespace Birgap.Messaging

set_option autoImplicit false

open Birgap.Lib Birgap.Lib.Run Birgap.Messages Birgap.Messages.Sequence Birgap.Groups Birgap.Auth

/-- Two messages of one thread, or of one group. -/
def SameConversation (p m : Message) : Prop :=
  (m.threadId.isSome ∧ p.threadId = m.threadId) ∨ (m.groupId.isSome ∧ p.groupId = m.groupId)

/-- A reply refers to an earlier message of its conversation that is no reply. -/
def RepliesToTop (db : Db) (m : Message) : Prop :=
  ∀ id, m.replyToMessageId = some id →
    ∃ p ∈ db.messages, p.id = id ∧ SameConversation p m ∧ p.replyToMessageId = none ∧
      p.threadSequence < m.threadSequence

/-- The reply target a group call goes on with. -/
def TargetRead (db : Db) : Call → Prop
  | .validated t _ replyTo => ∀ id, replyTo = some id →
      ∃ p ∈ db.messages, p.id = id ∧ p.groupId = some t.request.groupId ∧ p.replyToMessageId = none
  | _ => True

structure Threaded (s : State) : Prop where
  numbered : Numbered s
  sequenced : Sequenced s.db
  replies : ∀ m ∈ s.db.messages, RepliesToTop s.db m
  read : ∀ pid, TargetRead s.db (s.calls pid)

theorem start_threaded (db : Db) : Threaded (start db) := by
  refine ⟨start_numbered db, ?_, ?_, fun _ => trivial⟩
  · apply sequenced_of_empty rfl
    intro m hm
    cases hm
  · intro m hm
    cases hm

theorem RepliesToTop.mono {db db' : Db} {m : Message} (h : ∀ x ∈ db.messages, x ∈ db'.messages)
    (hm : RepliesToTop db m) : RepliesToTop db' m := by
  intro id hid
  obtain ⟨p, hp, hrest⟩ := hm id hid
  exact ⟨p, h p hp, hrest⟩

theorem TargetRead.mono {db db' : Db} {c : Call} (h : ∀ x ∈ db.messages, x ∈ db'.messages)
    (hc : TargetRead db c) : TargetRead db' c := by
  cases c with
  | validated t sequence replyTo =>
      intro id hid
      obtain ⟨p, hp, hrest⟩ := hc id hid
      exact ⟨p, h p hp, hrest⟩
  | _ => trivial

theorem Moves.targetRead {s : State} {a : Act} {c c' : Call} {r : Option Returned}
    (h : Moves s a c c' r) :
    TargetRead s.db c' := by
  cases h with
  | validated hc hv => exact validatePayload_ok hv
  | _ => trivial

/-- One more message whose reply target is in order. -/
theorem replies_append {db db' : Db} {m : Message} (hdb : db'.messages = db.messages ++ [m])
    (h : ∀ x ∈ db.messages, RepliesToTop db x) (hm : RepliesToTop db m) :
    ∀ x ∈ db'.messages, RepliesToTop db' x := by
  have hkept : ∀ x ∈ db.messages, x ∈ db'.messages := by
    intro x hx
    rw [hdb]
    exact List.mem_append_left _ hx
  intro x hx
  rw [hdb] at hx
  rcases List.mem_append.mp hx with hx | hx
  · exact (h x hx).mono hkept
  · rw [List.mem_singleton.mp hx]
    exact hm.mono hkept

/-- The target of a direct message was checked under the lock of its thread. -/
theorem posted_repliesToTop {threadId messageId senderUserId senderDeviceId : Id}
    {idempotencyKey : String} {pair : Id × Id} {m : Message} {envelopes : List MessageEnvelope}
    {db db' : Db} (hp : Posted threadId pair m envelopes db db') (hlt : pair.1 < pair.2)
    (hw : WrittenFrom messageId senderUserId senderDeviceId idempotencyKey db m)
    (hs : Sequenced db) : RepliesToTop db m := by
  intro id hid
  obtain ⟨p, hpm, hpid, hthread, htop⟩ := hw.reply id hid
  obtain ⟨_, _, hsome, _⟩ := hp.messages
  exact ⟨p, hpm, hpid, Or.inl ⟨hsome, hthread⟩, htop, posted_after hp hlt hs p hpm hthread⟩

/-- The target of a group message has a smaller number: the insert took the next one. -/
theorem Threaded.committed_repliesToTop {s : State} (h : Threaded s) {t : GroupTask} {sequence : Nat}
    {replyTo : Option Id} {pid : Nat} (hc : s.calls pid = .validated t sequence replyTo) {now : Time}
    {messageId : Id}
    (hclash : ∀ x ∈ s.db.messages,
      messageClash (groupMessage now messageId t.request sequence replyTo) x = false) :
    RepliesToTop s.db (groupMessage now messageId t.request sequence replyTo) := by
  have hgroup := groupMessage_group now messageId t.request sequence replyTo
  have hnumber : InRange s.db t.request.groupId sequence := by
    have hread := h.numbered.read pid
    rw [hc] at hread
    exact hread
  have hnext := h.numbered.next hgroup (by rw [groupMessage_sequence]; exact hnumber) hclash
  intro id hid
  have hread := h.read pid
  rw [hc] at hread
  obtain ⟨p, hp, hpid, hpgroup, htop⟩ := hread id (groupMessage_reply hid)
  refine ⟨p, hp, hpid, Or.inr ⟨by rw [hgroup]; rfl, hpgroup.trans hgroup.symm⟩, htop, ?_⟩
  have hmem : p.threadSequence ∈ groupSequences t.request.groupId s.db := by
    apply List.mem_map_of_mem
    rw [List.mem_filter]
    exact ⟨hp, beq_iff_eq.mpr hpgroup⟩
  have hle := ((h.numbered.gapless t.request.groupId).mem_iff.mp hmem).2
  rw [hnext]
  exact Nat.lt_succ_of_le hle

theorem Effect.threaded {env : AuthEnv} {configuredMax : Option Int} {s : State}
    {a : Act} {o : State × Option Returned} (he : Effect env configuredMax s a o) (h : Threaded s) :
    Threaded o.1 := by
  have hnumbered := he.numbered h.numbered
  have hsequenced := he.sequenced h.sequenced
  have hread : ∀ pid, TargetRead o.1.db (s.calls pid) := fun pid => (h.read pid).mono he.messages_kept
  cases he with
  | stay => exact h
  | moved hm => exact ⟨hnumbered, hsequenced, h.replies, State.set_calls hread hm.targetRead⟩
  | @posted pid t ctx created db hc htx =>
      obtain ⟨recipientUserId, envelopes, ids, hroute, hw, hp⟩ := DirectTask.tx_ok htx
      have hlt := canonicalDirectPair_lt (routeDevices_ne hroute)
      obtain ⟨_, hmsgs, _, _⟩ := hp.messages
      exact ⟨hnumbered, hsequenced,
        replies_append hmsgs h.replies (posted_repliesToTop hp hlt hw h.sequenced),
        State.set_calls hread (t.settle_call trivial (fun _ => trivial) (.ok created))⟩
  | @committed pid t sequence replyTo now messageId mediaId db hc hdb =>
      obtain ⟨hclash, hrow⟩ := commitGroupMessage_eq hdb
      have hmsgs : db.messages = s.db.messages ++
          [groupMessage now messageId t.request sequence replyTo] := by rw [hrow]
      exact ⟨hnumbered, hsequenced,
        replies_append hmsgs h.replies (h.committed_repliesToTop hc hclash),
        State.set_calls hread trivial⟩
  | @enqueued pid t m hc =>
      exact ⟨hnumbered, hsequenced, h.replies,
        State.set_calls hread (t.settle_call trivial (fun _ => trivial) (.ok (m.id, true)))⟩
  | @fannedOut index now envelopeId job hjob =>
      obtain ⟨envelopes, hf⟩ := fanout_frame now envelopeId job s.db
      rw [hf] at hnumbered hsequenced ⊢
      exact ⟨hnumbered, hsequenced, h.replies, h.read⟩
  | @device op =>
      obtain ⟨devices, tokens, hf⟩ := Devices.step_frame env configuredMax s.db op
      rw [hf] at hnumbered hsequenced ⊢
      exact ⟨hnumbered, hsequenced, h.replies, h.read⟩

theorem step_threaded (env : AuthEnv) (configuredMax : Option Int) (s : State) (a : Act)
    (h : Threaded s) : Threaded (step env configuredMax s a) :=
  (exec_effect env configuredMax s a).threaded h

/-- In every state of every interleaving, a message with a reply target has a stored one, in
its own thread or group, that is no reply and has a smaller number. -/
theorem replies_one_level (env : AuthEnv) (configuredMax : Option Int) (db : Db) (acts : List Act) :
    Always (step env configuredMax) (fun s => ∀ m ∈ s.db.messages, RepliesToTop s.db m)
      (start db) acts := by
  intro pre _
  have ht := run_invariant (step_threaded env configuredMax) pre (start db) (start_threaded db)
  exact ht.replies

end Birgap.Messaging
