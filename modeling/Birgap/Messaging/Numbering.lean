import Birgap.Messaging.Steps

/-!
# Group messages are numbered without gaps

A group transaction takes the greatest number it reads plus one, which may be stale when
it inserts. Every number a call holds is at most one past the numbers of its group, and the
unique index refuses the numbers in use, so an insert that succeeds uses the next number.
-/
namespace Birgap.Messaging

set_option autoImplicit false

open Birgap.Lib Birgap.Lib.Run Birgap.Lib.Sequence Birgap.Messages Birgap.Groups Birgap.Auth

/-- The numbers of the messages of a group, in insertion order. -/
def groupSequences (groupId : Id) (db : Db) : List Nat :=
  (db.messages.filter (·.groupId == some groupId)).map (·.threadSequence)

/-- A number of the group, or the next one. -/
def InRange (db : Db) (groupId : Id) (k : Nat) : Prop :=
  1 ≤ k ∧ k ≤ (groupSequences groupId db).length + 1

/-- The number a call goes on with was in range when it read it and has stayed so. -/
def NumberRead (db : Db) : Call → Prop
  | .numbered t sequence => InRange db t.request.groupId sequence
  | .validated t sequence _ => InRange db t.request.groupId sequence
  | _ => True

structure Numbered (s : State) : Prop where
  gapless : ∀ groupId, Gapless (groupSequences groupId s.db).length (groupSequences groupId s.db)
  read : ∀ pid, NumberRead s.db (s.calls pid)

theorem start_numbered (db : Db) : Numbered (start db) :=
  ⟨fun _ => gapless_nil, fun _ => trivial⟩

theorem groupSequences_append {db db' : Db} {m : Message} (h : db'.messages = db.messages ++ [m])
    (groupId : Id) :
    groupSequences groupId db' = groupSequences groupId db ++
      if m.groupId = some groupId then [m.threadSequence] else [] := by
  unfold groupSequences
  rw [h, List.filter_append, List.map_append]
  by_cases hg : m.groupId = some groupId
  · simp [hg]
  · simp [hg]

theorem NumberRead.mono {db db' : Db} {c : Call}
    (h : ∀ groupId, (groupSequences groupId db).length ≤ (groupSequences groupId db').length)
    (hc : NumberRead db c) : NumberRead db' c := by
  cases c with
  | numbered t sequence =>
      have hle := h t.request.groupId
      have hold : InRange db t.request.groupId sequence := hc
      exact ⟨hold.1, by have := hold.2; omega⟩
  | validated t sequence replyTo =>
      have hle := h t.request.groupId
      have hold : InRange db t.request.groupId sequence := hc
      exact ⟨hold.1, by have := hold.2; omega⟩
  | idle => trivial
  | sending t => trivial
  | recovering t => trivial
  | entered t => trivial
  | checked t => trivial
  | enqueueing t m => trivial
  | forwarding f => trivial

/-- The number read by a call is one past a number of the group, or the first. -/
theorem nextSequence_inRange {db : Db} {groupId : Id}
    (h : Gapless (groupSequences groupId db).length (groupSequences groupId db)) :
    InRange db groupId (nextSequence groupId db) := by
  unfold nextSequence
  split
  · exact ⟨le_refl 1, by omega⟩
  · rename_i m hm
    have hmem : m.threadSequence ∈ groupSequences groupId db :=
      List.mem_map_of_mem (Rows.newest_mem hm)
    have hle := (h.mem_iff.mp hmem).2
    exact ⟨by omega, by omega⟩

/-- A message under a number in range that clashes with none has the next number. -/
theorem Numbered.next {s : State} (h : Numbered s) {m : Message} {groupId : Id}
    (hg : m.groupId = some groupId) (hr : InRange s.db groupId m.threadSequence)
    (hclash : ∀ x ∈ s.db.messages, messageClash m x = false) :
    m.threadSequence = (groupSequences groupId s.db).length + 1 := by
  apply (h.gapless groupId).eq_next hr.1 hr.2
  intro hmem
  obtain ⟨x, hx, hseq⟩ := List.mem_map.mp hmem
  obtain ⟨hx, hxg⟩ := List.mem_filter.mp hx
  have hno := hclash x hx
  have hxg' : x.groupId = some groupId := beq_iff_eq.mp hxg
  simp [messageClash, hg, hxg', hseq] at hno

/-- A call that moves keeps the number it read. -/
theorem Moves.numberRead {s : State} {a : Act} {pid : Nat} {c : Call} {r : Option Returned}
    (hs : Numbered s) (h : Moves s a (s.calls pid) c r) : NumberRead s.db c := by
  cases h with
  | numbered hc => exact nextSequence_inRange (hs.gapless _)
  | validated hc hv =>
      have hold := hs.read pid
      rw [hc] at hold
      exact hold
  | _ => trivial

/-- A store whose messages are the same, or grew by one outside of all groups. -/
theorem Numbered.of_same {s : State} (h : Numbered s) {db : Db}
    (hsame : ∀ groupId, groupSequences groupId db = groupSequences groupId s.db) :
    Numbered { s with db := db } := by
  refine ⟨?_, ?_⟩
  · intro groupId
    show Gapless (groupSequences groupId db).length (groupSequences groupId db)
    rw [hsame groupId]
    exact h.gapless groupId
  · intro pid
    apply (h.read pid).mono
    intro groupId
    rw [hsame groupId]

theorem Numbered.set {s : State} (h : Numbered s) (pid : Nat) {c : Call} (hc : NumberRead s.db c) :
    Numbered (s.set pid c) :=
  ⟨h.gapless, State.set_calls h.read hc⟩

/-- An insert in a group appends the next number of that group. -/
theorem Numbered.append {s : State} (h : Numbered s) {m : Message} {groupId : Id} {db : Db}
    (hg : m.groupId = some groupId) (hr : InRange s.db groupId m.threadSequence)
    (hclash : ∀ x ∈ s.db.messages, messageClash m x = false)
    (hdb : db.messages = s.db.messages ++ [m]) : Numbered { s with db := db } := by
  have hnext := h.next hg hr hclash
  have happend := groupSequences_append hdb
  refine ⟨?_, ?_⟩
  · intro g
    show Gapless (groupSequences g db).length (groupSequences g db)
    rw [happend g]
    by_cases he : m.groupId = some g
    · obtain rfl : groupId = g := Option.some.inj (hg.symm.trans he)
      rw [if_pos he, List.length_append, List.length_singleton, hnext]
      exact (h.gapless groupId).snoc
    · rw [if_neg he, List.append_nil]
      exact h.gapless g
  · intro pid
    apply (h.read pid).mono
    intro g
    rw [happend g, List.length_append]
    omega

theorem Effect.numbered {env : AuthEnv} {configuredMax : Option Int} {s : State}
    {a : Act} {o : State × Option Returned} (he : Effect env configuredMax s a o) (h : Numbered s) :
    Numbered o.1 := by
  cases he with
  | stay => exact h
  | moved hm => exact h.set _ (hm.numberRead h)
  | @posted pid t ctx created db hc htx =>
      obtain ⟨_, _, _, _, _, hp⟩ := DirectTask.tx_ok htx
      obtain ⟨_, hmsgs, _, hgroup⟩ := hp.messages
      refine Numbered.set (h.of_same ?_) pid (t.settle_call trivial (fun _ => trivial) (.ok created))
      intro groupId
      rw [groupSequences_append hmsgs groupId, if_neg (by rw [hgroup]; intro he; cases he),
        List.append_nil]
  | @committed pid t sequence replyTo now messageId mediaId db hc hdb =>
      obtain ⟨hclash, hmsgs, _, _⟩ := commitGroupMessage_ok hdb
      have hread := h.read pid
      rw [hc] at hread
      refine Numbered.set (h.append (groupMessage_group now messageId t.request sequence replyTo) ?_
        hclash hmsgs) pid trivial
      rw [groupMessage_sequence]
      exact hread
  | @enqueued pid t m hc =>
      have hjobs : Numbered { s with jobs := s.jobs ++ [fanoutJob t.request m] } := ⟨h.gapless, h.read⟩
      exact hjobs.set pid (t.settle_call trivial (fun _ => trivial) (.ok (m.id, true)))
  | @fannedOut index now envelopeId job hjob =>
      obtain ⟨envelopes, hf⟩ := fanout_frame now envelopeId job s.db
      rw [hf]
      exact h.of_same fun _ => rfl
  | @device op =>
      obtain ⟨devices, tokens, hf⟩ := Devices.step_frame env configuredMax s.db op
      rw [hf]
      exact h.of_same fun _ => rfl

theorem step_numbered (env : AuthEnv) (configuredMax : Option Int) (s : State) (a : Act)
    (h : Numbered s) : Numbered (step env configuredMax s a) :=
  (exec_effect env configuredMax s a).numbered h

/-- In every state of every interleaving, the messages of a group carry exactly the numbers
1, .., n, each once. -/
theorem group_sequencing (env : AuthEnv) (configuredMax : Option Int) (db : Db) (acts : List Act) :
    Always (step env configuredMax)
      (fun s => ∀ groupId, ∃ n, (groupSequences groupId s.db).Perm (List.range' 1 n))
      (start db) acts := by
  intro pre _ groupId
  have hn := run_invariant (step_numbered env configuredMax) pre (start db) (start_numbered db)
  exact ⟨_, hn.gapless groupId⟩

end Birgap.Messaging
