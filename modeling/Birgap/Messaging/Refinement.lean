import Birgap.Messaging.Steps

/-!
# The services inside the messaging system

Seen through its group calls alone, a step of the messaging system is a step of
`Groups.Queue`, except that direct messages, fan-outs and device operations change the store
under it. A `send` whose statements nothing interrupts does what `Messages.send` does.
-/
namespace Birgap.Messaging

set_option autoImplicit false

open Birgap.Lib Birgap.Lib.Tx Birgap.Lib.Run Birgap.Messages Birgap.Groups Birgap.Auth

/-- The phase of a call as a group call; every other call counts as idle. -/
def Call.phase : Call → Queue.Phase
  | .entered t => .entered t.request
  | .checked t => .checked t.request
  | .numbered t sequence => .numbered t.request sequence
  | .validated t sequence replyTo => .validated t.request sequence replyTo
  | .enqueueing t m => .enqueueing t.request m
  | _ => .idle

def State.queue (s : State) : Queue.State :=
  { db := s.db, phases := fun pid => (s.calls pid).phase, jobs := s.jobs }

theorem State.queue_set (s : State) (pid : Nat) (c : Call) :
    (s.set pid c).queue = s.queue.set pid c.phase := by
  have hphases : (fun q => ((s.set pid c).calls q).phase) =
      Function.update (fun q => (s.calls q).phase) pid c.phase := by
    funext q
    by_cases hq : q = pid
    · subst hq
      rw [State.set_self, Function.update_self]
    · rw [State.set_of_ne s hq, Function.update_of_ne hq]
  unfold State.queue Queue.State.set
  rw [hphases]
  rfl

/-- A call that leaves the group phases, or stays out of them, ends as a group call. -/
theorem State.queue_ended (s : State) (pid : Nat) {c : Call} (hc : c.phase = .idle) :
    (s.set pid c).queue = Queue.step s.queue (.fail pid) := by
  rw [State.queue_set, hc]
  rfl

/-- A move of a call is one statement of the group call, or its end. -/
theorem Moves.queue {s : State} {a : Act} {pid : Nat} {c : Call} {r : Option Returned}
    (h : Moves s a (s.calls pid) c r) : ∃ b, (s.set pid c).queue = Queue.step s.queue b := by
  cases h with
  | @entered t hf hidle hmember hnone =>
      have hphase : s.queue.phases pid = .idle := by
        show (s.calls pid).phase = .idle
        rcases hidle with hc | ⟨f, hc⟩ <;> rw [hc] <;> rfl
      refine ⟨.enter pid t.request, ?_⟩
      have hm : isMember t.request.groupId t.request.senderUserId s.queue.db = true := hmember
      have hn : findByKey t.request.senderDeviceId t.request.idempotencyKey s.queue.db = none := hnone
      rw [State.queue_set]
      simp [Queue.step, hphase, hm, hn, Call.phase]
  | @checked t hc hnone =>
      have hphase : s.queue.phases pid = .entered t.request := by
        show (s.calls pid).phase = _
        rw [hc]
        rfl
      have hn : findByKey t.request.senderDeviceId t.request.idempotencyKey s.queue.db = none := hnone
      refine ⟨.txCheck pid, ?_⟩
      rw [State.queue_set]
      simp only [Queue.step, hphase, hn, Call.phase]
  | @enqueueing t m hc ha hm =>
      have hphase : s.queue.phases pid = .entered t.request := by
        show (s.calls pid).phase = _
        rw [hc]
        rfl
      have hf : findByKey t.request.senderDeviceId t.request.idempotencyKey s.queue.db = some m := hm
      refine ⟨.txCheck pid, ?_⟩
      rw [State.queue_set]
      simp only [Queue.step, hphase, hf, Call.phase]
  | @numbered t hc =>
      have hphase : s.queue.phases pid = .checked t.request := by
        show (s.calls pid).phase = _
        rw [hc]
        rfl
      refine ⟨.readMax pid, ?_⟩
      rw [State.queue_set]
      simp only [Queue.step, hphase, Call.phase]
      rfl
  | @validated t sequence replyTo maxAttachments hc hv =>
      have hphase : s.queue.phases pid = .numbered t.request sequence := by
        show (s.calls pid).phase = _
        rw [hc]
        rfl
      have hv' : validatePayload maxAttachments t.request s.queue.db = .ok replyTo := hv
      refine ⟨.validate pid maxAttachments, ?_⟩
      rw [State.queue_set]
      simp only [Queue.step, hphase, hv', Call.phase]
  | _ => exact ⟨.fail pid, s.queue_ended pid rfl⟩

/-- A call that keeps its phase leaves the group calls as they are. -/
theorem State.queue_same (s : State) (pid : Nat) {c : Call} (hc : c.phase = (s.calls pid).phase) :
    (s.set pid c).queue = s.queue := by
  rw [State.queue_set, hc]
  unfold Queue.State.set
  have hself : Function.update s.queue.phases pid (s.calls pid).phase = s.queue.phases :=
    Function.update_eq_self pid s.queue.phases
  rw [hself]

theorem Effect.queue {env : AuthEnv} {configuredMax : Option Int} {s : State} {a : Act}
    {o : State × Option Returned} (he : Effect env configuredMax s a o) :
    (∃ b, o.1.queue = Queue.step s.queue b) ∨ o.1.queue = { s.queue with db := o.1.db } := by
  cases he with
  | stay => exact Or.inr rfl
  | moved hm => exact Or.inl hm.queue
  | @posted pid t ctx created db hc htx =>
      right
      refine State.queue_same { s with db := db } pid ?_
      have hphase : (s.calls pid).phase = .idle := by
        rw [hc]
        rfl
      have hend : (t.settle (.ok created)).1.phase = .idle :=
        t.settle_call (P := fun c => c.phase = .idle) rfl (fun _ => rfl) (.ok created)
      exact hend.trans hphase.symm
  | @committed pid t sequence replyTo now messageId mediaId db hc hdb =>
      have hphase : s.queue.phases pid = .validated t.request sequence replyTo := by
        show (s.calls pid).phase = _
        rw [hc]
        rfl
      have hdb' : commitGroupMessage now mediaId
          (groupMessage now messageId t.request sequence replyTo) t.request s.queue.db = .ok db := hdb
      refine Or.inl ⟨.commit pid now messageId mediaId, ?_⟩
      dsimp only
      rw [State.queue_set]
      simp only [Queue.step, hphase, hdb', Call.phase]
      rfl
  | @enqueued pid t m hc =>
      have hphase : s.queue.phases pid = .enqueueing t.request m := by
        show (s.calls pid).phase = _
        rw [hc]
        rfl
      refine Or.inl ⟨.enqueue pid, ?_⟩
      have hend : (t.settle (.ok (m.id, true))).1.phase = .idle :=
        t.settle_call (P := fun c => c.phase = .idle) rfl (fun _ => rfl) (.ok (m.id, true))
      simp only [Queue.step, hphase, State.finish]
      rw [State.queue_set, hend]
      rfl
  | fannedOut hjob => exact Or.inr rfl
  | device => exact Or.inr rfl

/-- A step is a step of the group calls, or leaves them and their jobs alone. -/
theorem step_refines_queue (env : AuthEnv) (configuredMax : Option Int) (s : State) (a : Act) :
    (∃ b, (step env configuredMax s a).queue = Queue.step s.queue b) ∨
      (step env configuredMax s a).queue = { s.queue with db := (step env configuredMax s a).db } :=
  (exec_effect env configuredMax s a).queue

section Send

variable (env : AuthEnv) (configuredMax : Option Int)

/-- The statements of a `send` do nothing once its call has ended. -/
theorem run_idle {s : State} {pid : Nat} (h : s.calls pid = .idle) (ctx : Ctx) :
    run (step env configuredMax) s [.tx pid ctx, .recover pid] = s := by
  simp only [run_cons, run_nil, step, exec, h]

/-- One call of `send` that nothing interrupts. -/
theorem uninterrupted_send (s : State) (pid : Nat) (senderUserId : Id) (dto : SendMessageDto)
    (ctx : Ctx) (h : s.calls pid = .idle) :
    (run (step env configuredMax) s [.send pid senderUserId dto, .tx pid ctx, .recover pid]).db =
      (send ctx senderUserId dto s.db).2 := by
  rw [run_cons]
  unfold send idempotently atomically
  cases hm : findByKey dto.senderDeviceId dto.idempotencyKey s.db with
  | some m =>
      have hsend : step env configuredMax s (.send pid senderUserId dto) = s.set pid .idle := by
        simp only [step, exec, h, enterDirect, DirectTask.senderDeviceId, DirectTask.idempotencyKey,
          hm, State.finish, DirectTask.settle]
      rw [hsend, run_idle env configuredMax (s.set_self pid .idle)]
      rfl
  | none =>
      have hsend : step env configuredMax s (.send pid senderUserId dto) =
          s.set pid (.sending (.send senderUserId dto)) := by
        simp only [step, exec, h, enterDirect, DirectTask.senderDeviceId, DirectTask.idempotencyKey, hm]
      rw [hsend, run_cons, run_cons, run_nil]
      cases htx : sendTx ctx senderUserId dto s.db with
      | ok p =>
          have htask : DirectTask.tx ctx (.send senderUserId dto) s.db = .ok (p.1, p.2) := htx
          simp [step, exec, htask, State.finish, DirectTask.settle, State.set]
      | error e =>
          have htask : DirectTask.tx ctx (.send senderUserId dto) s.db = .error e := htx
          cases e <;> simp [step, exec, htask, State.finish, DirectTask.settle, State.set,
            DirectTask.senderDeviceId, DirectTask.idempotencyKey, hm]

end Send

end Birgap.Messaging
