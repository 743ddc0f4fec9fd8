import Birgap.Messaging.Steps

/-!
# The requests of a run

A call goes on with the request it was made with, and each target of a forward with the entry of
the request at its index, so what a call writes and what it answers can be traced to an act of
the run.
-/
namespace Birgap.Messaging

set_option autoImplicit false

open Birgap.Lib Birgap.Lib.Run Birgap.Messages Birgap.Groups Birgap.Auth

/-- What a client asks for. -/
inductive Request where
  | send (senderUserId : Id) (dto : SendMessageDto)
  | queueGroupMessage (senderUserId groupId : Id) (dto : SendGroupMessageDto)
  | forward (userId : Id) (dto : ForwardMessageDto)

namespace Request

def senderDeviceId : Request → Id
  | .send _ dto => dto.senderDeviceId
  | .queueGroupMessage _ _ dto => dto.senderDeviceId
  | .forward _ dto => dto.senderDeviceId

def idempotencyKey : Request → String
  | .send _ dto => dto.idempotencyKey
  | .queueGroupMessage _ _ dto => dto.idempotencyKey
  | .forward _ dto => dto.idempotencyKey

/-- What a client uses for one request only. -/
def deviceKey (r : Request) : Id × String := (r.senderDeviceId, r.idempotencyKey)

end Request

def Act.request : Act → Option Request
  | .send _ senderUserId dto => some (.send senderUserId dto)
  | .queueGroupMessage _ senderUserId groupId dto => some (.queueGroupMessage senderUserId groupId dto)
  | .forward _ userId dto => some (.forward userId dto)
  | _ => none

/-- The requests made in a run. -/
def requests (acts : List Act) : List Request := acts.filterMap Act.request

theorem mem_requests_concat {acts : List Act} {a : Act} {r : Request} :
    r ∈ requests (acts ++ [a]) ↔ r ∈ requests acts ∨ a.request = some r := by
  unfold requests
  rw [List.filterMap_append, List.mem_append]
  simp

theorem mem_requests_later {pre acts : List Act} (h : pre <+: acts) {r : Request}
    (hr : r ∈ requests pre) : r ∈ requests acts :=
  (h.filterMap Act.request).subset hr

section From

variable (Q : Request → Prop)

/-- The forward of a request, at one of its targets or past the last one. -/
structure ForwardFrom (f : Forwarding) : Prop where
  request : Q (.forward f.userId f.dto)
  results : f.results.length ≤ f.dto.targets.length

/-- A request to a thread was asked for by itself, or is the current target of a forward. -/
def DirectTask.From : DirectTask → Prop
  | .send senderUserId dto => Q (.send senderUserId dto)
  | .forward f recipientUserId envelopes =>
      ForwardFrom Q f ∧ ∃ target, f.dto.targets[f.results.length]? = some target ∧
        target.type = .direct ∧ validateDirectTarget target = .ok (recipientUserId, envelopes)

/-- A request to a group was asked for by itself, or is the current target of a forward. -/
def GroupTask.From : GroupTask → Prop
  | .message senderUserId groupId dto => Q (.queueGroupMessage senderUserId groupId dto)
  | .forward f groupId ciphertext =>
      ForwardFrom Q f ∧ ∃ target, f.dto.targets[f.results.length]? = some target ∧
        target.type = .group ∧ validateGroupTarget target = .ok (groupId, ciphertext)

def Call.From : Call → Prop
  | .idle => True
  | .sending t => t.From Q
  | .recovering t => t.From Q
  | .entered t => t.From Q
  | .checked t => t.From Q
  | .numbered t _ => t.From Q
  | .validated t _ _ => t.From Q
  | .enqueueing t _ => t.From Q
  | .forwarding f => ForwardFrom Q f

def Returned.From : Returned → Prop
  | .sent senderUserId dto _ => Q (.send senderUserId dto)
  | .queued senderUserId groupId dto _ _ => Q (.queueGroupMessage senderUserId groupId dto)
  | .forwarded f => ForwardFrom Q f

/-- Every call, and what one of them returns. -/
structure OutcomeFrom (o : State × Option Returned) : Prop where
  calls : ∀ pid, (o.1.calls pid).From Q
  answer : ∀ r, o.2 = some r → r.From Q

end From

section Kept

variable {Q : Request → Prop}

theorem ForwardFrom.mono {Q' : Request → Prop} (h : ∀ r, Q r → Q' r) {f : Forwarding}
    (hf : ForwardFrom Q f) : ForwardFrom Q' f :=
  ⟨h _ hf.request, hf.results⟩

theorem Call.From.mono {Q' : Request → Prop} (h : ∀ r, Q r → Q' r) {c : Call} (hc : c.From Q) :
    c.From Q' := by
  have hdirect : ∀ t : DirectTask, t.From Q → t.From Q' := by
    intro t ht
    cases t with
    | send senderUserId dto => exact h _ ht
    | forward f recipientUserId envelopes => exact ⟨ht.1.mono h, ht.2⟩
  have hgroup : ∀ t : GroupTask, t.From Q → t.From Q' := by
    intro t ht
    cases t with
    | message senderUserId groupId dto => exact h _ ht
    | forward f groupId ciphertext => exact ⟨ht.1.mono h, ht.2⟩
  cases c with
  | idle => trivial
  | sending t => exact hdirect t hc
  | recovering t => exact hdirect t hc
  | forwarding f => exact ForwardFrom.mono h hc
  | _ => exact hgroup _ hc

/-- Recording an outcome goes on to the next target of the same request. -/
theorem ForwardFrom.push {f : Forwarding} (h : ForwardFrom Q f) (o : Except Err Id) :
    ForwardFrom Q (f.push o) := by
  refine ⟨?_, ?_⟩
  · rw [f.push_userId o, f.push_dto o]
    exact h.request
  · rw [f.push_dto o]
    unfold Forwarding.push
    split
    · exact h.results
    · rename_i target htarget
      obtain ⟨hlt, _⟩ := List.getElem?_eq_some_iff.mp htarget
      show (f.results ++ [target.result o]).length ≤ f.dto.targets.length
      rw [List.length_append, List.length_singleton]
      omega

variable {s : State} {pid : Nat}

theorem outcomeFrom_set (hs : ∀ q, (s.calls q).From Q) {c : Call} (hc : c.From Q) :
    OutcomeFrom Q (s.set pid c, none) :=
  ⟨State.set_calls hs hc, fun r hr => by cases hr⟩

theorem outcomeFrom_same (hs : ∀ q, (s.calls q).From Q) : OutcomeFrom Q (s, none) :=
  ⟨hs, fun r hr => by cases hr⟩

theorem DirectTask.From.settle_call {t : DirectTask} (ht : t.From Q) (o : Except Err Serialized) :
    (t.settle o).1.From Q := by
  cases t with
  | send senderUserId dto => cases o <;> trivial
  | forward f recipientUserId envelopes => cases o <;> exact ht.1.push _

theorem GroupTask.From.settle_call {t : GroupTask} (ht : t.From Q) (o : Except Err (Id × Bool)) :
    (t.settle o).1.From Q := by
  cases t with
  | message senderUserId groupId dto => cases o <;> trivial
  | forward f groupId ciphertext => cases o <;> exact ht.1.push _

theorem DirectTask.From.settle {t : DirectTask} (ht : t.From Q) (hs : ∀ q, (s.calls q).From Q)
    (o : Except Err Serialized) : OutcomeFrom Q (s.finish pid (t.settle o)) := by
  refine ⟨State.set_calls hs (ht.settle_call o), ?_⟩
  intro r hr
  cases t with
  | send senderUserId dto =>
      cases o with
      | error e => cases hr
      | ok response =>
          obtain rfl := Option.some.inj hr
          exact ht
  | forward f recipientUserId envelopes => cases o <;> cases hr

theorem GroupTask.From.settle {t : GroupTask} (ht : t.From Q) (hs : ∀ q, (s.calls q).From Q)
    (o : Except Err (Id × Bool)) : OutcomeFrom Q (s.finish pid (t.settle o)) := by
  refine ⟨State.set_calls hs (ht.settle_call o), ?_⟩
  intro r hr
  cases t with
  | message senderUserId groupId dto =>
      cases o with
      | error e => cases hr
      | ok answer =>
          obtain rfl := Option.some.inj hr
          exact ht
  | forward f groupId ciphertext => cases o <;> cases hr

theorem enterDirect_from {t : DirectTask} (ht : t.From Q) (hs : ∀ q, (s.calls q).From Q) :
    OutcomeFrom Q (enterDirect s pid t) := by
  unfold enterDirect
  split
  · exact ht.settle hs _
  · exact outcomeFrom_set hs ht

theorem enterGroup_from {t : GroupTask} (ht : t.From Q) (hs : ∀ q, (s.calls q).From Q) :
    OutcomeFrom Q (enterGroup s pid t) := by
  unfold enterGroup
  split
  · exact ht.settle hs _
  · split
    · exact ht.settle hs _
    · exact outcomeFrom_set hs ht

theorem nextTarget_from {f : Forwarding} (hf : ForwardFrom Q f) (hs : ∀ q, (s.calls q).From Q) :
    OutcomeFrom Q (nextTarget s pid f) := by
  unfold nextTarget
  split
  · refine ⟨State.set_calls hs trivial, ?_⟩
    intro r hr
    obtain rfl := Option.some.inj hr
    exact hf
  · rename_i target htarget
    split
    · rename_i htype
      split
      · exact outcomeFrom_set hs (hf.push _)
      · rename_i recipientUserId envelopes hvalid
        exact enterDirect_from ⟨hf, target, htarget, htype, hvalid⟩ hs
    · rename_i htype
      split
      · exact outcomeFrom_set hs (hf.push _)
      · rename_i groupId ciphertext hvalid
        exact enterGroup_from ⟨hf, target, htarget, htype, hvalid⟩ hs

theorem throw_from {c : Call} (hc : c.From Q) (e : Err) : (c.throw e).From Q := by
  cases c with
  | idle => trivial
  | forwarding f => trivial
  | sending t => exact DirectTask.From.settle_call hc _
  | recovering t => exact DirectTask.From.settle_call hc _
  | _ => exact GroupTask.From.settle_call hc _

end Kept

section Steps

variable (env : AuthEnv) (configuredMax : Option Int)

/-- A step goes on with the requests of the calls, and begins only the one it makes. -/
theorem exec_from {Q : Request → Prop} {s : State} {a : Act} (hnew : ∀ r, a.request = some r → Q r)
    (hs : ∀ pid, (s.calls pid).From Q) : OutcomeFrom Q (exec env configuredMax s a) := by
  have hcall : ∀ {pid c}, s.calls pid = c → c.From Q := by
    intro pid c hc
    rw [← hc]
    exact hs pid
  cases a with
  | send pid senderUserId dto =>
      simp only [exec]
      split
      · exact enterDirect_from (hnew _ rfl) hs
      · exact outcomeFrom_same hs
  | queueGroupMessage pid senderUserId groupId dto =>
      simp only [exec]
      split
      · exact enterGroup_from (hnew _ rfl) hs
      · exact outcomeFrom_same hs
  | forward pid userId dto =>
      simp only [exec]
      split
      · split
        · exact outcomeFrom_same hs
        · rename_i f hf
          obtain ⟨huser, hdto, hresults, _⟩ := startForward_ok hf
          refine outcomeFrom_set hs ⟨?_, ?_⟩
          · rw [huser, hdto]
            exact hnew _ rfl
          · rw [hresults]
            exact Nat.zero_le _
      · exact outcomeFrom_same hs
  | target pid =>
      simp only [exec]
      split
      · rename_i f hc
        exact nextTarget_from (hcall hc) hs
      · exact outcomeFrom_same hs
  | tx pid ctx =>
      simp only [exec]
      split
      · rename_i t hc
        have ht : t.From Q := hcall hc
        split
        · rename_i created db htx
          exact ht.settle (s := { s with db := db }) hs _
        · exact outcomeFrom_set hs ht
        · exact ht.settle hs _
      · exact outcomeFrom_same hs
  | recover pid =>
      simp only [exec]
      split
      · rename_i t hc
        have ht : t.From Q := hcall hc
        split <;> exact ht.settle hs _
      · exact outcomeFrom_same hs
  | txCheck pid =>
      simp only [exec]
      split
      · rename_i t hc
        have ht : t.From Q := hcall hc
        split <;> exact outcomeFrom_set hs ht
      · exact outcomeFrom_same hs
  | readMax pid =>
      simp only [exec]
      split
      · rename_i t hc
        have ht : t.From Q := hcall hc
        exact outcomeFrom_set hs ht
      · exact outcomeFrom_same hs
  | validate pid maxAttachments =>
      simp only [exec]
      split
      · rename_i t sequence hc
        have ht : t.From Q := hcall hc
        split
        · exact outcomeFrom_set hs ht
        · exact ht.settle hs _
      · exact outcomeFrom_same hs
  | commit pid now messageId mediaId =>
      simp only [exec]
      split
      · rename_i t sequence replyTo hc
        have ht : t.From Q := hcall hc
        split
        · rename_i db hdb
          exact outcomeFrom_set (s := { s with db := db }) hs ht
        · exact ht.settle hs _
      · exact outcomeFrom_same hs
  | enqueue pid =>
      simp only [exec]
      split
      · rename_i t m hc
        have ht : t.From Q := hcall hc
        exact ht.settle (s := { s with jobs := s.jobs ++ [fanoutJob t.request m] }) hs _
      · exact outcomeFrom_same hs
  | fail pid e =>
      simp only [exec]
      exact outcomeFrom_set hs (throw_from (hs pid) e)
  | fanout index now envelopeId =>
      simp only [exec]
      split
      · rename_i job hjob
        exact outcomeFrom_same (s := { s with db := (Groups.fanout now envelopeId job s.db).2 }) hs
      · exact outcomeFrom_same hs
  | device op =>
      simp only [exec]
      exact outcomeFrom_same (s := { s with db := Devices.step env configuredMax s.db op }) hs

/-- In a run every call goes on with a request of the run, and every answer belongs to one. -/
theorem run_from (db : Db) (acts : List Act) :
    (∀ pid, ((run (step env configuredMax) (start db) acts).calls pid).From (· ∈ requests acts)) ∧
    ∀ pre a, pre ++ [a] <+: acts →
      ∀ r, answer env configuredMax (run (step env configuredMax) (start db) pre) a = some r →
        r.From (· ∈ requests (pre ++ [a])) := by
  have hexec : ∀ (pre : List Act) (s : State) (a : Act),
      (∀ pid, (s.calls pid).From (· ∈ requests pre)) →
      OutcomeFrom (· ∈ requests (pre ++ [a])) (exec env configuredMax s a) := by
    intro pre s a hs
    apply exec_from
    · intro r hr
      exact mem_requests_concat.mpr (Or.inr hr)
    · intro pid
      exact (hs pid).mono fun r hr => mem_requests_concat.mpr (Or.inl hr)
  have hrun : ∀ acts pid,
      ((run (step env configuredMax) (start db) acts).calls pid).From (· ∈ requests acts) :=
    run_history (I := fun pre (s : State) => ∀ pid, (s.calls pid).From (· ∈ requests pre))
      (fun pid => trivial) (fun pre a hs => (hexec pre _ a hs).calls)
  exact ⟨hrun acts, fun pre a _ => (hexec pre _ a (hrun pre)).answer⟩

end Steps

end Birgap.Messaging
