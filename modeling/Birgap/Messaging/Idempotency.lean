import Birgap.Messaging.Steps

/-!
# An idempotency key names one message

The four ways of creating a message look their key up at different moments: before the
transaction, inside it, and after it was refused. All of them answer with a message they
found under the key or have just inserted, and an inserted message is found under its key
from then on.
-/
namespace Birgap.Messaging

set_option autoImplicit false

open Birgap.Lib Birgap.Lib.Run Birgap.Messages Birgap.Groups Birgap.Auth

def keyOf (m : Message) : Id × String := (m.senderDeviceId, m.idempotencyKey)

/-- The message stored under a key has this id. -/
def StoredAs (db : Db) (senderDeviceId : Id) (idempotencyKey : String) (messageId : Id) : Prop :=
  (findByKey senderDeviceId idempotencyKey db).map (·.id) = some messageId

/-- Every id a forward has recorded is the one stored under the key of its target. -/
def ResultsStored (db : Db) (f : Forwarding) : Prop :=
  ∀ i r id, f.results[i]? = some r → r.messageId = some id →
    StoredAs db f.dto.senderDeviceId (f.dto.perTargetKey i) id

/-- What a returning call answers is stored under its key, or under the key of each target. -/
def Returned.Stored (db : Db) : Returned → Prop
  | .sent _ dto response => StoredAs db dto.senderDeviceId dto.idempotencyKey response.message.id
  | .queued _ _ dto messageId _ => StoredAs db dto.senderDeviceId dto.idempotencyKey messageId
  | .forwarded f => ResultsStored db f

/-- A call about to add a job holds the message of its key. -/
def HoldsStored (db : Db) : Call → Prop
  | .enqueueing t m =>
      findByKey t.request.senderDeviceId t.request.idempotencyKey db = some m
  | _ => True

structure CallKeyed (db : Db) (c : Call) : Prop where
  holds : HoldsStored db c
  results : ∀ f, c.forwardOf = some f → ResultsStored db f

structure Keyed (s : State) : Prop where
  keys : Rows.Unique keyOf s.db.messages
  calls : ∀ pid, CallKeyed s.db (s.calls pid)

theorem callKeyed_idle (db : Db) : CallKeyed db .idle :=
  ⟨trivial, fun _ hf => by cases hf⟩

theorem start_keyed (db : Db) : Keyed (start db) :=
  ⟨List.nodup_nil, fun _ => callKeyed_idle _⟩

theorem clash_of_keyOf {m x : Message} (h : keyOf x = keyOf m) : messageClash m x = true := by
  obtain ⟨hd, hk⟩ := Prod.mk.inj h
  simp [messageClash, hd, hk]

/-- Appending a message hides nothing that was found before. -/
theorem findByKey_append {db db' : Db} {m : Message} (h : db'.messages = db.messages ++ [m])
    {senderDeviceId : Id} {idempotencyKey : String} {x : Message}
    (hx : findByKey senderDeviceId idempotencyKey db = some x) :
    findByKey senderDeviceId idempotencyKey db' = some x := by
  unfold findByKey at hx ⊢
  rw [h, List.find?_append, hx]
  rfl

/-- A message that clashed with none is found under its key. -/
theorem findByKey_new {db db' : Db} {m : Message} (h : db'.messages = db.messages ++ [m])
    (hclash : ∀ x ∈ db.messages, messageClash m x = false) :
    findByKey m.senderDeviceId m.idempotencyKey db' = some m := by
  have hnone : findByKey m.senderDeviceId m.idempotencyKey db = none := by
    apply List.find?_eq_none.mpr
    intro x hx he
    simp only [Bool.and_eq_true, beq_iff_eq] at he
    have hno := hclash x hx
    rw [clash_of_keyOf (Prod.ext he.1 he.2)] at hno
    cases hno
  unfold findByKey at hnone ⊢
  rw [h, List.find?_append, hnone]
  simp

/-- What a key has found it finds after every step. -/
theorem Effect.findByKey_kept {env : AuthEnv} {configuredMax : Option Int} {s : State}
    {a : Act} {o : State × Option Returned} (he : Effect env configuredMax s a o) {senderDeviceId : Id}
    {idempotencyKey : String} {x : Message}
    (hx : findByKey senderDeviceId idempotencyKey s.db = some x) :
    findByKey senderDeviceId idempotencyKey o.1.db = some x := by
  rcases he.messages with h | ⟨m, _, h⟩
  · unfold findByKey at hx ⊢
    rw [h]
    exact hx
  · exact findByKey_append h hx

/-- Recording an outcome under the key of the current target. -/
theorem ResultsStored.push {db : Db} {f : Forwarding} (h : ResultsStored db f)
    {o : Except Err Id}
    (ho : ∀ id, o = .ok id → StoredAs db f.dto.senderDeviceId f.perTargetKey id) :
    ResultsStored db (f.push o) := by
  unfold Forwarding.push
  split
  · exact h
  · rename_i target _
    intro i r id hi hid
    dsimp only at hi
    rw [List.getElem?_append] at hi
    split at hi
    · exact h i r id hi hid
    · rename_i hlen
      have hlast : i = f.results.length := by
        have hlt := List.getElem?_eq_some_iff.mp hi
        obtain ⟨hlt, _⟩ := hlt
        rw [List.length_singleton] at hlt
        omega
      subst hlast
      rw [Nat.sub_self] at hi
      obtain rfl : target.result o = r := Option.some.inj hi
      cases o with
      | error e => cases hid
      | ok messageId =>
          obtain rfl : messageId = id := Option.some.inj hid
          exact ho messageId rfl

theorem storedAs_of_find {db : Db} {senderDeviceId : Id} {idempotencyKey : String} {m : Message}
    (h : findByKey senderDeviceId idempotencyKey db = some m) :
    StoredAs db senderDeviceId idempotencyKey m.id := by
  unfold StoredAs
  rw [h]
  rfl

theorem ResultsStored.push_found {db : Db} {f : Forwarding} (h : ResultsStored db f) {m : Message}
    (hm : findByKey f.dto.senderDeviceId f.perTargetKey db = some m) :
    ResultsStored db (f.push (.ok m.id)) := by
  apply h.push
  intro id hid
  obtain rfl : m.id = id := Except.ok.inj hid
  exact storedAs_of_find hm

theorem CallKeyed.mono {db db' : Db} {c : Call}
    (h : ∀ senderDeviceId idempotencyKey m, findByKey senderDeviceId idempotencyKey db = some m →
      findByKey senderDeviceId idempotencyKey db' = some m)
    (hc : CallKeyed db c) : CallKeyed db' c := by
  refine ⟨?_, ?_⟩
  · have hold := hc.holds
    cases c with
    | enqueueing t m => exact h _ _ m hold
    | _ => trivial
  · intro f hf i r id hi hid
    have hold := hc.results f hf i r id hi hid
    obtain ⟨m, hm, rfl⟩ := Option.map_eq_some_iff.mp hold
    exact storedAs_of_find (h _ _ m hm)

theorem callKeyed_forwarding {db : Db} {f : Forwarding} (h : ResultsStored db f) :
    CallKeyed db (.forwarding f) := by
  refine ⟨trivial, ?_⟩
  intro g hg
  obtain rfl : f = g := Option.some.inj hg
  exact h

theorem Moves.holdsStored {s : State} {a : Act} {c c' : Call} {r : Option Returned}
    (h : Moves s a c c' r) : HoldsStored s.db c' := by
  cases h with
  | enqueueing hc ha hm => exact hm
  | _ => trivial

theorem Moves.callKeyed {s : State} {a : Act} {c c' : Call} {r : Option Returned}
    (h : Moves s a c c' r) (hc : CallKeyed s.db c) : CallKeyed s.db c' := by
  refine ⟨h.holdsStored, ?_⟩
  intro f hf
  rcases h.forwardOf_cases hf with hold | ⟨f₀, o, hf₀, rfl, ho⟩ | ⟨userId, dto, hstart⟩
  · exact hc.results f hold
  · apply (hc.results f₀ hf₀).push
    intro id hid
    obtain ⟨m, hm, rfl⟩ := ho id hid
    exact storedAs_of_find hm
  · intro i r id hi
    rw [(startForward_ok hstart).2.2.1] at hi
    cases hi

/-- A direct request ends with the message of its key. -/
theorem DirectTask.settle_callKeyed {t : DirectTask} {db : Db} {created : Serialized}
    (hr : ∀ f, t.forwarding = some f → ResultsStored db f)
    (hm : findByKey t.senderDeviceId t.idempotencyKey db = some created.message) :
    CallKeyed db (t.settle (.ok created)).1 ∧
      ∀ r, (t.settle (.ok created)).2 = some r → r.Stored db := by
  cases t with
  | send senderUserId dto =>
      refine ⟨callKeyed_idle _, ?_⟩
      intro r hret
      obtain rfl := Option.some.inj hret
      exact storedAs_of_find hm
  | forward f recipientUserId envelopes =>
      refine ⟨callKeyed_forwarding ((hr f rfl).push_found hm), ?_⟩
      intro r hret
      cases hret

/-- A group request ends with the message of its key. -/
theorem GroupTask.settle_callKeyed {t : GroupTask} {db : Db} {m : Message} (queued : Bool)
    (hr : ∀ f, t.forwarding = some f → ResultsStored db f)
    (hm : findByKey t.request.senderDeviceId t.request.idempotencyKey db = some m) :
    CallKeyed db (t.settle (.ok (m.id, queued))).1 ∧
      ∀ r, (t.settle (.ok (m.id, queued))).2 = some r → r.Stored db := by
  cases t with
  | message senderUserId groupId dto =>
      refine ⟨callKeyed_idle _, ?_⟩
      intro r hret
      obtain rfl := Option.some.inj hret
      exact storedAs_of_find hm
  | forward f groupId ciphertext =>
      refine ⟨callKeyed_forwarding ((hr f rfl).push_found hm), ?_⟩
      intro r hret
      cases hret

theorem Moves.stored {s : State} {a : Act} {c c' : Call} {r : Returned} (h : Moves s a c c' (some r))
    (hc : CallKeyed s.db c) : r.Stored s.db := by
  cases h with
  | returned hf => exact hc.results _ hf
  | sent ha hm => exact storedAs_of_find hm
  | queued hm => exact storedAs_of_find hm

/-- A step keeps the index and the calls in order, and answers with stored messages. -/
theorem Effect.keyed {env : AuthEnv} {configuredMax : Option Int} {s : State}
    {a : Act} {o : State × Option Returned} (he : Effect env configuredMax s a o) (h : Keyed s) :
    Keyed o.1 ∧ ∀ r, o.2 = some r → r.Stored o.1.db := by
  have hkeys := he.unique (fun _ _ hx => clash_of_keyOf hx) h.keys
  have hcalls : ∀ pid, CallKeyed o.1.db (s.calls pid) := fun pid =>
    (h.calls pid).mono fun _ _ _ hm => he.findByKey_kept hm
  cases he with
  | stay => exact ⟨h, fun r hr => by cases hr⟩
  | @moved _ pid c r hm =>
      refine ⟨⟨hkeys, State.set_calls hcalls (hm.callKeyed (h.calls pid))⟩, ?_⟩
      intro r' hr
      dsimp only at hr
      subst hr
      exact hm.stored (h.calls pid)
  | @posted pid t ctx created db hc htx =>
      obtain ⟨_, _, _, _, hw, hp⟩ := DirectTask.tx_ok htx
      obtain ⟨hclash, hmsgs, _, _⟩ := hp.messages
      have hfound := findByKey_new hmsgs hclash
      rw [hw.device, hw.key] at hfound
      have hresults : ∀ f, t.forwarding = some f → ResultsStored db f := by
        intro f hf
        apply (hcalls pid).results f
        rw [hc]
        exact hf
      have hend := DirectTask.settle_callKeyed hresults hfound
      exact ⟨⟨hkeys, State.set_calls hcalls hend.1⟩, hend.2⟩
  | @committed pid t sequence replyTo now messageId mediaId db hc hdb =>
      obtain ⟨hclash, hmsgs, _, _⟩ := commitGroupMessage_ok hdb
      obtain ⟨_, hdevice, hkey⟩ := groupMessage_sender now messageId t.request sequence replyTo
      have hfound := findByKey_new hmsgs hclash
      rw [hdevice, hkey] at hfound
      have hresults := (hcalls pid).results
      rw [hc] at hresults
      exact ⟨⟨hkeys, State.set_calls hcalls ⟨hfound, hresults⟩⟩, fun r hr => by cases hr⟩
  | @enqueued pid t m hc =>
      have hold := h.calls pid
      rw [hc] at hold
      have hend := GroupTask.settle_callKeyed true hold.results hold.holds
      exact ⟨⟨hkeys, State.set_calls hcalls hend.1⟩, hend.2⟩
  | fannedOut hjob => exact ⟨⟨hkeys, hcalls⟩, fun r hr => by cases hr⟩
  | device => exact ⟨⟨hkeys, hcalls⟩, fun r hr => by cases hr⟩

section Runs

variable (env : AuthEnv) (configuredMax : Option Int)

theorem step_keyed (s : State) (a : Act) (h : Keyed s) : Keyed (step env configuredMax s a) :=
  ((exec_effect env configuredMax s a).keyed h).1

theorem step_stored (s : State) (a : Act) (h : Keyed s) :
    ∀ r, answer env configuredMax s a = some r → r.Stored (step env configuredMax s a).db :=
  ((exec_effect env configuredMax s a).keyed h).2

/-- Over a whole run a key goes on finding the message it has found once. -/
theorem run_findByKey_kept (acts : List Act) :
    ∀ (s : State) (senderDeviceId : Id) (idempotencyKey : String) (m : Message),
      findByKey senderDeviceId idempotencyKey s.db = some m →
      findByKey senderDeviceId idempotencyKey (run (step env configuredMax) s acts).db = some m := by
  induction acts with
  | nil =>
      intro s senderDeviceId idempotencyKey m hm
      exact hm
  | cons a acts ih =>
      intro s senderDeviceId idempotencyKey m hm
      exact ih _ senderDeviceId idempotencyKey m ((exec_effect env configuredMax s a).findByKey_kept hm)

/-- In every interleaving a key has at most one message, goes on naming the message it has
named once, and every call that returns answers with the message of its key, a forward with
the message of the key of each target. -/
theorem idempotency_keys (db : Db) (acts : List Act) :
    Always (step env configuredMax) (fun s => Rows.Unique keyOf s.db.messages) (start db) acts ∧
    (∀ pre, pre <+: acts → ∀ senderDeviceId idempotencyKey m,
      findByKey senderDeviceId idempotencyKey (run (step env configuredMax) (start db) pre).db = some m →
      findByKey senderDeviceId idempotencyKey (run (step env configuredMax) (start db) acts).db = some m) ∧
    Along (step env configuredMax)
      (fun s a => ∀ r, answer env configuredMax s a = some r →
        r.Stored (step env configuredMax s a).db) (start db) acts := by
  have hkeyed : ∀ pre, Keyed (run (step env configuredMax) (start db) pre) := fun pre =>
    run_invariant (step_keyed env configuredMax) pre (start db) (start_keyed db)
  refine ⟨fun pre _ => (hkeyed pre).keys, ?_, fun pre a _ => step_stored env configuredMax _ a (hkeyed pre)⟩
  intro pre hpre senderDeviceId idempotencyKey m hm
  obtain ⟨rest, rfl⟩ := hpre
  rw [run_append]
  exact run_findByKey_kept env configuredMax rest _ senderDeviceId idempotencyKey m hm

end Runs

end Birgap.Messaging
