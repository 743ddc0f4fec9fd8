import Birgap.Messaging.Steps

/-!
# What a replayed request returns

`send` compares the sender with the caller inside its transaction only. The first look-up of
the key and the one after a violated unique index return whatever message they find, so the
caller gets a message of somebody else exactly when such a message is stored under the key
of the request.
-/
namespace Birgap.Messaging

set_option autoImplicit false

open Birgap.Lib Birgap.Lib.Run Birgap.Messages Birgap.Groups Birgap.Auth

/-- A `send` that returns in this step returns a message of its caller. -/
def ReturnsOwn (env : AuthEnv) (configuredMax : Option Int) (s : State) (a : Act) : Prop :=
  ∀ senderUserId dto response,
    answer env configuredMax s a = some (.sent senderUserId dto response) →
      response.message.senderUserId = senderUserId

/-- A message stored under the key of a `send`, if there is one, was sent by the caller. -/
def KeyOfCaller (senderUserId : Id) (dto : SendMessageDto) (db : Db) : Prop :=
  ∀ m, findByKey dto.senderDeviceId dto.idempotencyKey db = some m → m.senderUserId = senderUserId

/-- The two look-ups of a `send` outside of its transaction find no message of another user. -/
def ReplaysOwn (s : State) : Act → Prop
  | .send pid senderUserId dto =>
      match s.calls pid with
      | .idle => KeyOfCaller senderUserId dto s.db
      | _ => True
  | .recover pid =>
      match s.calls pid with
      | .recovering (.send senderUserId dto) => KeyOfCaller senderUserId dto s.db
      | _ => True
  | _ => True

theorem replaysOwn_iff (s : State) (a : Act) :
    ReplaysOwn s a ↔ ∀ senderUserId dto, LooksUp s senderUserId dto a →
      KeyOfCaller senderUserId dto s.db := by
  constructor
  · intro h senderUserId dto ha
    cases ha with
    | first hc =>
        simp only [ReplaysOwn, hc] at h
        exact h
    | again hc =>
        simp only [ReplaysOwn, hc] at h
        exact h
  · intro h
    unfold ReplaysOwn
    split
    · split
      · rename_i hc
        exact h _ _ (LooksUp.first hc)
      · trivial
    · split
      · rename_i hc
        exact h _ _ (LooksUp.again hc)
      · trivial
    · trivial

section Steps

variable (env : AuthEnv) (configuredMax : Option Int)

/-- A look-up outside of the transaction returns the message it finds. -/
theorem looksUp_answer {s : State} {a : Act} {senderUserId : Id} {dto : SendMessageDto} {m : Message}
    (ha : LooksUp s senderUserId dto a)
    (hm : findByKey dto.senderDeviceId dto.idempotencyKey s.db = some m) :
    answer env configuredMax s a = some (.sent senderUserId dto (serializeMessage m s.db)) := by
  cases ha with
  | first hc =>
      simp only [answer, exec, hc, enterDirect, DirectTask.senderDeviceId, DirectTask.idempotencyKey,
        hm, State.finish, DirectTask.settle]
  | again hc =>
      simp only [answer, exec, hc, DirectTask.senderDeviceId, DirectTask.idempotencyKey, hm,
        State.finish, DirectTask.settle]

/-- A `send` returns the message its transaction stored for the caller, or one that a look-up
outside of it found. -/
theorem Effect.sent_cases {s : State} {a : Act} {o : State × Option Returned}
    (he : Effect env configuredMax s a o) {senderUserId : Id} {dto : SendMessageDto}
    {response : Serialized} (hr : o.2 = some (.sent senderUserId dto response)) :
    response.message.senderUserId = senderUserId ∨
      (LooksUp s senderUserId dto a ∧
        findByKey dto.senderDeviceId dto.idempotencyKey s.db = some response.message) := by
  cases he with
  | stay => cases hr
  | moved hm =>
      dsimp only at hr
      subst hr
      cases hm with
      | sent ha hm => exact Or.inr ⟨ha, hm⟩
  | @posted pid t ctx created db hc htx =>
      cases t with
      | send senderUserId' dto' =>
          obtain ⟨rfl, _, rfl⟩ := Returned.sent.inj (Option.some.inj hr)
          obtain ⟨_, _, _, _, hw, _⟩ := DirectTask.tx_ok htx
          exact Or.inl hw.sender
      | forward f recipientUserId envelopes => cases hr
  | committed hc hdb => cases hr
  | @enqueued pid t m hc => cases t <;> cases hr
  | fannedOut hjob => cases hr
  | device => cases hr

theorem step_returnsOwn_iff (s : State) (a : Act) :
    ReturnsOwn env configuredMax s a ↔ ReplaysOwn s a := by
  rw [replaysOwn_iff]
  constructor
  · intro h senderUserId dto ha m hm
    exact h senderUserId dto _ (looksUp_answer env configuredMax ha hm)
  · intro h senderUserId dto response hr
    rcases (exec_effect env configuredMax s a).sent_cases env configuredMax hr with hown | ⟨ha, hm⟩
    · exact hown
    · exact h senderUserId dto ha _ hm

/-- In every interleaving each `send` that returns gives its caller a message of their own
exactly when no look-up outside of a transaction finds a message of another user under the
key of the request. -/
theorem replay_own_iff (db : Db) (acts : List Act) :
    Along (step env configuredMax) (ReturnsOwn env configuredMax) (start db) acts ↔
      Along (step env configuredMax) ReplaysOwn (start db) acts :=
  along_congr (J := fun _ => True) (fun _ _ _ => trivial)
    (fun s a _ => step_returnsOwn_iff env configuredMax s a) acts (start db) trivial

end Steps

/-- Alice sends to Bob, and Mallory repeats the device and the key of the request. -/
def replayedByMallory : List Act :=
  [.send 0 "alice" (sampleDto "send-key-1"), .tx 0 (sampleCtx "m1"),
   .send 1 "mallory" (sampleDto "send-key-1")]

/-- Mallory gets Alice's message. -/
theorem replay_returns_foreign_message :
    ¬ ∀ (env : AuthEnv) (configuredMax : Option Int) (db : Db) (acts : List Act),
      Along (step env configuredMax) (ReturnsOwn env configuredMax) (start db) acts := by
  intro h
  have hrun := h Devices.sampleEnv none sampleDb replayedByMallory
  have hlast := hrun [.send 0 "alice" (sampleDto "send-key-1"), .tx 0 (sampleCtx "m1")]
    (.send 1 "mallory" (sampleDto "send-key-1")) (List.prefix_refl _) "mallory"
    (sampleDto "send-key-1") _ rfl
  revert hlast
  decide

end Birgap.Messaging
