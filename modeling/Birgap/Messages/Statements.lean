import Birgap.Messages.Delivery

/-!
# The statements behind acks, mark-all-read requests and edits

None of these requests runs in one piece: what one statement read is used by a later one,
and statements of other requests come in between. A statement here carries what its request
read before as an argument, however old it is, so that every interleaving is a run of
statements.
-/
namespace Birgap.Messages

set_option autoImplicit false

open Birgap.Lib Birgap.Lib.Run Birgap.Messages.Delivery

/-- A statement that writes to stored envelopes, or claims an edit. -/
inductive Statement where
  | readAll (now : Time) (userId messageId : Id) (deliveredAt : Option Time)
  | ackOne (now : Time) (messageId deviceId : Id) (status : AckStatus) (deliveredAt : Option Time)
  | markAllRead (now : Time) (key : Unread.RecalcKey)
  | claimEdit (now : Time) (messageId : Id) (idempotencyKey : String)
  | refreshEnvelope (now : Time) (messageId : Id) (x : EditMessageEnvelopeDto)
  | updateChunk (now : Time) (messageId : Id) (ciphertext : Ciphertext) (chunk : List Id)

namespace Statement

def exec (db : Db) : Statement → Db
  | .readAll now userId messageId deliveredAt =>
      { db with
        messageEnvelopes := Messages.readAll now userId messageId deliveredAt db.messageEnvelopes }
  | .ackOne now messageId deviceId status deliveredAt =>
      { db with
        messageEnvelopes :=
          Messages.ackOne now messageId deviceId status deliveredAt db.messageEnvelopes }
  | .markAllRead now key => Unread.markAllRead now key db
  | .claimEdit now messageId idempotencyKey =>
      (Messages.claimEdit now messageId idempotencyKey db).2
  | .refreshEnvelope now messageId x =>
      { db with messageEnvelopes := Messages.refreshEnvelope now messageId x db.messageEnvelopes }
  | .updateChunk now messageId ciphertext chunk =>
      { db with
        messageEnvelopes :=
          Groups.updateChunk now messageId ciphertext chunk db.messageEnvelopes }

/-- A statement rewrites envelopes in place and keeps their keys. -/
theorem exec_rewrites (db : Db) (w : Statement) :
    ∃ g, KeepsKeys g ∧ (exec db w).messageEnvelopes = db.messageEnvelopes.map g := by
  have hid : KeepsKeys (id : MessageEnvelope → MessageEnvelope) :=
    ⟨fun _ => rfl, fun _ => rfl, fun _ => rfl, fun _ => rfl⟩
  have hupdate : ∀ (p : MessageEnvelope → Bool) (f : MessageEnvelope → MessageEnvelope),
      KeepsKeys f → ∃ g, KeepsKeys g ∧
        Rows.updateMany p f db.messageEnvelopes = db.messageEnvelopes.map g :=
    fun p f hf => ⟨_, keepsKeys_if hf, rfl⟩
  cases w with
  | readAll now userId messageId deliveredAt =>
      exact hupdate _ _ ⟨fun _ => rfl, fun _ => rfl, fun _ => rfl, fun _ => rfl⟩
  | ackOne now messageId deviceId status deliveredAt =>
      obtain ⟨g, hg, _, hrows⟩ := keepsKeys_ackOne now messageId deviceId status deliveredAt
      exact ⟨g, hg, hrows _⟩
  | markAllRead now key =>
      exact hupdate _ _ ⟨fun _ => rfl, fun _ => rfl, fun _ => rfl, fun _ => rfl⟩
  | claimEdit now messageId idempotencyKey => exact ⟨id, hid, (List.map_id _).symm⟩
  | refreshEnvelope now messageId x =>
      exact hupdate _ _ ⟨fun _ => rfl, fun _ => rfl, fun _ => rfl, fun _ => rfl⟩
  | updateChunk now messageId ciphertext chunk =>
      exact hupdate _ _ ⟨fun _ => rfl, fun _ => rfl, fun _ => rfl, fun _ => rfl⟩

theorem exec_devices (db : Db) (w : Statement) : (exec db w).devices = db.devices := by
  cases w <;> rfl

/-- A loop of updates is a run of statements. -/
theorem exec_foldl {β : Type} (w : β → Statement)
    (f : List MessageEnvelope → β → List MessageEnvelope)
    (hw : ∀ db x, exec db (w x) = { db with messageEnvelopes := f db.messageEnvelopes x })
    (xs : List β) : ∀ db, run exec db (xs.map w) =
      { db with messageEnvelopes := xs.foldl f db.messageEnvelopes } := by
  induction xs with
  | nil => intro db; rfl
  | cons x xs ih =>
      intro db
      rw [List.map_cons, run_cons, hw, ih]
      rfl

/-- Every request or edit fan-out that runs alone is a run of its statements. -/
theorem step_as_statements (db : Db) (op : Op)
    (hop : ∀ now envelopeId job, op ≠ .fanout now envelopeId job) :
    ∃ ws, Delivery.step db op = run exec db ws := by
  cases op with
  | ack now userId messageId dto =>
      simp only [Delivery.step, Messages.ack]
      split
      · exact ⟨[], rfl⟩
      · rename_i envelope _
        cases hs : dto.status with
        | read =>
            exact ⟨[.readAll now userId messageId envelope.deliveredAt,
              .ackOne now messageId dto.deviceId .read envelope.deliveredAt], rfl⟩
        | delivered =>
            exact ⟨[.ackOne now messageId dto.deviceId .delivered envelope.deliveredAt], rfl⟩
  | markAllRead now userId dto =>
      simp only [Delivery.step, Messages.markAllRead]
      split
      · exact ⟨[], rfl⟩
      · exact ⟨[.markAllRead now _], rfl⟩
  | edit limit now userId messageId dto =>
      have hall : run exec (Messages.claimEdit now messageId dto.idempotencyKey db).2
          (dto.envelopes.map (.refreshEnvelope now messageId)) =
          refreshEnvelopes now messageId dto.envelopes
            (Messages.claimEdit now messageId dto.idempotencyKey db).2 :=
        exec_foldl (.refreshEnvelope now messageId)
          (fun rows x => Messages.refreshEnvelope now messageId x rows) (fun _ _ => rfl) _ _
      simp only [Delivery.step, Messages.edit]
      split
      · exact ⟨[], rfl⟩
      · split
        · refine ⟨[.claimEdit now messageId dto.idempotencyKey], ?_⟩
          split <;> rfl
        · refine ⟨.claimEdit now messageId dto.idempotencyKey ::
            dto.envelopes.map (.refreshEnvelope now messageId), ?_⟩
          rw [run_cons]
          split <;> exact hall.symm
  | fanout now envelopeId job => exact absurd rfl (hop now envelopeId job)
  | editFanout now job =>
      refine ⟨(Groups.editChunks job.groupId job.senderDeviceId db).map
        (.updateChunk now job.messageId job.ciphertext), ?_⟩
      rw [exec_foldl (.updateChunk now job.messageId job.ciphertext)
        (fun rows chunk => Groups.updateChunk now job.messageId job.ciphertext chunk rows)
        (fun _ _ => rfl)]
      exact Groups.editFanout_eq now job db

end Statement

end Birgap.Messages
