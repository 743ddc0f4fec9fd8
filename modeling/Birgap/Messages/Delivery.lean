import Birgap.Groups.Fanout
import Birgap.Lib.Run

/-!
# Delivery status of envelopes

`MessagesService.ack` and `markAllRead`, and how the status of an envelope moves along
runs of acks, mark-all-read requests, edits and fan-outs. The bulk updates leave READ
envelopes alone; the single update of `ack` does not look at the stored status, so a
status falls back exactly when a DELIVERED ack arrives for an envelope already READ.
-/
namespace Birgap.Messages

set_option autoImplicit false

open Birgap.Lib Birgap.Lib.Tx Birgap.Lib.Run

inductive AckStatus where
  | delivered
  | read
  deriving DecidableEq

structure AckMessageDto where
  deviceId : Id
  status : AckStatus

structure MarkAllReadDto where
  threadId : Id
  threadType : ThreadType
  deviceId : Id

/-- Look-up on the unique index `(messageId, recipientDeviceId)`. -/
def findEnvelope (messageId deviceId : Id) (db : Db) : Option MessageEnvelope :=
  db.messageEnvelopes.find? fun e => e.messageId == messageId && e.recipientDeviceId == deviceId

/-- The bulk update of a READ ack: the other envelopes of the same user. -/
def readAll (now : Time) (userId messageId : Id) (deliveredAt : Option Time)
    (rows : List MessageEnvelope) : List MessageEnvelope :=
  Rows.updateMany
    (fun e => e.messageId == messageId && e.recipientUserId == userId && e.status != .read)
    (fun e => { e with
      status := .read, readAt := some now, deliveredAt := some (deliveredAt.getD now)
      updatedAt := now }) rows

/-- The update of the acknowledged envelope itself. -/
def ackOne (now : Time) (messageId deviceId : Id) (status : AckStatus) (deliveredAt : Option Time)
    (rows : List MessageEnvelope) : List MessageEnvelope :=
  Rows.updateMany (fun e => e.messageId == messageId && e.recipientDeviceId == deviceId)
    (fun e =>
      match status with
      | .read => { e with
          status := .read, deliveredAt := some (deliveredAt.getD now), readAt := some now
          updatedAt := now }
      | .delivered => { e with
          status := .delivered, deliveredAt := some (deliveredAt.getD now), updatedAt := now })
    rows

/-- The counter an ack asks to have recalculated. -/
def ackRecalc (userId messageId : Id) (status : AckStatus) (db : Db) : Option Unread.RecalcKey :=
  match status with
  | .delivered => none
  | .read =>
      match db.messages.find? (·.id == messageId) with
      | none => none
      | some m =>
          match m.threadId, m.groupId with
          | some threadId, _ => some { userId, threadType := .direct, threadId }
          | none, some groupId => some { userId, threadType := .group, threadId := groupId }
          | none, none => none

/-- The checks of `ack`; returns the envelope of the device. -/
def ackEnvelope (userId messageId deviceId : Id) (db : Db) : Except Err MessageEnvelope := do
  assertActiveDevice userId deviceId db
  match findEnvelope messageId deviceId db with
  | none => .error (.notFound "Message envelope not found for device")
  | some envelope =>
      if envelope.recipientUserId ≠ userId then
        .error (.notFound "Message envelope not found for device")
      else .ok envelope

/-- `MessagesService.ack`, with the counter it asks to have recalculated. -/
def ack (now : Time) (userId messageId : Id) (dto : AckMessageDto) (db : Db) :
    Except Err (Option Unread.RecalcKey) × Db :=
  match ackEnvelope userId messageId dto.deviceId db with
  | .error e => (.error e, db)
  | .ok envelope =>
      let rows :=
        match dto.status with
        | .read => readAll now userId messageId envelope.deliveredAt db.messageEnvelopes
        | .delivered => db.messageEnvelopes
      (.ok (ackRecalc userId messageId dto.status db),
        { db with
          messageEnvelopes :=
            ackOne now messageId dto.deviceId dto.status envelope.deliveredAt rows })

/-- `MessagesService.markAllRead`. -/
def markAllRead (now : Time) (userId : Id) (dto : MarkAllReadDto) (db : Db) : Except Err Unit × Db :=
  match assertActiveDevice userId dto.deviceId db with
  | .error e => (.error e, db)
  | .ok () =>
      (.ok (), Unread.markAllRead now
        { userId, threadType := dto.threadType, threadId := dto.threadId } db)

namespace Delivery

inductive Op where
  | ack (now : Time) (userId messageId : Id) (dto : AckMessageDto)
  | markAllRead (now : Time) (userId : Id) (dto : MarkAllReadDto)
  | edit (limit : EditLimit) (now : Time) (userId messageId : Id) (dto : EditMessageDto)
  | fanout (now : Time) (envelopeId : Nat → Id) (job : Groups.GroupFanoutJobData)
  | editFanout (now : Time) (job : GroupEditFanoutJobData)

def step (db : Db) : Op → Db
  | .ack now userId messageId dto => (Messages.ack now userId messageId dto db).2
  | .markAllRead now userId dto => (Messages.markAllRead now userId dto db).2
  | .edit limit now userId messageId dto => (Messages.edit limit now userId messageId dto db).2
  | .fanout now envelopeId job => (Groups.fanout now envelopeId job db).2
  | .editFanout now job => Groups.editFanout now job db

/-- PENDING < DELIVERED < READ. -/
def rank : EnvelopeStatus → Nat
  | .pending => 0
  | .delivered => 1
  | .read => 2

/-- Every row that stays keeps or raises its status. -/
def Forward (rows rows' : List MessageEnvelope) : Prop :=
  ∀ e ∈ rows, ∀ e' ∈ rows', e'.id = e.id → rank e.status ≤ rank e'.status

/-- The unique indexes of the envelope table. -/
structure EnvelopeKeys (rows : List MessageEnvelope) : Prop where
  ids : Rows.Unique (·.id) rows
  devices : Rows.Unique (fun e => (e.messageId, e.recipientDeviceId)) rows

/-- A rewrite of rows that leaves the indexed columns and the addressee alone. -/
structure KeepsKeys (g : MessageEnvelope → MessageEnvelope) : Prop where
  id : ∀ e, (g e).id = e.id
  messageId : ∀ e, (g e).messageId = e.messageId
  device : ∀ e, (g e).recipientDeviceId = e.recipientDeviceId
  user : ∀ e, (g e).recipientUserId = e.recipientUserId

theorem keepsKeys_if {p : MessageEnvelope → Bool} {f : MessageEnvelope → MessageEnvelope}
    (hf : KeepsKeys f) : KeepsKeys fun e => if p e then f e else e := by
  constructor <;> intro e
  · cases p e with
    | false => rfl
    | true => exact hf.id e
  · cases p e with
    | false => rfl
    | true => exact hf.messageId e
  · cases p e with
    | false => rfl
    | true => exact hf.device e
  · cases p e with
    | false => rfl
    | true => exact hf.user e

theorem KeepsKeys.comp {f g : MessageEnvelope → MessageEnvelope} (hg : KeepsKeys g)
    (hf : KeepsKeys f) : KeepsKeys (g ∘ f) := by
  constructor <;> intro e
  · exact (hg.id (f e)).trans (hf.id e)
  · exact (hg.messageId (f e)).trans (hf.messageId e)
  · exact (hg.device (f e)).trans (hf.device e)
  · exact (hg.user (f e)).trans (hf.user e)

theorem KeepsKeys.deviceKey {g : MessageEnvelope → MessageEnvelope} (hg : KeepsKeys g)
    (e : MessageEnvelope) :
    ((g e).messageId, (g e).recipientDeviceId) = (e.messageId, e.recipientDeviceId) := by
  rw [hg.messageId, hg.device]

theorem EnvelopeKeys.map {g : MessageEnvelope → MessageEnvelope} (hg : KeepsKeys g)
    {rows : List MessageEnvelope} (h : EnvelopeKeys rows) : EnvelopeKeys (rows.map g) := by
  constructor
  · exact Rows.unique_map hg.id h.ids
  · exact Rows.unique_map hg.deviceKey h.devices

theorem EnvelopeKeys.createManySkip {new rows : List MessageEnvelope} (h : EnvelopeKeys rows) :
    EnvelopeKeys (Rows.createManySkip envelopeClash new rows) := by
  constructor
  · exact Rows.unique_createManySkip (fun a b hab => by simp [envelopeClash, hab]) h.ids
  · exact Rows.unique_createManySkip envelopeClash_device h.devices

/-- An update is forward when it is so on each row. -/
theorem forward_map_iff {g : MessageEnvelope → MessageEnvelope} (hg : KeepsKeys g)
    {rows : List MessageEnvelope} (h : EnvelopeKeys rows) :
    Forward rows (rows.map g) ↔ ∀ e ∈ rows, rank e.status ≤ rank (g e).status := by
  constructor
  · intro hf e he
    exact hf e he (g e) (List.mem_map_of_mem he) (hg.id e)
  · intro hf e he e' he' hid
    obtain ⟨a, ha, rfl⟩ := List.mem_map.mp he'
    obtain rfl := h.ids.eq ha he ((hg.id a).symm.trans hid)
    exact hf a ha

/-- Inserting rows touches none that is stored. -/
theorem forward_createManySkip {new rows : List MessageEnvelope} (h : EnvelopeKeys rows) :
    Forward rows (Rows.createManySkip envelopeClash new rows) := by
  intro e he e' he' hid
  rw [h.createManySkip.ids.eq he' (Rows.mem_createManySkip_of_mem he) hid]

/-- The table was rewritten row by row, and no row fell back. -/
def Raised (rows rows' : List MessageEnvelope) : Prop :=
  ∃ g, KeepsKeys g ∧ (∀ e, rank e.status ≤ rank (g e).status) ∧ rows' = rows.map g

theorem Raised.refl (rows : List MessageEnvelope) : Raised rows rows :=
  ⟨id, ⟨fun _ => rfl, fun _ => rfl, fun _ => rfl, fun _ => rfl⟩, fun _ => le_refl _, (List.map_id rows).symm⟩

theorem Raised.trans {a b c : List MessageEnvelope} (hab : Raised a b) (hbc : Raised b c) :
    Raised a c := by
  obtain ⟨f, hf, hfr, rfl⟩ := hab
  obtain ⟨g, hg, hgr, rfl⟩ := hbc
  exact ⟨g ∘ f, hg.comp hf, fun e => (hfr e).trans (hgr (f e)), List.map_map⟩

theorem raised_updateMany {p : MessageEnvelope → Bool} {f : MessageEnvelope → MessageEnvelope}
    (hk : KeepsKeys f) (hf : ∀ e, rank e.status ≤ rank (f e).status) (rows : List MessageEnvelope) :
    Raised rows (Rows.updateMany p f rows) := by
  refine ⟨_, keepsKeys_if hk, ?_, rfl⟩
  intro e
  split
  · exact hf e
  · exact le_refl _

/-- A loop of such updates. -/
theorem raised_foldl {β : Type} {f : List MessageEnvelope → β → List MessageEnvelope}
    (hf : ∀ rows x, Raised rows (f rows x)) (xs : List β) :
    ∀ rows, Raised rows (xs.foldl f rows) := by
  induction xs with
  | nil => exact Raised.refl
  | cons x xs ih => exact fun rows => (hf rows x).trans (ih _)

theorem rank_le_read (s : EnvelopeStatus) : rank s ≤ rank .read := by cases s <;> decide

/-- The update of the acknowledged envelope writes the status of that row. -/
theorem keepsKeys_ackOne (now : Time) (messageId deviceId : Id) (status : AckStatus)
    (deliveredAt : Option Time) : ∃ g, KeepsKeys g ∧
      (∀ e, (g e).status =
        if e.messageId = messageId ∧ e.recipientDeviceId = deviceId then
          (match status with | .read => .read | .delivered => .delivered)
        else e.status) ∧
      ∀ rows, ackOne now messageId deviceId status deliveredAt rows = rows.map g := by
  refine ⟨_, keepsKeys_if ?_, ?_, fun _ => rfl⟩
  · cases status <;> exact ⟨fun _ => rfl, fun _ => rfl, fun _ => rfl, fun _ => rfl⟩
  · intro e
    simp only [Bool.and_eq_true, beq_iff_eq]
    split
    · cases status <;> rfl
    · rfl

/-- The bulk update of a READ ack makes rows of the user READ. -/
theorem keepsKeys_readAll (now : Time) (userId messageId : Id) (deliveredAt : Option Time) :
    ∃ g, KeepsKeys g ∧
      (∀ e, (g e).status = e.status ∨
        ((g e).status = .read ∧ e.messageId = messageId ∧ e.recipientUserId = userId)) ∧
      ∀ rows, readAll now userId messageId deliveredAt rows = rows.map g := by
  refine ⟨_, keepsKeys_if ?_, ?_, fun _ => rfl⟩
  · exact ⟨fun _ => rfl, fun _ => rfl, fun _ => rfl, fun _ => rfl⟩
  · intro e
    simp only [Bool.and_eq_true, beq_iff_eq]
    split
    · rename_i hp
      exact Or.inr ⟨rfl, hp.1.1, hp.1.2⟩
    · exact Or.inl rfl

/-- A DELIVERED ack that passes the checks of `ack`. -/
def DeliveredAck (db : Db) (op : Op) (e : MessageEnvelope) : Prop :=
  ∃ now userId messageId dto, op = .ack now userId messageId dto ∧ dto.status = .delivered ∧
    ackEnvelope userId messageId dto.deviceId db = .ok e

theorem ackEnvelope_ok {userId messageId deviceId : Id} {db : Db} {e : MessageEnvelope}
    (h : ackEnvelope userId messageId deviceId db = .ok e) :
    e ∈ db.messageEnvelopes ∧ e.messageId = messageId ∧ e.recipientDeviceId = deviceId ∧
      e.recipientUserId = userId := by
  unfold ackEnvelope at h
  obtain ⟨_, _, h⟩ := bind_ok.mp h
  split at h
  · cases h
  · rename_i envelope hf
    split at h
    · cases h
    · rename_i hu
      obtain rfl := Except.ok.inj h
      have hk := List.find?_some hf
      simp only [Bool.and_eq_true, beq_iff_eq] at hk
      exact ⟨List.mem_of_find?_eq_some hf, hk.1, hk.2, not_not.mp hu⟩

theorem raised_markAllRead (now : Time) (userId : Id) (dto : MarkAllReadDto) (db : Db) :
    Raised db.messageEnvelopes (Messages.markAllRead now userId dto db).2.messageEnvelopes := by
  unfold Messages.markAllRead
  split
  · exact Raised.refl _
  · apply raised_updateMany
    · exact ⟨fun _ => rfl, fun _ => rfl, fun _ => rfl, fun _ => rfl⟩
    · exact fun e => rank_le_read e.status

theorem raised_refreshEnvelopes (now : Time) (messageId : Id)
    (envelopes : List EditMessageEnvelopeDto) (db : Db) :
    Raised db.messageEnvelopes (refreshEnvelopes now messageId envelopes db).messageEnvelopes := by
  apply raised_foldl
  intro rows x
  apply raised_updateMany
  · exact ⟨fun _ => rfl, fun _ => rfl, fun _ => rfl, fun _ => rfl⟩
  · exact fun _ => le_refl _

theorem raised_edit (limit : EditLimit) (now : Time) (userId messageId : Id) (dto : EditMessageDto)
    (db : Db) :
    Raised db.messageEnvelopes (Messages.edit limit now userId messageId dto db).2.messageEnvelopes := by
  have hr := raised_refreshEnvelopes now messageId dto.envelopes
    (claimEdit now messageId dto.idempotencyKey db).2
  unfold Messages.edit
  split
  · exact Raised.refl _
  · simp only
    split
    · split <;> exact Raised.refl _
    · split <;> exact hr

theorem raised_editFanout (now : Time) (job : GroupEditFanoutJobData) (db : Db) :
    Raised db.messageEnvelopes (Groups.editFanout now job db).messageEnvelopes := by
  apply raised_foldl
  intro rows chunk
  apply raised_updateMany
  · exact ⟨fun _ => rfl, fun _ => rfl, fun _ => rfl, fun _ => rfl⟩
  · exact fun _ => le_refl _

/-- The envelopes of a READ ack and of the user's other devices end up READ. -/
theorem raised_readAck {now : Time} {userId messageId deviceId : Id} {deliveredAt : Option Time}
    (rows : List MessageEnvelope) :
    Raised rows (ackOne now messageId deviceId .read deliveredAt
      (readAll now userId messageId deliveredAt rows)) := by
  have hall : Raised rows (readAll now userId messageId deliveredAt rows) := by
    apply raised_updateMany
    · exact ⟨fun _ => rfl, fun _ => rfl, fun _ => rfl, fun _ => rfl⟩
    · exact fun e => rank_le_read e.status
  apply hall.trans
  apply raised_updateMany
  · exact ⟨fun _ => rfl, fun _ => rfl, fun _ => rfl, fun _ => rfl⟩
  · exact fun e => rank_le_read e.status

/-- What one operation does to the envelope table. -/
theorem step_cases (db : Db) (op : Op) :
    (Raised db.messageEnvelopes (step db op).messageEnvelopes ∧ ∀ e, ¬ DeliveredAck db op e) ∨
    ((∃ new, (step db op).messageEnvelopes =
      Rows.createManySkip envelopeClash new db.messageEnvelopes) ∧ ∀ e, ¬ DeliveredAck db op e) ∨
    (∃ e now, DeliveredAck db op e ∧ (∀ e', DeliveredAck db op e' → e' = e) ∧
      e ∈ db.messageEnvelopes ∧ (step db op).messageEnvelopes =
        ackOne now e.messageId e.recipientDeviceId .delivered e.deliveredAt db.messageEnvelopes) := by
  cases op with
  | ack now userId messageId dto =>
      cases hs : dto.status with
      | read =>
          refine Or.inl ⟨?_, ?_⟩
          · simp only [step, ack]
            split
            · exact Raised.refl _
            · rw [hs]
              exact raised_readAck _
          · rintro e ⟨_, _, _, dto', hop, hd, _⟩
            cases hop
            rw [hs] at hd
            cases hd
      | delivered =>
          cases he : ackEnvelope userId messageId dto.deviceId db with
          | error err =>
              refine Or.inl ⟨?_, ?_⟩
              · simp only [step, ack, he]
                exact Raised.refl _
              · rintro e ⟨_, _, _, dto', hop, _, hok⟩
                cases hop
                rw [he] at hok
                cases hok
          | ok e =>
              obtain ⟨hmem, rfl, hd, _⟩ := ackEnvelope_ok he
              refine Or.inr (Or.inr ⟨e, now, ⟨now, userId, _, dto, rfl, hs, he⟩, ?_, hmem, ?_⟩)
              · rintro e' ⟨_, _, _, _, hop, _, hok⟩
                cases hop
                rw [he] at hok
                exact (Except.ok.inj hok).symm
              · simp only [step, ack, he, hs, hd]
  | markAllRead now userId dto =>
      exact Or.inl ⟨raised_markAllRead now userId dto db, by rintro e ⟨_, _, _, _, hop, _⟩; cases hop⟩
  | edit limit now userId messageId dto =>
      exact Or.inl ⟨raised_edit limit now userId messageId dto db,
        by rintro e ⟨_, _, _, _, hop, _⟩; cases hop⟩
  | fanout now envelopeId job =>
      refine Or.inr (Or.inl ⟨?_, by rintro e ⟨_, _, _, _, hop, _⟩; cases hop⟩)
      simp only [step, Groups.fanout]
      split
      · exact ⟨[], rfl⟩
      · split
        · exact ⟨[], rfl⟩
        · exact ⟨_, rfl⟩
  | editFanout now job =>
      exact Or.inl ⟨raised_editFanout now job db, by rintro e ⟨_, _, _, _, hop, _⟩; cases hop⟩

theorem step_keys (db : Db) (op : Op) (h : EnvelopeKeys db.messageEnvelopes) :
    EnvelopeKeys (step db op).messageEnvelopes := by
  rcases step_cases db op with ⟨⟨g, hg, _, he⟩, _⟩ | ⟨⟨new, he⟩, _⟩ | ⟨e, now, _, _, _, he⟩
  · rw [he]
    exact h.map hg
  · rw [he]
    exact h.createManySkip
  · obtain ⟨g, hg, _, hrows⟩ :=
      keepsKeys_ackOne now e.messageId e.recipientDeviceId .delivered e.deliveredAt
    rw [he, hrows]
    exact h.map hg

/-- No envelope's status decreases in this step. -/
def NoStatusDecreases (db : Db) (op : Op) : Prop :=
  Forward db.messageEnvelopes (step db op).messageEnvelopes

/-- No DELIVERED ack is accepted for an envelope that is READ. -/
def NoLateDelivered (db : Db) (op : Op) : Prop :=
  ∀ e, DeliveredAck db op e → e.status ≠ .read

/-- One step lets a status fall back exactly when it acknowledges a READ envelope as
DELIVERED. -/
theorem step_forward_iff (db : Db) (op : Op) (h : EnvelopeKeys db.messageEnvelopes) :
    NoStatusDecreases db op ↔ NoLateDelivered db op := by
  unfold NoStatusDecreases NoLateDelivered
  rcases step_cases db op with ⟨⟨g, hg, hr, he⟩, hno⟩ | ⟨⟨new, he⟩, hno⟩ | ⟨e, now, hd, honly, hmem, he⟩
  · refine ⟨fun _ e hd => absurd hd (hno e), fun _ => ?_⟩
    rw [he]
    exact (forward_map_iff hg h).mpr fun e _ => hr e
  · refine ⟨fun _ e hd => absurd hd (hno e), fun _ => ?_⟩
    rw [he]
    exact forward_createManySkip h
  · obtain ⟨g, hg, hstatus, hrows⟩ :=
      keepsKeys_ackOne now e.messageId e.recipientDeviceId .delivered e.deliveredAt
    rw [he, hrows, forward_map_iff hg h]
    constructor
    · intro hf e' hd' hread
      obtain rfl := honly e' hd'
      have hle := hf e' hmem
      rw [hstatus, if_pos ⟨rfl, rfl⟩, hread] at hle
      exact absurd hle (by decide)
    · intro hn a ha
      rw [hstatus]
      split
      · rename_i hkey
        obtain rfl := h.devices.eq ha hmem (Prod.ext hkey.1 hkey.2)
        have hne := hn a hd
        cases hs : a.status with
        | pending => decide
        | delivered => decide
        | read => exact absurd hs hne
      · exact le_refl _

/-- Along every run the status of every envelope only moves forward if and only if no
DELIVERED ack is accepted for an envelope already READ. -/
theorem delivery_forward_iff (db : Db) (h : EnvelopeKeys db.messageEnvelopes) (ops : List Op) :
    Along step NoStatusDecreases db ops ↔ Along step NoLateDelivered db ops :=
  along_congr (fun db op => step_keys db op) (fun db op => step_forward_iff db op) ops db h

/-- A message from Alice with an envelope for each of Bob's two devices. -/
def sampleDb : Db :=
  { devices := [{ id := "d2", userId := "bob", platform := .ios, identityPublicKey := "k2"
                  createdAt := 0 },
                { id := "d3", userId := "bob", platform := .web, identityPublicKey := "k3"
                  createdAt := 0 }]
    messages := [{ id := "m1", threadId := some "t1", senderUserId := "alice"
                   senderDeviceId := "d1", idempotencyKey := "send-key-1", threadSequence := 1
                   createdAt := 0 }]
    messageEnvelopes :=
      [{ id := "e2", messageId := "m1", recipientUserId := "bob", recipientDeviceId := "d2"
         ciphertext := "c2", createdAt := 0, updatedAt := 0 },
       { id := "e3", messageId := "m1", recipientUserId := "bob", recipientDeviceId := "d3"
         ciphertext := "c3", createdAt := 0, updatedAt := 0 }] }

theorem sampleDb_keys : EnvelopeKeys sampleDb.messageEnvelopes := ⟨by decide, by decide⟩

/-- Bob reads the message on one device; the other device's DELIVERED ack comes later. -/
def readThenDelivered : List Op :=
  [.ack 10 "bob" "m1" { deviceId := "d2", status := .read },
   .ack 20 "bob" "m1" { deviceId := "d3", status := .delivered }]

theorem late_delivered_falls_back : ¬ Along step NoStatusDecreases sampleDb readThenDelivered := by
  intro h
  have hlast := h [.ack 10 "bob" "m1" { deviceId := "d2", status := .read }]
    (.ack 20 "bob" "m1" { deviceId := "d3", status := .delivered }) (List.prefix_refl _)
  revert hlast
  unfold NoStatusDecreases Forward
  decide

/-- In the other order both acks move the status forward. -/
theorem delivered_then_read_forward : Along step NoStatusDecreases sampleDb readThenDelivered.reverse := by
  refine (delivery_forward_iff sampleDb sampleDb_keys readThenDelivered.reverse).mpr ?_
  rw [show readThenDelivered.reverse =
    [.ack 20 "bob" "m1" { deviceId := "d3", status := .delivered },
     .ack 10 "bob" "m1" { deviceId := "d2", status := .read }] from rfl, along_cons, along_cons]
  refine ⟨?_, ?_, along_nil _ _ _⟩
  · rintro e ⟨_, _, _, _, hop, _, hok⟩
    cases hop
    obtain ⟨hmem, _⟩ := ackEnvelope_ok hok
    have hall : ∀ e ∈ sampleDb.messageEnvelopes, e.status ≠ .read := by decide
    exact hall e hmem
  · rintro e ⟨_, _, _, _, hop, hd, _⟩
    cases hop
    cases hd

end Delivery

end Birgap.Messages
