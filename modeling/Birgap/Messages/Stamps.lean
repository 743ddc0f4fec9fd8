import Birgap.Messages.Delivery

/-!
# When an envelope was delivered and read

The columns `deliveredAt` and `readAt` along runs of sends, fan-outs, acks and mark-all-read
requests on one clock. A READ ack writes both columns of the acknowledged envelope and of the
user's other unread ones; `markAllRead` writes `readAt` alone. Neither looks at what is stored
in the rows it rewrites.
-/
namespace Birgap.Messages.Stamps

set_option autoImplicit false

open Birgap.Lib Birgap.Lib.Run
open Birgap.Messages.Delivery (EnvelopeKeys KeepsKeys keepsKeys_if ackEnvelope_ok)

structure State where
  db : Db
  clock : Time

inductive Act where
  | tick (ms : Nat)
  | send (ctx : Ctx) (senderUserId : Id) (dto : SendMessageDto)
  | fanout (envelopeId : Nat → Id) (job : Groups.GroupFanoutJobData)
  | ack (userId messageId : Id) (dto : AckMessageDto)
  | markAllRead (userId : Id) (dto : MarkAllReadDto)

def step (s : State) : Act → State
  | .tick ms => { s with clock := s.clock + ms }
  | .send ctx senderUserId dto =>
      { s with db := (Messages.send { ctx with now := s.clock } senderUserId dto s.db).2 }
  | .fanout envelopeId job => { s with db := (Groups.fanout s.clock envelopeId job s.db).2 }
  | .ack userId messageId dto => { s with db := (Messages.ack s.clock userId messageId dto s.db).2 }
  | .markAllRead userId dto => { s with db := (Messages.markAllRead s.clock userId dto s.db).2 }

/-! ## What is claimed -/

/-- The timestamps of an envelope are those its status calls for. -/
structure Stamped (e : MessageEnvelope) : Prop where
  delivered : e.status = .delivered → e.deliveredAt.isSome
  read : e.status = .read → ∃ d r, e.deliveredAt = some d ∧ e.readAt = some r ∧ d ≤ r

/-- What is set stays as it is. -/
def Kept (o o' : Option Time) : Prop := ∀ t, o = some t → o' = some t

structure KeptRow (e e' : MessageEnvelope) : Prop where
  deliveredAt : Kept e.deliveredAt e'.deliveredAt
  readAt : Kept e.readAt e'.readAt

def AllStamped (s : State) : Prop := ∀ e ∈ s.db.messageEnvelopes, Stamped e

/-- Every envelope is still there, with the timestamps it had. -/
def Stable (s s' : State) : Prop :=
  ∀ e ∈ s.db.messageEnvelopes, ∃ e' ∈ s'.db.messageEnvelopes, e'.id = e.id ∧ KeptRow e e'

/-- Writing `t` changes nothing that is set. -/
def Agrees (o : Option Time) (t : Time) : Prop := ∀ x, o = some x → x = t

/-- The rows a READ ack rewrites: the acknowledged one, and what else of the message its user has
not read. -/
def readByAck (userId messageId deviceId : Id) (e : MessageEnvelope) : Bool :=
  (e.messageId == messageId && e.recipientUserId == userId && e.status != .read) ||
    (e.messageId == messageId && e.recipientDeviceId == deviceId)

/-- A READ ack finds timestamps unset or as it will write them, and so does a request to mark all
read, which needs `deliveredAt` to be there. -/
def Settled (s : State) : Act → Prop
  | .ack userId messageId dto => dto.status = .read →
      ∀ own, ackEnvelope userId messageId dto.deviceId s.db = .ok own →
        ∀ e ∈ s.db.messageEnvelopes, readByAck userId messageId dto.deviceId e = true →
          Agrees e.deliveredAt (own.deliveredAt.getD s.clock) ∧ Agrees e.readAt s.clock
  | .markAllRead userId dto => assertActiveDevice userId dto.deviceId s.db = .ok () →
      ∀ e ∈ s.db.messageEnvelopes,
        Unread.unreadEnvelope { userId, threadType := dto.threadType, threadId := dto.threadId }
          s.db e = true → e.deliveredAt.isSome ∧ Agrees e.readAt s.clock
  | _ => True

/-! ## Timestamps of one row -/

theorem Kept.refl (o : Option Time) : Kept o o := fun _ h => h

theorem Kept.trans {a b c : Option Time} (hab : Kept a b) (hbc : Kept b c) : Kept a c :=
  fun t h => hbc t (hab t h)

theorem KeptRow.refl (e : MessageEnvelope) : KeptRow e e := ⟨Kept.refl _, Kept.refl _⟩

theorem KeptRow.trans {a b c : MessageEnvelope} (hab : KeptRow a b) (hbc : KeptRow b c) :
    KeptRow a c := ⟨hab.deliveredAt.trans hbc.deliveredAt, hab.readAt.trans hbc.readAt⟩

theorem kept_some_iff {o : Option Time} {t : Time} : Kept o (some t) ↔ Agrees o t := by
  constructor
  · intro h x hx
    exact (Option.some.inj (h x hx)).symm
  · intro h x hx
    rw [h x hx]

theorem agrees_none (t : Time) : Agrees none t := by
  intro x hx
  cases hx

theorem Stable.refl (s : State) : Stable s s := fun e he => ⟨e, he, rfl, KeptRow.refl e⟩

theorem Stable.trans {a b c : State} (hab : Stable a b) (hbc : Stable b c) : Stable a c := by
  intro e he
  obtain ⟨e', he', hid, hkept⟩ := hab e he
  obtain ⟨e'', he'', hid', hkept'⟩ := hbc e' he'
  exact ⟨e'', he'', hid'.trans hid, hkept.trans hkept'⟩

/-! ## What a step does to the rows -/

theorem stamped_of_pending {e : MessageEnvelope} (hpending : e.status = .pending) : Stamped e := by
  constructor
  · intro h
    rw [hpending] at h
    cases h
  · intro h
    rw [hpending] at h
    cases h

/-- Adding rows that nobody has seen is fine. -/
theorem appended_stable {s s' : State} {extra : List MessageEnvelope} (hstamped : AllStamped s)
    (hrows : s'.db.messageEnvelopes = s.db.messageEnvelopes ++ extra)
    (hnew : ∀ e ∈ extra, e.status = .pending) : AllStamped s' ∧ Stable s s' := by
  unfold AllStamped Stable
  rw [hrows]
  constructor
  · intro e he
    rcases List.mem_append.mp he with hold | hextra
    · exact hstamped e hold
    · exact stamped_of_pending (hnew e hextra)
  · intro e he
    exact ⟨e, List.mem_append_left _ he, rfl, KeptRow.refl e⟩

/-- Rewriting rows in place is fine when it is on each of them. -/
theorem updated_iff {s s' : State} {p : MessageEnvelope → Bool}
    {f : MessageEnvelope → MessageEnvelope} (hstamped : AllStamped s)
    (hkeys : EnvelopeKeys s.db.messageEnvelopes) (hf : ∀ e, (f e).id = e.id)
    (hrows : s'.db.messageEnvelopes = Rows.updateMany p f s.db.messageEnvelopes) :
    AllStamped s' ∧ Stable s s' ↔
      ∀ e ∈ s.db.messageEnvelopes, p e = true → Stamped (f e) ∧ KeptRow e (f e) := by
  unfold AllStamped Stable
  rw [hrows]
  constructor
  · intro h e he hp
    have hmem : f e ∈ Rows.updateMany p f s.db.messageEnvelopes :=
      Rows.mem_updateMany.mpr ⟨e, he, by rw [if_pos hp]⟩
    refine ⟨h.1 _ hmem, ?_⟩
    obtain ⟨e', he', hid, hkept⟩ := h.2 e he
    obtain ⟨a, ha, rfl⟩ := Rows.mem_updateMany.mp he'
    -- the row with this id is the one that was rewritten
    have hsame : a.id = e.id := by
      by_cases hpa : p a = true
      · rw [if_pos hpa] at hid
        exact (hf a).symm.trans hid
      · rw [if_neg hpa] at hid
        exact hid
    obtain rfl := hkeys.ids.eq ha he hsame
    rw [if_pos hp] at hkept
    exact hkept
  · intro h
    constructor
    · intro e' he'
      obtain ⟨e, he, rfl⟩ := Rows.mem_updateMany.mp he'
      by_cases hp : p e = true
      · rw [if_pos hp]
        exact (h e he hp).1
      · rw [if_neg hp]
        exact hstamped e he
    · intro e he
      refine ⟨_, Rows.mem_updateMany.mpr ⟨e, he, rfl⟩, ?_⟩
      by_cases hp : p e = true
      · rw [if_pos hp]
        exact ⟨hf e, (h e he hp).2⟩
      · rw [if_neg hp]
        exact ⟨rfl, KeptRow.refl e⟩

/-- The unique indexes, and no delivery in the future. -/
structure Inv (s : State) : Prop where
  keys : EnvelopeKeys s.db.messageEnvelopes
  past : ∀ e ∈ s.db.messageEnvelopes, ∀ d, e.deliveredAt = some d → d ≤ s.clock

/-- New rows, under the unique indexes, of the status PENDING. -/
structure Adds (rows rows' extra : List MessageEnvelope) : Prop where
  appended : rows' = rows ++ extra
  keys : EnvelopeKeys rows → EnvelopeKeys rows'
  pending : ∀ e ∈ extra, e.status = .pending
  undelivered : ∀ e ∈ extra, e.deliveredAt = none

theorem adds_nothing (rows : List MessageEnvelope) : Adds rows rows [] :=
  ⟨(List.append_nil rows).symm, fun h => h, by simp, by simp⟩

theorem send_adds (ctx : Ctx) (senderUserId : Id) (dto : SendMessageDto) (db : Db) :
    ∃ extra, Adds db.messageEnvelopes (send ctx senderUserId dto db).2.messageEnvelopes extra := by
  unfold send
  rcases idempotently_cases dto.senderDeviceId dto.idempotencyKey (sendTx ctx senderUserId dto) db
    with ⟨r, db', htx, he⟩ | ⟨he, _⟩
  · rw [he]
    obtain ⟨ids, _, _, hposted⟩ := sendTx_ok htx
    obtain ⟨hrows, hinsert⟩ := hposted.envelopes
    have hnew : ∀ e ∈ directEnvelopes ctx senderUserId dto.recipientUserId ids dto.envelopes,
        e.status = .pending ∧ e.deliveredAt = none := by
      intro e he
      obtain ⟨x, _, rfl⟩ := List.mem_map.mp he
      exact ⟨rfl, rfl⟩
    refine ⟨_, hrows, ?_, fun e he => (hnew e he).1, fun e he => (hnew e he).2⟩
    intro hkeys
    constructor
    · exact Rows.unique_insertAll (fun a b hab => by simp [envelopeClash, hab]) hinsert hkeys.ids
    · exact Rows.unique_insertAll envelopeClash_device hinsert hkeys.devices
  · rw [he]
    exact ⟨[], adds_nothing _⟩

theorem fanout_adds (now : Time) (envelopeId : Nat → Id) (job : Groups.GroupFanoutJobData)
    (db : Db) : ∃ extra, Adds db.messageEnvelopes
      (Groups.fanout now envelopeId job db).2.messageEnvelopes extra := by
  unfold Groups.fanout
  dsimp only
  split
  · exact ⟨[], adds_nothing _⟩
  · split
    · exact ⟨[], adds_nothing _⟩
    · obtain ⟨extra, hrows, hmem⟩ := Rows.createManySkip_append envelopeClash
        (Groups.fanoutEnvelopes now envelopeId job
          (Groups.targetDevices job.groupId job.senderDeviceId db)) db.messageEnvelopes
      have hnew : ∀ e ∈ extra, e.status = .pending ∧ e.deliveredAt = none := by
        intro e he
        obtain ⟨x, _, rfl⟩ := List.mem_map.mp (hmem e he)
        exact ⟨rfl, rfl⟩
      exact ⟨extra, hrows, EnvelopeKeys.createManySkip, fun e he => (hnew e he).1,
        fun e he => (hnew e he).2⟩

/-- What a READ ack writes into a row. -/
def markRead (now deliveredAt : Time) (e : MessageEnvelope) : MessageEnvelope :=
  { e with status := .read, deliveredAt := some deliveredAt, readAt := some now, updatedAt := now }

/-- The two updates of a READ ack are one. -/
theorem readAck_eq (now : Time) (userId messageId deviceId : Id) (deliveredAt : Option Time)
    (rows : List MessageEnvelope) :
    ackOne now messageId deviceId .read deliveredAt
        (readAll now userId messageId deliveredAt rows) =
      Rows.updateMany (readByAck userId messageId deviceId)
        (markRead now (deliveredAt.getD now)) rows := by
  unfold ackOne readAll Rows.updateMany readByAck markRead
  rw [List.map_map]
  apply List.map_congr_left
  intro e _
  cases hbulk : e.messageId == messageId && e.recipientUserId == userId && e.status != .read <;>
    cases hown : e.messageId == messageId && e.recipientDeviceId == deviceId <;>
      simp only [Function.comp_apply, hbulk, hown, Bool.or_self, Bool.or_true, Bool.or_false,
        Bool.false_eq_true, ↓reduceIte]

theorem markRead_fine {now deliveredAt : Time} (hle : deliveredAt ≤ now) (e : MessageEnvelope) :
    Stamped (markRead now deliveredAt e) ∧ KeptRow e (markRead now deliveredAt e) ↔
      Agrees e.deliveredAt deliveredAt ∧ Agrees e.readAt now := by
  have hstamped : Stamped (markRead now deliveredAt e) := by
    constructor
    · intro h
      cases h
    · intro _
      exact ⟨deliveredAt, now, rfl, rfl, hle⟩
  constructor
  · intro h
    exact ⟨kept_some_iff.mp h.2.deliveredAt, kept_some_iff.mp h.2.readAt⟩
  · intro h
    exact ⟨hstamped, ⟨kept_some_iff.mpr h.1, kept_some_iff.mpr h.2⟩⟩

/-- What `markAllRead` writes into a row. -/
theorem markAllRead_fine {now : Time} {e : MessageEnvelope}
    (hpast : ∀ d, e.deliveredAt = some d → d ≤ now) :
    Stamped { e with status := .read, readAt := some now, updatedAt := now } ∧
        KeptRow e { e with status := .read, readAt := some now, updatedAt := now } ↔
      e.deliveredAt.isSome ∧ Agrees e.readAt now := by
  constructor
  · intro h
    obtain ⟨d, _, hd, _⟩ := h.1.read rfl
    have hd : e.deliveredAt = some d := hd
    refine ⟨?_, kept_some_iff.mp h.2.readAt⟩
    rw [hd]
    rfl
  · intro h
    obtain ⟨d, hd⟩ := Option.isSome_iff_exists.mp h.1
    refine ⟨⟨?_, ?_⟩, ⟨Kept.refl _, kept_some_iff.mpr h.2⟩⟩
    · intro hstatus
      cases hstatus
    · intro _
      exact ⟨d, now, hd, rfl, hpast d hd⟩

/-- What one step does to the table, and when that is fine. -/
theorem step_cases (s : State) (a : Act) (h : Inv s) :
    (∃ extra, Adds s.db.messageEnvelopes (step s a).db.messageEnvelopes extra ∧ Settled s a) ∨
    (∃ p f, (step s a).db.messageEnvelopes = Rows.updateMany p f s.db.messageEnvelopes ∧
      KeepsKeys f ∧
      (∀ e ∈ s.db.messageEnvelopes, p e = true → ∀ d, (f e).deliveredAt = some d → d ≤ s.clock) ∧
      ((∀ e ∈ s.db.messageEnvelopes, p e = true → Stamped (f e) ∧ KeptRow e (f e)) ↔
        Settled s a)) := by
  cases a with
  | tick ms => exact Or.inl ⟨[], adds_nothing _, trivial⟩
  | send ctx senderUserId dto =>
      obtain ⟨extra, hadds⟩ := send_adds { ctx with now := s.clock } senderUserId dto s.db
      exact Or.inl ⟨extra, hadds, trivial⟩
  | fanout envelopeId job =>
      obtain ⟨extra, hadds⟩ := fanout_adds s.clock envelopeId job s.db
      exact Or.inl ⟨extra, hadds, trivial⟩
  | ack userId messageId dto =>
      cases hown : ackEnvelope userId messageId dto.deviceId s.db with
      | error err =>
          refine Or.inl ⟨[], ?_, ?_⟩
          · simp only [step, Messages.ack, hown]
            exact adds_nothing _
          · intro _ own hok
            rw [hown] at hok
            cases hok
      | ok own =>
          obtain ⟨hmem, hmessage, hdevice, _⟩ := ackEnvelope_ok hown
          have hle : own.deliveredAt.getD s.clock ≤ s.clock := by
            cases hd : own.deliveredAt with
            | none => exact le_refl _
            | some d => exact h.past own hmem d hd
          right
          cases hs : dto.status with
          | read =>
              refine ⟨readByAck userId messageId dto.deviceId,
                markRead s.clock (own.deliveredAt.getD s.clock), ?_,
                ⟨fun _ => rfl, fun _ => rfl, fun _ => rfl, fun _ => rfl⟩, ?_, ?_⟩
              · simp only [step, Messages.ack, hown, hs]
                exact readAck_eq ..
              · intro e _ _ d hd
                obtain rfl := Option.some.inj hd
                exact hle
              · simp only [markRead_fine hle, Settled, hs, hown]
                constructor
                · intro hall _ own' hown'
                  obtain rfl := Except.ok.inj hown'
                  exact hall
                · intro hall
                  exact hall trivial own rfl
          | delivered =>
              refine ⟨fun e => e.messageId == messageId && e.recipientDeviceId == dto.deviceId,
                fun e => { e with
                  status := .delivered, deliveredAt := some (own.deliveredAt.getD s.clock)
                  updatedAt := s.clock }, ?_,
                ⟨fun _ => rfl, fun _ => rfl, fun _ => rfl, fun _ => rfl⟩, ?_, ?_⟩
              · simp only [step, Messages.ack, hown, hs]
                rfl
              · intro e _ _ d hd
                obtain rfl := Option.some.inj hd
                exact hle
              · refine iff_of_true ?_ (by intro hr; rw [hs] at hr; cases hr)
                intro e he hp
                simp only [Bool.and_eq_true, beq_iff_eq] at hp
                -- the only row that is rewritten is the one the stamp was read from
                obtain rfl := h.keys.devices.eq he hmem
                  (Prod.ext (hp.1.trans hmessage.symm) (hp.2.trans hdevice.symm))
                refine ⟨⟨fun _ => rfl, by intro hr; cases hr⟩, ⟨?_, Kept.refl _⟩⟩
                intro t ht
                show some (e.deliveredAt.getD s.clock) = some t
                rw [ht]
                rfl
  | markAllRead userId dto =>
      cases hactive : assertActiveDevice userId dto.deviceId s.db with
      | error err =>
          refine Or.inl ⟨[], ?_, ?_⟩
          · simp only [step, Messages.markAllRead, hactive]
            exact adds_nothing _
          · intro hok
            rw [hactive] at hok
            cases hok
      | ok u =>
          refine Or.inr ⟨Unread.unreadEnvelope
              { userId, threadType := dto.threadType, threadId := dto.threadId } s.db,
            fun e => { e with status := .read, readAt := some s.clock, updatedAt := s.clock }, ?_,
            ⟨fun _ => rfl, fun _ => rfl, fun _ => rfl, fun _ => rfl⟩, ?_, ?_⟩
          · simp only [step, Messages.markAllRead, hactive]
            rfl
          · intro e he _ d hd
            exact h.past e he d hd
          · simp only [Settled, hactive]
            constructor
            · intro hall _ e he hp
              exact (markAllRead_fine (h.past e he)).mp (hall e he hp)
            · intro hall e he hp
              exact (markAllRead_fine (h.past e he)).mpr (hall trivial e he hp)

theorem clock_le (s : State) (a : Act) : s.clock ≤ (step s a).clock := by
  cases a with
  | tick ms =>
      show s.clock ≤ s.clock + ms
      exact Int.le_add_of_nonneg_right (Int.natCast_nonneg ms)
  | send ctx senderUserId dto => exact le_refl _
  | fanout envelopeId job => exact le_refl _
  | ack userId messageId dto => exact le_refl _
  | markAllRead userId dto => exact le_refl _

theorem step_inv (s : State) (a : Act) (h : Inv s) : Inv (step s a) := by
  have hclock := clock_le s a
  rcases step_cases s a h with ⟨extra, hadds, _⟩ | ⟨p, f, hrows, hf, hpast, _⟩
  · constructor
    · exact hadds.keys h.keys
    · rw [hadds.appended]
      intro e he d hd
      rcases List.mem_append.mp he with hold | hnew
      · exact (h.past e hold d hd).trans hclock
      · rw [hadds.undelivered e hnew] at hd
        cases hd
  · constructor
    · rw [hrows]
      exact h.keys.map (keepsKeys_if hf)
    · rw [hrows]
      intro e' he' d hd
      obtain ⟨e, he, rfl⟩ := Rows.mem_updateMany.mp he'
      by_cases hp : p e = true
      · rw [if_pos hp] at hd
        exact (hpast e he hp d hd).trans hclock
      · rw [if_neg hp] at hd
        exact (h.past e he d hd).trans hclock

/-- A step leaves the timestamps consistent and stable exactly when it finds them settled. -/
theorem step_stamped_iff (s : State) (a : Act) (h : Inv s) (hstamped : AllStamped s) :
    AllStamped (step s a) ∧ Stable s (step s a) ↔ Settled s a := by
  rcases step_cases s a h with ⟨extra, hadds, hsettled⟩ | ⟨p, f, hrows, hf, _, hiff⟩
  · exact iff_of_true (appended_stable hstamped hadds.appended hadds.pending) hsettled
  · rw [updated_iff hstamped h.keys hf.id hrows]
    exact hiff

/-- Along every run the timestamps match the statuses and never change once set if and only if
every ack and every request to mark all read finds them settled. -/
theorem stamps_iff (s : State) (h : Inv s) (hstamped : AllStamped s) (acts : List Act) :
    Always step AllStamped s acts ∧ Later step Stable s acts ↔ Along step Settled s acts := by
  rw [later_iff_along Stable.refl (fun _ _ _ => Stable.trans)]
  exact always_and_along_iff step_inv (fun s a h hs => step_stamped_iff s a h hs) acts s h hstamped

/-- Two envelopes of Bob, neither of them delivered. -/
def undelivered : State := { db := Delivery.sampleDb, clock := 5 }

theorem undelivered_unset : ∀ e ∈ undelivered.db.messageEnvelopes,
    e.status = .pending ∧ e.deliveredAt = none ∧ e.readAt = none := by decide

theorem undelivered_inv : Inv undelivered := by
  constructor
  · exact Delivery.sampleDb_keys
  · intro e he d hd
    rw [(undelivered_unset e he).2.1] at hd
    cases hd

theorem undelivered_stamped : AllStamped undelivered := by
  intro e he
  exact stamped_of_pending (undelivered_unset e he).1

/-- Bob marks a thread read that no device of his has acknowledged: his envelopes are READ and
were never delivered. -/
theorem read_without_delivery :
    ¬ ∀ (s : State), Inv s → AllStamped s → ∀ acts,
      Always step AllStamped s acts ∧ Later step Stable s acts := by
  intro h
  have hrun := (h undelivered undelivered_inv undelivered_stamped
    [.markAllRead "bob" { threadId := "t1", threadType := .direct, deviceId := "d2" }]).1
  have hlast := hrun _ (List.prefix_refl _)
  obtain ⟨d, r, hd, _⟩ := (hlast
    { id := "e2", messageId := "m1", recipientUserId := "bob", recipientDeviceId := "d2"
      ciphertext := "c2", status := .read, readAt := some 5, createdAt := 0, updatedAt := 5 }
    (by decide)).read rfl
  cases hd

/-- A READ ack on one device and a later DELIVERED ack on the other. -/
theorem read_then_delivered_stamps :
    Always step AllStamped undelivered
        [.ack "bob" "m1" { deviceId := "d2", status := .read }, .tick 10,
         .ack "bob" "m1" { deviceId := "d3", status := .delivered }] ∧
      Later step Stable undelivered
        [.ack "bob" "m1" { deviceId := "d2", status := .read }, .tick 10,
         .ack "bob" "m1" { deviceId := "d3", status := .delivered }] := by
  refine (stamps_iff undelivered undelivered_inv undelivered_stamped _).mpr ?_
  rw [along_cons, along_cons, along_cons]
  refine ⟨?_, trivial, ?_, along_nil _ _ _⟩
  · intro _ own _ e he _
    obtain ⟨_, hdelivered, hread⟩ := undelivered_unset e he
    rw [hdelivered, hread]
    exact ⟨agrees_none _, agrees_none _⟩
  · intro hr
    cases hr

end Birgap.Messages.Stamps
