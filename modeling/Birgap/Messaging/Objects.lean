import Birgap.Messaging.Steps
import Birgap.Messages.Cleanup

/-!
# Which attachments a step adds

Attachment rows are never removed and keep their keys. A step adds rows for one new message:
unbound uploads that it binds, or copies of the attachments of the source of a forward.
-/
namespace Birgap.Messaging

set_option autoImplicit false

open Birgap.Lib Birgap.Messages Birgap.Groups Birgap.Auth

/-- The keys of the stored objects of an attachment. -/
def keysOf (r : MessageMedia) : String × Option String := (r.bucketKey, r.thumbnailBucketKey)

/-- The act commits the current target of a forward. -/
inductive CommitsForward (s : State) (f : Forwarding) : Act → Prop where
  | direct {pid : Nat} {ctx : Ctx} {recipientUserId : Id} {envelopes : List MessageEnvelopeDto}
      (hc : s.calls pid = .sending (.forward f recipientUserId envelopes)) :
      CommitsForward s f (.tx pid ctx)
  | group {pid : Nat} {now : Time} {messageId : Id} {mediaId : Nat → Id} {groupId : Id}
      {ciphertext : Ciphertext} {sequence : Nat} {replyTo : Option Id}
      (hc : s.calls pid = .validated (.forward f groupId ciphertext) sequence replyTo) :
      CommitsForward s f (.commit pid now messageId mediaId)

theorem CommitsForward.call {s : State} {f : Forwarding} {a : Act} (h : CommitsForward s f a) :
    ∃ pid, (s.calls pid).forwardOf = some f := by
  cases h with
  | @direct pid ctx recipientUserId envelopes hc => exact ⟨pid, by rw [hc]; rfl⟩
  | @group pid now messageId mediaId groupId ciphertext sequence replyTo hc =>
      exact ⟨pid, by rw [hc]; rfl⟩

/-- What a step does to the messages and the attachments. -/
inductive Stores (s : State) (a : Act) (db' : Db) : Prop where
  | same (hm : db'.messages = s.db.messages) (hr : db'.messageMedia = s.db.messageMedia)
  | bound {m : Message} {senderUserId : Id} {mediaIds : List Id}
      (hfresh : ∀ x ∈ s.db.messages, x.id ≠ m.id) (hlive : m.deletedAt = none)
      (hm : db'.messages = s.db.messages ++ [m])
      (hr : db'.messageMedia = (bindMedia senderUserId mediaIds m.id s.db).messageMedia)
  | copied {m : Message} {f : Forwarding} {copies : List MessageMedia} (ha : CommitsForward s f a)
      (hfresh : ∀ x ∈ s.db.messages, x.id ≠ m.id) (hlive : m.deletedAt = none)
      (hm : db'.messages = s.db.messages ++ [m])
      (hr : db'.messageMedia = s.db.messageMedia ++ copies) (hc : CopiesOf m.id f.sourceMedia copies)

theorem Effect.stores {env : AuthEnv} {configuredMax : Option Int} {s : State} {a : Act}
    {o : State × Option Returned} (he : Effect env configuredMax s a o) : Stores s a o.1.db := by
  rcases he.inserts with hsame | ⟨m, hm⟩
  · exact .same hsame.messages hsame.media
  · obtain ⟨hclash, hmsgs⟩ := hm.messages
    have hfresh := messageClash_fresh hclash
    cases hm with
    | @posted pid t ctx answer hc htx =>
        cases t with
        | send senderUserId dto =>
            obtain ⟨hlive, hrows⟩ := sendTx_media htx
            exact .bound hfresh hlive hmsgs hrows
        | forward f recipientUserId envelopes =>
            obtain ⟨hlive, copies, hrows, hcopies⟩ := forwardTx_media htx
            exact .copied (.direct hc) hfresh hlive hmsgs hrows hcopies
    | @committed pid t sequence replyTo now messageId mediaId hc hdb =>
        have hlive := groupMessage_deletedAt now messageId t.request sequence replyTo
        have hrows := commitGroupMessage_media hdb
        cases t with
        | message senderUserId groupId dto => exact .bound hfresh hlive hmsgs hrows
        | forward f groupId ciphertext =>
            obtain ⟨copies, hrows, hcopies⟩ := hrows
            exact .copied (.group hc) hfresh hlive hmsgs hrows hcopies

/-- Where the keys of a new row come from: an upload that was unbound until then, or the
source of a forward. -/
def FromUpload (s : State) (db' : Db) (q : MessageMedia) : Prop :=
  ∃ u ∈ s.db.messageMedia, u.messageId = none ∧ u ∉ db'.messageMedia ∧ keysOf u = keysOf q

def FromSource (s : State) (a : Act) (q : MessageMedia) : Prop :=
  ∃ f, CommitsForward s f a ∧ ∃ y ∈ f.sourceMedia, keysOf y = keysOf q

/-- A step of the messaging system only adds. -/
structure Extends (s : State) (a : Act) (db' : Db) : Prop where
  messages : ∀ x ∈ s.db.messages, x ∈ db'.messages
  fresh : ∀ x ∈ db'.messages, x ∈ s.db.messages ∨
    (x.deletedAt = none ∧ ∀ y ∈ s.db.messages, y.id ≠ x.id)
  ids : Rows.Unique (·.id) s.db.messages → Rows.Unique (·.id) db'.messages
  kept : ∀ q ∈ s.db.messageMedia, q.messageId.isSome → q ∈ db'.messageMedia
  new : ∀ q ∈ db'.messageMedia, q ∈ s.db.messageMedia ∨
    ∃ x ∈ db'.messages, q.messageId = some x.id ∧ x.deletedAt = none ∧
      (FromUpload s db' q ∨ FromSource s a q)

section Messages

variable {s : State} {a : Act} {db' : Db} {m : Message}
  (hfresh : ∀ x ∈ s.db.messages, x.id ≠ m.id) (hlive : m.deletedAt = none)
  (hm : db'.messages = s.db.messages ++ [m])
include hm

theorem messages_append : ∀ x ∈ s.db.messages, x ∈ db'.messages := by
  intro x hx
  rw [hm]
  exact List.mem_append_left _ hx

theorem mem_appended : m ∈ db'.messages := by
  rw [hm]
  exact List.mem_append_right _ (List.mem_singleton_self m)

include hfresh

theorem ids_append (hu : Rows.Unique (·.id) s.db.messages) : Rows.Unique (·.id) db'.messages := by
  rw [hm]
  exact Rows.unique_append hu hfresh

include hlive

theorem fresh_append : ∀ x ∈ db'.messages, x ∈ s.db.messages ∨
    (x.deletedAt = none ∧ ∀ y ∈ s.db.messages, y.id ≠ x.id) := by
  intro x hx
  rw [hm] at hx
  rcases List.mem_append.mp hx with hx | hx
  · exact Or.inl hx
  · rw [List.mem_singleton.mp hx]
    exact Or.inr ⟨hlive, hfresh⟩

end Messages

theorem Stores.extends {s : State} {a : Act} {db' : Db} (h : Stores s a db') : Extends s a db' := by
  cases h with
  | same hm hr =>
      refine ⟨?_, ?_, ?_, ?_, ?_⟩
      · rw [hm]
        exact fun x hx => hx
      · rw [hm]
        exact fun x hx => Or.inl hx
      · rw [hm]
        exact fun hu => hu
      · rw [hr]
        exact fun q hq _ => hq
      · rw [hr]
        exact fun q hq => Or.inl hq
  | @bound m senderUserId mediaIds hfresh hlive hm hr =>
      refine ⟨messages_append hm, fresh_append hfresh hlive hm, ids_append hfresh hm, ?_, ?_⟩
      · intro q hq hbound
        rw [hr]
        refine Rows.mem_updateMany.mpr ⟨q, hq, ?_⟩
        rw [if_neg]
        intro hsel
        simp only [Bool.and_eq_true, Option.isNone_iff_eq_none] at hsel
        rw [hsel.2] at hbound
        cases hbound
      · intro q hq
        have hq' := hq
        rw [hr] at hq'
        obtain ⟨u, hu, rfl⟩ := Rows.mem_updateMany.mp hq'
        split
        · rename_i hsel
          have hnone : u.messageId = none := by
            simp only [Bool.and_eq_true, Option.isNone_iff_eq_none] at hsel
            exact hsel.2
          refine Or.inr ⟨m, mem_appended hm, rfl, hlive, Or.inl ⟨u, hu, hnone, ?_, rfl⟩⟩
          -- every row equal to a bound one is bound with it
          intro hstill
          rw [hr] at hstill
          obtain ⟨w, _, hw⟩ := Rows.mem_updateMany.mp hstill
          split at hw
          · have hbound := congrArg MessageMedia.messageId hw
            rw [hnone] at hbound
            cases hbound
          · rename_i hnot
            rw [← hw] at hnot
            exact hnot hsel
        · exact Or.inl hu
  | @copied m f copies ha hfresh hlive hm hr hc =>
      refine ⟨messages_append hm, fresh_append hfresh hlive hm, ids_append hfresh hm, ?_, ?_⟩
      · intro q hq _
        rw [hr]
        exact List.mem_append_left _ hq
      · intro q hq
        rw [hr] at hq
        rcases List.mem_append.mp hq with hq | hq
        · exact Or.inl hq
        · obtain ⟨hid, y, hy, hb, ht⟩ := hc q hq
          refine Or.inr ⟨m, mem_appended hm, hid, hlive, Or.inr ⟨f, ha, y, hy, ?_⟩⟩
          unfold keysOf
          rw [hb, ht]

theorem exec_extends (env : AuthEnv) (configuredMax : Option Int) (s : State) (a : Act) :
    Extends s a (step env configuredMax s a).db :=
  (exec_effect env configuredMax s a).stores.extends

/-! ## Rows and their messages -/

/-- Message ids are unique, and a bound attachment belongs to a stored message. -/
structure Linked (db : Db) : Prop where
  ids : Rows.Unique (·.id) db.messages
  linked : ∀ r ∈ db.messageMedia, ∀ id, r.messageId = some id → ∃ x ∈ db.messages, x.id = id

theorem Extends.linked {s : State} {a : Act} {db' : Db} (h : Extends s a db') (hl : Linked s.db) :
    Linked db' := by
  refine ⟨h.ids hl.ids, ?_⟩
  intro q hq id hid
  rcases h.new q hq with hq | ⟨x, hx, hxid, _⟩
  · obtain ⟨x, hx, hxid⟩ := hl.linked q hq id hid
    exact ⟨x, h.messages x hx, hxid⟩
  · rw [hxid] at hid
    exact ⟨x, hx, Option.some.inj hid⟩

/-- An old row belongs to an old message. -/
theorem Extends.old_message {s : State} {a : Act} {db' : Db} (h : Extends s a db') (hl : Linked s.db)
    {q : MessageMedia} (hq : q ∈ s.db.messageMedia) {x : Message} (hx : x ∈ db'.messages)
    (hid : q.messageId = some x.id) : x ∈ s.db.messages := by
  rcases h.fresh x hx with hold | ⟨_, hnew⟩
  · exact hold
  · obtain ⟨y, hy, hyid⟩ := hl.linked q hq x.id hid
    exact absurd hyid (hnew y hy)

theorem linked_of_tombstone {db : Db} (hl : Linked db) (messageId : Id) (now : Time)
    (log : List AdminAuditLog) :
    Linked { db with
      messages := Rows.updateMany (·.id == messageId) (tombstoned now) db.messages
      adminAuditLog := log } := by
  refine ⟨Rows.unique_updateMany (f := tombstoned now) (fun _ => rfl) hl.ids, ?_⟩
  intro r hr id hid
  obtain ⟨x, hx, hxid⟩ := hl.linked r hr id hid
  obtain ⟨x', hx', hkey⟩ := Rows.updateMany_kept (p := (·.id == messageId)) (f := tombstoned now)
    (k := Message.id) (fun _ => rfl) hx
  exact ⟨x', hx', hkey.trans hxid⟩

end Birgap.Messaging
