import Birgap.Messaging.Transactions

/-!
# What an open transaction can rely on

An attachment row is announced, completed and bound to one message, in that order, and no
step takes a row back. A transaction relies on more: what it has locked nobody else binds
or creates. `Evolves` says what the others may do to the store meanwhile, `CallOk` what a
call has secured, and the rules at the end are those by which one step keeps both.
-/
namespace Birgap.Messaging.Transactions

set_option autoImplicit false

open Birgap.Lib Birgap.Messages

/-! ## How rows change -/

/-- What may become of an attachment row. -/
structure Progress (r r' : MessageMedia) : Prop where
  id : r'.id = r.id
  userId : r'.userId = r.userId
  complete : r.uploadStatus = .complete → r'.uploadStatus = .complete
  bound : ∀ messageId, r.messageId = some messageId → r'.messageId = some messageId

theorem Progress.refl (r : MessageMedia) : Progress r r :=
  ⟨rfl, rfl, fun h => h, fun _ h => h⟩

theorem Progress.trans {r₁ r₂ r₃ : MessageMedia} (h : Progress r₁ r₂) (h' : Progress r₂ r₃) :
    Progress r₁ r₃ :=
  ⟨h'.id.trans h.id, h'.userId.trans h.userId, fun hc => h'.complete (h.complete hc),
    fun messageId hm => h'.bound messageId (h.bound messageId hm)⟩

/-- What may become of the store while the locks in `held` are with somebody else: rows
make progress and none is lost, a locked row is not bound, and a locked id is not taken. -/
structure Evolves (held : Lock → Prop) (db db' : Db) : Prop where
  rows : ∀ r ∈ db.messageMedia, ∃ r' ∈ db'.messageMedia, Progress r r' ∧
    (held (.mediaId r.id) → r'.messageId = r.messageId)
  freshRows : ∀ r' ∈ db'.messageMedia,
    (∃ r ∈ db.messageMedia, r.id = r'.id) ∨ ¬ held (.mediaId r'.id)
  messages : ∀ m ∈ db.messages, ∃ m' ∈ db'.messages,
    m'.id = m.id ∧ m'.senderUserId = m.senderUserId
  freshMessages : ∀ m' ∈ db'.messages,
    (∃ m ∈ db.messages, m.id = m'.id) ∨ ¬ held (.messageId m'.id)

namespace Evolves

variable {held held' : Lock → Prop} {db db' db'' : Db}

theorem refl (held : Lock → Prop) (db : Db) : Evolves held db db where
  rows r hr := ⟨r, hr, Progress.refl r, fun _ => rfl⟩
  freshRows r hr := Or.inl ⟨r, hr, rfl⟩
  messages m hm := ⟨m, hm, rfl, rfl⟩
  freshMessages m hm := Or.inl ⟨m, hm, rfl⟩

theorem mono (h : Evolves held db db') (hh : ∀ l, held' l → held l) : Evolves held' db db' where
  rows r hr := by
    obtain ⟨r', hr', hp, hl⟩ := h.rows r hr
    exact ⟨r', hr', hp, fun hheld => hl (hh _ hheld)⟩
  freshRows r' hr' := (h.freshRows r' hr').imp_right fun hn hheld => hn (hh _ hheld)
  messages := h.messages
  freshMessages m' hm' := (h.freshMessages m' hm').imp_right fun hn hheld => hn (hh _ hheld)

theorem trans (h : Evolves held db db') (h' : Evolves held db' db'') : Evolves held db db'' where
  rows r hr := by
    obtain ⟨r₁, hr₁, hp₁, hl₁⟩ := h.rows r hr
    obtain ⟨r₂, hr₂, hp₂, hl₂⟩ := h'.rows r₁ hr₁
    refine ⟨r₂, hr₂, hp₁.trans hp₂, fun hheld => ?_⟩
    rw [hl₂ (hp₁.id ▸ hheld), hl₁ hheld]
  freshRows r hr := by
    rcases h'.freshRows r hr with ⟨r₁, hr₁, hid⟩ | hn
    · rw [← hid]
      exact h.freshRows r₁ hr₁
    · exact Or.inr hn
  messages m hm := by
    obtain ⟨m₁, hm₁, hid₁, hs₁⟩ := h.messages m hm
    obtain ⟨m₂, hm₂, hid₂, hs₂⟩ := h'.messages m₁ hm₁
    exact ⟨m₂, hm₂, hid₂.trans hid₁, hs₂.trans hs₁⟩
  freshMessages m hm := by
    rcases h'.freshMessages m hm with ⟨m₁, hm₁, hid⟩ | hn
    · rw [← hid]
      exact h.freshMessages m₁ hm₁
    · exact Or.inr hn

end Evolves

/-- Every bound row is complete and belongs to the sender of its message. -/
def Consistent (db : Db) : Prop :=
  ∀ r ∈ db.messageMedia, ∀ messageId, r.messageId = some messageId →
    r.uploadStatus = .complete ∧
      ∃ m ∈ db.messages, m.id = messageId ∧ m.senderUserId = r.userId

/-! ## What a call has secured -/

/-- The attachments of a request are complete and its sender's. -/
def Owned (t : Task) (db : Db) : Prop :=
  ∀ id ∈ t.mediaIds, ∃ r ∈ db.messageMedia,
    r.id = id ∧ r.userId = t.senderUserId ∧ r.uploadStatus = .complete

/-- The attachments of a request are bound to a message. -/
def Attached (t : Task) (messageId : Id) (db : Db) : Prop :=
  ∀ id ∈ t.mediaIds, ∃ r ∈ db.messageMedia, r.id = id ∧ r.messageId = some messageId

/-- A message inserted but not committed: its id is locked and not in use. -/
structure Inserts (locks : Locks.Table Lock) (pid : Nat) (t : Task) (m : Message) (db : Db) :
    Prop where
  locked : (.messageId m.id, pid) ∈ locks
  fresh : ∀ x ∈ db.messages, x.id ≠ m.id
  sender : m.senderUserId = t.senderUserId

/-- The attachment writes of an open transaction: what it binds is locked, free, complete
and its sender's, what it clones has locked ids that are not in use. -/
structure Attaches (locks : Locks.Table Lock) (pid : Nat) (t : Task) (m : Message)
    (w : MediaWrites) (db : Db) : Prop where
  boundLocked : ∀ id ∈ w.bound, (.mediaId id, pid) ∈ locks
  bound : ∀ id ∈ w.bound, ∃ r ∈ db.messageMedia, r.id = id ∧ r.userId = t.senderUserId ∧
    r.uploadStatus = .complete ∧ r.messageId = none
  clonesLocked : ∀ c ∈ w.clones, (.mediaId c.id, pid) ∈ locks
  clonesFresh : ∀ c ∈ w.clones, ∀ r ∈ db.messageMedia, r.id ≠ c.id
  clonesUnique : Rows.Unique (·.id) w.clones
  clones : ∀ c ∈ w.clones, c.userId = t.senderUserId ∧ c.uploadStatus = .complete ∧
    c.messageId = some m.id

/-- What holds of a call. Where `full` does, its binding update has matched every
attachment it named. -/
def CallOk (full : Prop) (db : Db) (locks : Locks.Table Lock) (pid : Nat) : Call → Prop
  | .owned t _ _ => Owned t db
  | .inserted t _ new => Owned t db ∧ Inserts locks pid t new.message db
  | .attached t _ new w => Inserts locks pid t new.message db ∧
      Attaches locks pid t new.message w db ∧ (full → ∀ id ∈ t.mediaIds, id ∈ w.bound)
  | .enqueueing t m created => created = true → full → Attached t m.id db
  | _ => True

structure Inv (full : Prop) (s : State) : Prop where
  exclusive : Locks.Exclusive s.locks
  messageIds : Rows.Unique (·.id) s.db.messages
  mediaIds : Rows.Unique (·.id) s.db.messageMedia
  calls : ∀ pid, CallOk full s.db s.locks pid (s.calls pid)

theorem Owned.evolves {held : Lock → Prop} {t : Task} {db db' : Db} (h : Owned t db)
    (he : Evolves held db db') : Owned t db' := by
  intro id hid
  obtain ⟨r, hr, rfl, huser, hstatus⟩ := h id hid
  obtain ⟨r', hr', hp, _⟩ := he.rows r hr
  exact ⟨r', hr', hp.id, hp.userId.trans huser, hp.complete hstatus⟩

theorem Attached.evolves {held : Lock → Prop} {t : Task} {messageId : Id} {db db' : Db}
    (h : Attached t messageId db) (he : Evolves held db db') : Attached t messageId db' := by
  intro id hid
  obtain ⟨r, hr, rfl, hbound⟩ := h id hid
  obtain ⟨r', hr', hp, _⟩ := he.rows r hr
  exact ⟨r', hr', hp.id, hp.bound messageId hbound⟩

/-- What a call has secured survives the steps of the others. -/
theorem CallOk.evolves {full : Prop} {db db' : Db} {locks locks' : Locks.Table Lock} {pid : Nat}
    {c : Call} (h : CallOk full db locks pid c)
    (he : Evolves (fun l => (l, pid) ∈ locks) db db')
    (hl : ∀ l, (l, pid) ∈ locks → (l, pid) ∈ locks') : CallOk full db' locks' pid c := by
  have hinserts : ∀ {t m}, Inserts locks pid t m db → Inserts locks' pid t m db' := by
    intro t m hi
    refine ⟨hl _ hi.locked, ?_, hi.sender⟩
    intro x hx hid
    rcases he.freshMessages x hx with ⟨m₀, hm₀, hid₀⟩ | hn
    · exact hi.fresh m₀ hm₀ (hid₀.trans hid)
    · exact hn (hid ▸ hi.locked)
  cases c with
  | owned t n replyTo => exact Owned.evolves h he
  | inserted t n new => exact ⟨Owned.evolves h.1 he, hinserts h.2⟩
  | attached t n new w =>
      obtain ⟨hi, ha, hfull⟩ := h
      refine ⟨hinserts hi, ?_, hfull⟩
      refine ⟨fun id hid => hl _ (ha.boundLocked id hid), ?_,
        fun c hc => hl _ (ha.clonesLocked c hc), ?_, ha.clonesUnique, ha.clones⟩
      · intro id hid
        obtain ⟨r, hr, rfl, huser, hstatus, hfree⟩ := ha.bound id hid
        obtain ⟨r', hr', hp, hlocked⟩ := he.rows r hr
        exact ⟨r', hr', hp.id, hp.userId.trans huser, hp.complete hstatus,
          (hlocked (ha.boundLocked _ hid)).trans hfree⟩
      · intro c hc r' hr' hid
        rcases he.freshRows r' hr' with ⟨r, hr, hid'⟩ | hn
        · exact ha.clonesFresh c hc r hr (hid'.trans hid)
        · exact hn (hid ▸ ha.clonesLocked c hc)
  | enqueueing t m created => exact fun hc hf => (h hc hf).evolves he
  | _ => trivial

/-! ## One step -/

variable {full : Prop} {s : State} {pid : Nat}

/-- The locks of everybody but one call. -/
def others (locks : Locks.Table Lock) (pid : Nat) (l : Lock) : Prop :=
  ∃ q, q ≠ pid ∧ (l, q) ∈ locks

/-- One call moves on, and the store with it; the other calls keep their locks. -/
theorem Inv.update (h : Inv full s) {db : Db} {c : Call} {locks : Locks.Table Lock}
    (he : Evolves (others s.locks pid) s.db db)
    (hmessages : Rows.Unique (·.id) db.messages) (hmedia : Rows.Unique (·.id) db.messageMedia)
    (hexclusive : Locks.Exclusive locks)
    (hlocks : ∀ l q, q ≠ pid → (l, q) ∈ s.locks → (l, q) ∈ locks)
    (hc : CallOk full db locks pid c) :
    Inv full { db, calls := Function.update s.calls pid c, locks } := by
  refine ⟨hexclusive, hmessages, hmedia, ?_⟩
  intro q
  show CallOk full db locks q (Function.update s.calls pid c q)
  by_cases hq : q = pid
  · rw [hq, Function.update_self]
    exact hc
  · rw [Function.update_of_ne hq]
    exact (h.calls q).evolves (he.mono fun l hl => ⟨q, hq, hl⟩) fun l hl => hlocks l q hq hl

theorem Inv.set (h : Inv full s) {c : Call} (hc : CallOk full s.db s.locks pid c) :
    Inv full (s.set pid c) :=
  h.update (Evolves.refl _ _) h.messageIds h.mediaIds h.exclusive (fun _ _ _ hl => hl) hc

theorem Inv.leave (h : Inv full s) {c : Call} (hc : ∀ locks, CallOk full s.db locks pid c) :
    Inv full (s.leave pid c) :=
  h.update (Evolves.refl _ _) h.messageIds h.mediaIds h.exclusive.release
    (fun _ _ hq hl => Locks.mem_release.mpr ⟨hl, hq⟩) (hc _)

theorem Inv.lock (h : Inv full s) {ks : List Lock} {c : Call}
    (hc : CallOk full s.db (Locks.acquire s.locks pid ks) pid c) : Inv full (s.lock pid ks c) := by
  unfold State.lock
  split
  · rename_i hfree
    exact h.update (Evolves.refl _ _) h.messageIds h.mediaIds (h.exclusive.acquire hfree)
      (fun _ _ _ hl => Locks.mem_acquire.mpr (Or.inl hl)) hc
  · exact h

/-- A statement outside every transaction respects all locks. -/
theorem Inv.write (h : Inv full s) {db : Db} (he : Evolves (fun l => ∃ q, (l, q) ∈ s.locks) s.db db)
    (hmessages : Rows.Unique (·.id) db.messages) (hmedia : Rows.Unique (·.id) db.messageMedia) :
    Inv full { s with db := db } :=
  ⟨h.exclusive, hmessages, hmedia, fun pid =>
    (h.calls pid).evolves (he.mono fun _ hl => ⟨pid, hl⟩) fun _ hl => hl⟩

/-- What is proved of each step. -/
structure StepOk (full : Prop) (s : State) (o : State × Option Returned) : Prop where
  inv : Inv full o.1
  evolves : Evolves (fun _ => False) s.db o.1.db
  consistent : Consistent s.db → Consistent o.1.db
  answered : ∀ t m, o.2 = some (.sent t m true) → full → Attached t m.id o.1.db

/-- A step that leaves the store alone and answers no new message. -/
theorem StepOk.quiet {s' : State} (h : Inv full s') (hdb : s'.db = s.db) :
    StepOk full s (s', none) where
  inv := h
  evolves := by
    show Evolves _ s.db s'.db
    rw [hdb]
    exact Evolves.refl _ _
  consistent hs := by
    show Consistent s'.db
    rw [hdb]
    exact hs
  answered _ _ ha := by cases ha

/-- A statement outside every transaction. -/
theorem StepOk.write (h : Inv full s) {db : Db}
    (he : Evolves (fun l => ∃ q, (l, q) ∈ s.locks) s.db db)
    (hmessages : Rows.Unique (·.id) db.messages) (hmedia : Rows.Unique (·.id) db.messageMedia)
    (hconsistent : Consistent s.db → Consistent db) : StepOk full s ({ s with db := db }, none) where
  inv := h.write he hmessages hmedia
  evolves := he.mono fun _ hf => hf.elim
  consistent := hconsistent
  answered _ _ ha := by cases ha

theorem StepOk.idle {s' : State} (h : StepOk full s (s', none)) (pid : Nat) :
    StepOk full s (s'.set pid .idle, none) :=
  ⟨h.inv.set trivial, h.evolves, h.consistent, h.answered⟩

theorem StepOk.same (h : Inv full s) : StepOk full s (s, none) :=
  StepOk.quiet h rfl

theorem StepOk.lock (h : Inv full s) {ks : List Lock}
    {c : Call} (hc : CallOk full s.db (Locks.acquire s.locks pid ks) pid c) :
    StepOk full s (s.lock pid ks c, none) := by
  refine StepOk.quiet (h.lock hc) ?_
  unfold State.lock
  split <;> rfl

theorem Task.settle_call (t : Task) (outcome : Except Err (Message × Bool)) (full : Prop) (db : Db)
    (locks : Locks.Table Lock) (pid : Nat) : CallOk full db locks pid (t.settle outcome).1 := by
  unfold Task.settle
  cases t.forwarding <;> cases outcome <;> trivial

theorem Task.settle_sent {t t' : Task} {outcome : Except Err (Message × Bool)} {m : Message}
    (h : (t.settle outcome).2 = some (.sent t' m true)) : t' = t ∧ outcome = .ok (m, true) := by
  unfold Task.settle at h
  cases hf : t.forwarding with
  | none =>
      cases outcome with
      | ok o =>
          obtain ⟨m₀, created⟩ := o
          simp only [hf, Option.some.injEq, Returned.sent.injEq] at h
          obtain ⟨rfl, rfl, rfl⟩ := h
          exact ⟨rfl, rfl⟩
      | error e => simp [hf] at h
  | some f => cases outcome <;> simp [hf] at h

/-- The end of a call, or of one target of a forward. -/
theorem StepOk.finish (h : Inv full s) (pid : Nat) (t : Task) {outcome : Except Err (Message × Bool)}
    (ho : ∀ m, outcome = .ok (m, true) → full → Attached t m.id s.db) :
    StepOk full s (s.finish pid (t.settle outcome)) where
  inv := h.leave fun locks => t.settle_call outcome full s.db locks pid
  evolves := Evolves.refl _ _
  consistent hs := hs
  answered t' m ha hf := by
    obtain ⟨rfl, hm⟩ := Task.settle_sent ha
    exact ho m hm hf

theorem StepOk.finish_error (h : Inv full s) (pid : Nat) (t : Task) (e : Err) :
    StepOk full s (s.finish pid (t.settle (.error e))) :=
  StepOk.finish h pid t fun _ he => by cases he

theorem StepOk.finish_existing (h : Inv full s) (pid : Nat) (t : Task) (m : Message) :
    StepOk full s (s.finish pid (t.settle (.ok (m, false)))) :=
  StepOk.finish h pid t fun _ he => by cases he

theorem StepOk.abort (h : Inv full s) (pid : Nat) (t : Task) (e : Err) :
    StepOk full s (s.abort pid t e) := by
  unfold State.abort
  split
  · exact StepOk.quiet (h.leave fun _ => trivial) rfl
  · exact StepOk.finish_error h pid t e

theorem StepOk.enter (h : Inv full s) (pid : Nat) (t : Task) :
    StepOk full s (enter s pid t) := by
  rcases enter_cases s pid t with ⟨_, _, _, he⟩ | ⟨_, ⟨existing, _, he⟩ | ⟨_, he⟩⟩
  · rw [he]
    exact StepOk.finish_error h pid t _
  · rw [he]
    exact StepOk.finish_existing h pid t existing
  · rw [he]
    exact StepOk.quiet (h.set trivial) rfl

theorem StepOk.nextTarget (h : Inv full s) (pid : Nat) (f : Forwarding) :
    StepOk full s (nextTarget s pid f) := by
  unfold Transactions.nextTarget
  split
  · exact ⟨h.set trivial, Evolves.refl _ _, fun hs => hs, fun _ _ ha => by cases ha⟩
  · split
    · split
      · exact StepOk.quiet (h.set trivial) rfl
      · exact StepOk.enter h pid _
    · split
      · exact StepOk.quiet (h.set trivial) rfl
      · exact StepOk.enter h pid _

end Birgap.Messaging.Transactions
