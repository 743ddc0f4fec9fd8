import Birgap.Messaging.Races
import Birgap.Messaging.Locked

/-!
# Two messages to one group at once

A group transaction takes the number after the greatest one committed, holds no lock until
its insert, and nothing tries again when the unique index refuses the number. A message of
the other request that commits in between takes the number away. `Phase` follows both
requests through any schedule and knows of each whether it will end with an error.
-/
namespace Birgap.Messaging.Transactions.Races.GroupSends

set_option autoImplicit false

open Birgap.Lib Birgap.Lib.Run Birgap.Lib.Tx Birgap.Messages Birgap.Groups

/-! ## The store after the other's commit -/

/-- A group message has no envelopes yet. -/
theorem new_envelopes {x : Side} {g : GroupTask} (ht : x.task = .group g) (n : Numbered)
    (replyTo : Option Id) : (x.new n replyTo).envelopes = [] := by
  unfold Side.new
  rw [ht]
  rfl

theorem numbers_group {x : Side} {g : GroupTask} (hg : x.task = .group g) {db : Db}
    {ids : List Id} {n : Numbered} (h : Numbers x.ctx db ids n x.task) :
    n.sequence = nextSequence g.request.groupId db := by
  rw [hg] at h
  rw [show n = _ from h]

theorem locks_group {x : Side} {g : GroupTask} (hg : x.task = .group g) (n : Numbered)
    (replyTo : Option Id) :
    (x.new n replyTo).locks =
      [.messageId x.ctx.messageId, .messageKey x.task.senderDeviceId x.task.idempotencyKey,
        .groupSequence g.request.groupId n.sequence] := by
  have hrow := new_row x n replyTo
  obtain ⟨hthread, hgroup⟩ := hrow.group g hg
  unfold NewMessage.locks
  rw [hrow.id, (Prod.mk.inj hrow.key).1, (Prod.mk.inj hrow.key).2, hrow.sequence, hthread, hgroup,
    new_envelopes hg]
  rfl

/-- Two requests with keys, attachments and drawn ids of their own. -/
structure Apart (x y : Side) : Prop where
  keys : (x.task.senderDeviceId, x.task.idempotencyKey) ≠
    (y.task.senderDeviceId, y.task.idempotencyKey)
  attachments : ∀ id ∈ x.task.mediaIds, id ∉ y.task.mediaIds
  messageIds : x.ctx.messageId ≠ y.ctx.messageId
  mediaIds : ∀ i j, x.ctx.mediaId i ≠ y.ctx.mediaId j

theorem Apart.symm {x y : Side} (h : Apart x y) : Apart y x :=
  ⟨h.keys.symm, fun id hy hx => h.attachments id hx hy, h.messageIds.symm,
    fun i j => (h.mediaIds j i).symm⟩

section Commit

variable {x y : Side} {db : Db} {g : GroupTask} {n : Numbered} {replyTo : Option Id}
  {w : MediaWrites}

theorem findByKey_commit (hapart : Apart x y) :
    findByKey x.task.senderDeviceId x.task.idempotencyKey
        (commitWrites n (y.new n replyTo) w db) =
      findByKey x.task.senderDeviceId x.task.idempotencyKey db := by
  have hother : ¬ ((y.new n replyTo).message.senderDeviceId = x.task.senderDeviceId ∧
      (y.new n replyTo).message.idempotencyKey = x.task.idempotencyKey) := by
    rintro ⟨hd, hk⟩
    exact hapart.keys ((Prod.ext hd hk).symm.trans (new_row y n replyTo).key)
  have hmiss : [(y.new n replyTo).message].find? (fun m =>
      m.senderDeviceId == x.task.senderDeviceId && m.idempotencyKey == x.task.idempotencyKey) =
        none := by
    rw [List.find?_eq_none]
    intro m hm
    rw [List.mem_singleton.mp hm]
    simpa using hother
  unfold findByKey
  show (db.messages ++ [(y.new n replyTo).message]).find? _ = _
  rw [List.find?_append, hmiss, Option.or_none]

/-- Attachments that pass their check are rows of the store. -/
theorem owned_rows {maxAttachments : Nat} {userId : Id} {ids : List Id}
    (hmedia : Rows.Unique (·.id) db.messageMedia)
    (h : assertAttachmentsOwned maxAttachments userId ids db = .ok ()) :
    ∀ id ∈ ids, ∃ r ∈ db.messageMedia, r.id = id := by
  intro id hid
  obtain ⟨r, hr, hrid, _⟩ := assertAttachmentsOwned_ok hmedia h id hid
  exact ⟨r, hr, hrid⟩

/-- The rows a request names are neither bound nor cloned by the other. -/
theorem filter_commit (hapart : Apart x y) (hmedia : Rows.Unique (·.id) db.messageMedia)
    (howned : ∀ id ∈ x.task.mediaIds, ∃ r ∈ db.messageMedia, r.id = id) {messageId : Id}
    (hwrites : y.task.mediaWrites y.ctx messageId db = .ok w) :
    (w.write messageId db.messageMedia).filter (fun m => x.task.mediaIds.contains m.id) =
      db.messageMedia.filter fun m => x.task.mediaIds.contains m.id := by
  obtain ⟨hbound, _, hunique⟩ := mediaWrites_ok hwrites
  obtain ⟨_, _, hfresh⟩ := Rows.unique_append_iff.mp (hunique hmedia)
  have hclones : w.clones.filter (fun m => x.task.mediaIds.contains m.id) = [] := by
    rw [List.filter_eq_nil_iff]
    intro c hc hin
    obtain ⟨r, hr, hid⟩ := howned c.id (by simpa using hin)
    exact hfresh r hr c hc hid
  have hkept := Rows.filter_updateMany (p := fun m : MessageMedia => w.bound.contains m.id)
    (q := fun m => x.task.mediaIds.contains m.id)
    (f := fun m => { m with messageId := some messageId }) (fun _ => rfl) db.messageMedia
  unfold MediaWrites.write
  rw [List.filter_append, hclones, List.append_nil, hkept]
  apply Rows.updateMany_eq_self
  intro r hr
  have hmine : r.id ∈ x.task.mediaIds := by simpa using (List.mem_filter.mp hr).2
  apply Bool.eq_false_iff.mpr
  intro hb
  have hmem : r.id ∈ w.bound := by simpa using hb
  rw [hbound] at hmem
  obtain ⟨r', hr', hid⟩ := List.mem_map.mp hmem
  have hbindable := (List.mem_filter.mp hr').2
  simp only [bindable, Bool.and_eq_true, List.contains_eq_mem, decide_eq_true_eq] at hbindable
  exact hapart.attachments r.id hmine (hid ▸ hbindable.1.1)

/-- The attachment statement fails on the ids of its clones alone. -/
theorem mediaWrites_iff {ctx : Ctx} {t : Task} {messageId : Id} :
    (∃ w, t.mediaWrites ctx messageId db = .ok w) ↔
      ∃ rows, Rows.insertAll (fun a b => a.id == b.id)
        (forwardClones ctx t.senderUserId messageId t.sourceMedia) db.messageMedia = some rows := by
  unfold Task.mediaWrites
  constructor
  · rintro ⟨w, h⟩
    simp only at h
    split at h
    · cases h
    · rename_i rows hrows
      exact ⟨rows, hrows⟩
  · rintro ⟨rows, hrows⟩
    simp only [hrows]
    exact ⟨_, rfl⟩

theorem mem_forwardClones_id {ctx : Ctx} {userId messageId : Id} {source : List MessageMedia}
    {c : MessageMedia} (h : c ∈ forwardClones ctx userId messageId source) :
    ∃ i, c.id = ctx.mediaId i := by
  obtain ⟨⟨m, i⟩, _, rfl⟩ := List.mem_map.mp h
  exact ⟨i, rfl⟩

/-- The clones of the one have other ids than those of the other. -/
theorem mediaWrites_commit (n : Numbered) (new : NewMessage) (hapart : Apart x y)
    {messageId newId : Id}
    (hwrites : y.task.mediaWrites y.ctx newId db = .ok w)
    (h : ∃ w', x.task.mediaWrites x.ctx messageId db = .ok w') :
    ∃ w', x.task.mediaWrites x.ctx messageId (commitWrites n new w db) = .ok w' := by
  obtain ⟨hfresh, hpair⟩ := Rows.insertAll_some_iff.mp (mediaWrites_iff.mp h)
  refine mediaWrites_iff.mpr (Rows.insertAll_some_iff.mpr ⟨?_, hpair⟩)
  intro c hc r hr
  rcases List.mem_append.mp hr with hr | hr
  · obtain ⟨r₀, hr₀, hr⟩ := Rows.mem_updateMany.mp hr
    have hid : r.id = r₀.id := by
      rw [hr]
      split <;> rfl
    rw [hid]
    exact hfresh c hc r₀ hr₀
  · rw [(mediaWrites_ok hwrites).2.1] at hr
    obtain ⟨i, hi⟩ := mem_forwardClones_id hc
    obtain ⟨j, hj⟩ := mem_forwardClones_id hr
    rw [hi, hj]
    exact beq_eq_false_iff_ne.mpr (hapart.mediaIds i j)

/-- The insert of the one meets neither the message nor the number of the other. -/
theorem inserts_commit (hx : x.task = .group g) (hapart : Apart x y) {m n' : Numbered}
    {replyTo' : Option Id} (h : Inserts x db m replyTo')
    (hn' : Numbers x.ctx (commitWrites n (y.new n replyTo) w db) [] n' x.task) :
    Inserts x (commitWrites n (y.new n replyTo) w db) n' replyTo' := by
  have hrow := new_row x n' replyTo'
  have hrow₀ := new_row x m replyTo'
  have hother := new_row y n replyTo
  obtain ⟨hthread, hgroup⟩ := hrow.group g hx
  obtain ⟨hclash, hdevice, _⟩ := createMessage_iff.mp h
  refine createMessage_iff.mpr ⟨?_, ?_, ?_⟩
  · intro r hr
    have hkeys : (x.new n' replyTo').message.id ≠ r.id ∧
        ((x.new n' replyTo').message.senderDeviceId, (x.new n' replyTo').message.idempotencyKey) ≠
          (r.senderDeviceId, r.idempotencyKey) := by
      rw [hrow.id, hrow.key]
      rcases List.mem_append.mp hr with hr | hr
      · obtain ⟨hid, hkey, _⟩ := messageClash_false.mp (hclash r hr)
        rw [hrow₀.id] at hid
        rw [hrow₀.key] at hkey
        exact ⟨hid, hkey⟩
      · rw [List.mem_singleton.mp hr, hother.id, hother.key]
        exact ⟨hapart.messageIds, hapart.keys⟩
    refine messageClash_false.mpr ⟨hkeys.1, hkeys.2, ?_, ?_⟩
    · intro id hid
      cases hthread.symm.trans hid
    · intro id hid hrid
      obtain rfl := Option.some.inj (hgroup.symm.trans hid)
      have hlt := lt_nextSequence hr hrid
      rw [hx] at hn'
      rw [hrow.sequence, show n' = _ from hn']
      exact Nat.ne_of_gt hlt
  · rw [(Prod.mk.inj hrow.key).1, ← (Prod.mk.inj hrow₀.key).1]
    exact hdevice
  · rw [new_envelopes hx]
    exact ⟨_, rfl⟩

/-- What passes its checks alone also passes them after the other's commit. -/
theorem passes_commit (hx : x.task = .group g) (hapart : Apart x y)
    (hmedia : Rows.Unique (·.id) db.messageMedia)
    (hwrites : y.task.mediaWrites y.ctx (y.new n replyTo).message.id db = .ok w)
    (h : Passes x db) : Passes x (commitWrites n (y.new n replyTo) w db) := by
  obtain ⟨ids, m, replyTo', w', hreads, hinserts, hw'⟩ := h
  have hnumbers : Numbers x.ctx (commitWrites n (y.new n replyTo) w db) []
      { sequence := nextSequence g.request.groupId (commitWrites n (y.new n replyTo) w db) }
        x.task := by
    rw [hx]
    rfl
  have hroutes : Routes (commitWrites n (y.new n replyTo) w db) [] x.task := by
    rw [hx]
    rfl
  have hopens : Opens x.task (commitWrites n (y.new n replyTo) w db) :=
    ⟨(findByKey_commit hapart).trans hreads.opens.1, hreads.opens.2⟩
  have howned : assertAttachmentsOwned x.ctx.maxAttachments x.task.senderUserId x.task.mediaIds
      (commitWrites n (y.new n replyTo) w db) = .ok () := by
    have hsame := filter_commit hapart hmedia (owned_rows hmedia hreads.owned) hwrites
    have howned := hreads.owned
    unfold assertAttachmentsOwned at howned ⊢
    show (if _ then _ else if _ then _ else if _ then _ else _) = _
    dsimp only [commitWrites] at howned ⊢
    rw [hsame]
    exact howned
  have hinserts' := inserts_commit hx hapart hinserts hnumbers
  obtain ⟨w'', hw''⟩ := mediaWrites_commit n (y.new n replyTo) hapart hwrites
    ⟨w', hw'⟩
  refine ⟨[], _, replyTo', w'', ⟨hopens, hroutes, hnumbers, ?_, howned⟩, hinserts', ?_⟩
  · refine reply_commit ?_ hreads.reply
    have hm := hreads.numbers
    rw [hx] at hm
    rw [show m = _ from hm]
  · rw [(new_row x _ replyTo').id, ← (new_row x m replyTo').id]
    exact hw''

/-- Nobody else holds, in the table, a lock that the request will ask for on this store. -/
structure Unlocked (table : Locks.Table Lock) (x : Side) (db : Db) : Prop where
  insert : ∀ n replyTo, (∀ g, x.task = .group g → n.sequence = nextSequence g.request.groupId db) →
    ∀ l ∈ (x.new n replyTo).locks, ∀ q, q ≠ x.pid → (l, q) ∉ table
  attach : ∀ w, x.task.mediaWrites x.ctx x.ctx.messageId db = .ok w →
    ∀ l ∈ w.locks, ∀ q, q ≠ x.pid → (l, q) ∉ table

/-- The request passes its checks, and the locks it will ask for are free in the table. -/
structure Clears (table : Locks.Table Lock) (x : Side) (db : Db) : Prop where
  passes : Passes x db
  unlocked : Unlocked table x db

/-- The attachment statement asks for the same locks after the other's commit. -/
theorem mediaLocks_commit (hapart : Apart x y) (hmedia : Rows.Unique (·.id) db.messageMedia)
    {maxAttachments : Nat}
    (howned : assertAttachmentsOwned maxAttachments x.task.senderUserId x.task.mediaIds db = .ok ())
    {messageId : Id} {w' w'' : MediaWrites}
    (hwrites : y.task.mediaWrites y.ctx (y.new n replyTo).message.id db = .ok w)
    (h : x.task.mediaWrites x.ctx messageId db = .ok w')
    (h' : x.task.mediaWrites x.ctx messageId (commitWrites n (y.new n replyTo) w db) = .ok w'') :
    w''.locks = w'.locks := by
  have hsame := filter_commit hapart hmedia (owned_rows hmedia howned) hwrites
  have hbindable : ∀ rows : List MessageMedia,
      rows.filter (bindable x.task.senderUserId x.task.mediaIds) =
        (rows.filter fun m => x.task.mediaIds.contains m.id).filter
          (bindable x.task.senderUserId x.task.mediaIds) := by
    intro rows
    rw [List.filter_filter]
    apply List.filter_congr
    intro m _
    simp only [bindable]
    cases x.task.mediaIds.contains m.id <;> simp
  obtain ⟨hbound, hclones, _⟩ := mediaWrites_ok h
  obtain ⟨hbound', hclones', _⟩ := mediaWrites_ok h'
  have hrows' : (commitWrites n (y.new n replyTo) w db).messageMedia.filter
      (bindable x.task.senderUserId x.task.mediaIds) =
        db.messageMedia.filter (bindable x.task.senderUserId x.task.mediaIds) := by
    rw [hbindable, hbindable db.messageMedia, ← hsame]
    rfl
  unfold MediaWrites.locks
  rw [hbound', hclones', hbound, hclones, hrows']

/-- A later number is free as well, for no call is ahead of the numbers. -/
theorem Unlocked.commit {table : Locks.Table Lock} (hx : x.task = .group g) {g' : GroupTask}
    (hy : y.task = .group g') (hgroup : g'.request.groupId = g.request.groupId)
    (hapart : Apart x y) (hmedia : Rows.Unique (·.id) db.messageMedia)
    {ids : List Id} (hnumbers : Numbers y.ctx db ids n y.task)
    (hwrites : y.task.mediaWrites y.ctx (y.new n replyTo).message.id db = .ok w)
    (hbelow : ∀ k q, (.groupSequence g.request.groupId k, q) ∈ table →
      k ≤ nextSequence g.request.groupId db)
    (hpasses : Passes x db) (h : Unlocked table x db) :
    Unlocked table x (commitWrites n (y.new n replyTo) w db) := by
  constructor
  · intro n' replyTo' hn' l hl q hq hheld
    rw [locks_group hx, List.mem_cons, List.mem_cons, List.mem_singleton] at hl
    have hbefore : ∀ l, l = .messageId x.ctx.messageId ∨
        l = .messageKey x.task.senderDeviceId x.task.idempotencyKey → (l, q) ∉ table := by
      intro l hl
      refine h.insert { sequence := nextSequence g.request.groupId db } none ?_ l ?_ q hq
      · intro g₀ hg₀
        obtain rfl := Task.group.inj (hx.symm.trans hg₀)
        rfl
      · rw [locks_group hx, List.mem_cons, List.mem_cons]
        exact hl.imp_right Or.inl
    rcases hl with hl | hl | hl
    · exact hbefore l (Or.inl hl) hheld
    · exact hbefore l (Or.inr hl) hheld
    · rw [hl, hn' g hx] at hheld
      have hrow := new_row y n replyTo
      have hmem : (y.new n replyTo).message ∈ (commitWrites n (y.new n replyTo) w db).messages :=
        List.mem_append_right _ List.mem_cons_self
      have hlt := lt_nextSequence hmem ((hrow.group g' hy).2.trans (congrArg some hgroup))
      rw [hrow.sequence, numbers_group hy hnumbers, hgroup] at hlt
      have hle := hbelow _ q hheld
      omega
  · intro w'' hw'' l hl
    obtain ⟨_, m, replyTo', w', hreads, _, hw'⟩ := hpasses
    rw [(new_row x m replyTo').id] at hw'
    rw [mediaLocks_commit hapart hmedia hreads.owned hwrites hw' hw''] at hl
    exact h.attach w' hw' l hl

theorem Clears.commit {table : Locks.Table Lock} (hx : x.task = .group g) {g' : GroupTask}
    (hy : y.task = .group g') (hgroup : g'.request.groupId = g.request.groupId)
    (hapart : Apart x y) (hmedia : Rows.Unique (·.id) db.messageMedia)
    {ids : List Id} (hnumbers : Numbers y.ctx db ids n y.task)
    (hwrites : y.task.mediaWrites y.ctx (y.new n replyTo).message.id db = .ok w)
    (hbelow : ∀ k q, (.groupSequence g.request.groupId k, q) ∈ table →
      k ≤ nextSequence g.request.groupId db)
    (h : Clears table x db) : Clears table x (commitWrites n (y.new n replyTo) w db) :=
  ⟨passes_commit hx hapart hmedia hwrites h.passes,
    h.unlocked.commit hx hy hgroup hapart hmedia hnumbers hwrites hbelow h.passes⟩

end Commit

/-! ## Where each request stands -/

/-- A message of the request to this group. -/
def ToGroup (groupId : Id) (x : Side) : Prop := ∃ g, x.task = .group g ∧ g.request.groupId = groupId

/-- An earlier request has stored the message of the key. -/
def Replays (x : Side) (db : Db) : Prop :=
  Admitted x.task db ∧ ∃ m, findByKey x.task.senderDeviceId x.task.idempotencyKey db = some m

/-- The number of a transaction that has read it and has not inserted its message. -/
def pendingNumber : Call → Option Nat
  | .numbered _ n => some n.sequence
  | .replied _ n _ => some n.sequence
  | .owned _ n _ => some n.sequence
  | _ => none

/-- A message of the group has the number. -/
def Used (groupId : Id) (n : Numbered) (db : Db) : Prop :=
  ∃ m ∈ db.messages, m.groupId = some groupId ∧ m.threadSequence = n.sequence

/-- A transaction whose number has been taken since it was read. -/
inductive Overtaken (groupId : Id) (x : Side) (db : Db) : Call → Prop where
  | numbered {n : Numbered} (h : Used groupId n db) : Overtaken groupId x db (.numbered x.task n)
  | replied {n : Numbered} {replyTo : Option Id} (h : Used groupId n db) :
      Overtaken groupId x db (.replied x.task n replyTo)
  | owned {n : Numbered} {replyTo : Option Id} (h : Used groupId n db) :
      Overtaken groupId x db (.owned x.task n replyTo)

/-- Where a request stands, and whether it will end with an error. The table has the locks
from before the two requests. -/
inductive Phase (groupId : Id) (table : Locks.Table Lock) (x : Side) (s : State) :
    Stage → Bool → Prop where
  | waiting (hready : Ready (s.calls x.pid) x.task)
      (hend : Clears table x s.db ∨ Replays x s.db) : Phase groupId table x s .waiting false
  | opened (hclears : Clears table x s.db) (hnow : Established x s.db (s.calls x.pid))
      (hholds : Holds x s.locks (s.calls x.pid)) : Phase groupId table x s .running false
  | overtaken (hnow : Overtaken groupId x s.db (s.calls x.pid)) :
      Phase groupId table x s .running true
  | committed {m : Message} {created : Bool}
      (hcall : s.calls x.pid = .enqueueing x.task m created) : Phase groupId table x s .running false
  | succeeded (id : Id) : Phase groupId table x s (.ended (.succeeded id)) false
  | failed : Phase groupId table x s (.ended .failed) true

/-- No commit comes between the other's number and its insert. -/
def CommitsAlone (x : Bool → Side) (r : Race) (b : Bool) : Prop :=
  Commits x r b → r.stage (!b) = .running → pendingNumber (r.state.calls (x !b).pid) = none

section Turn

variable {x : Bool → Side} {r : Race} {b d : Bool} {groupId : Id} {table : Locks.Table Lock}

/-- A turn of the other that leaves the store alone. -/
theorem Phase.frame {y : Side} {q : Nat} {s s' : State} {stage : Stage}
    (h : Phase groupId table y s stage d) (hq : y.pid ≠ q) (hsteps : Steps q s s')
    (hdb : s'.db = s.db) : Phase groupId table y s' stage d := by
  have hcall := hsteps.calls y.pid hq
  cases h with
  | waiting hready hend => exact .waiting (by rwa [hcall]) (by rwa [hdb])
  | opened hclears hnow hholds =>
      refine .opened (by rwa [hdb]) (by rwa [hdb, hcall]) ?_
      rw [hcall]
      exact hholds.mono fun l hl => (hsteps.locks l y.pid hq).mpr hl
  | overtaken hnow => exact .overtaken (by rwa [hdb, hcall])
  | committed hc => exact .committed (hcall.trans hc)
  | succeeded id => exact .succeeded id
  | failed => exact .failed

/-- An overtaken transaction goes on to its insert, which is refused. -/
theorem overtaken_turn (hgroup : ToGroup groupId (x b)) (htarget : HasTarget (x b).task)
    (hstage : r.stage b = .running)
    (h : Overtaken groupId (x b) r.state.db (r.state.calls (x b).pid)) :
    (step x r b).state.db = r.state.db ∧
    (((step x r b).stage b = .running ∧
        Overtaken groupId (x b) r.state.db ((step x r b).state.calls (x b).pid) ∧
        statementsLeft ((step x r b).state.calls (x b).pid) <
          statementsLeft (r.state.calls (x b).pid)) ∨
      (step x r b).stage b = .ended .failed) := by
  obtain ⟨g, hg, rfl⟩ := hgroup
  have hset : ∀ c before, Overtaken g.request.groupId (x b) r.state.db c →
      statementsLeft c < statementsLeft before →
      let o : State × Option Returned := (r.state.set (x b).pid c, none)
      (r.after b (x b) o).stage b = .running ∧
        Overtaken g.request.groupId (x b) r.state.db ((r.after b (x b) o).state.calls (x b).pid) ∧
        statementsLeft ((r.after b (x b) o).state.calls (x b).pid) < statementsLeft before := by
    intro c before hc hless
    obtain ⟨hrun, hself⟩ := after_moved (r := r) (b := b) (set_self r.state (x b).pid c)
      (by cases hc <;> trivial)
    refine ⟨hrun, ?_⟩
    rw [hself]
    exact ⟨hc, hless⟩
  have hfail : ∀ e, (r.after b (x b) (r.state.abort (x b).pid (x b).task e)).stage b =
      .ended .failed := by
    intro e
    rw [abort_group hg, after_finish htarget]
  rw [step_running hstage]
  generalize hcall : r.state.calls (x b).pid = c at h
  cases h with
  | numbered hused =>
      simp only [Side.next, exec, hcall]
      split
      · exact ⟨rfl, Or.inl (hset _ _ (.replied hused) (by simp [statementsLeft]))⟩
      · rename_i e _
        exact ⟨by rw [abort_group hg]; rfl, Or.inr (hfail e)⟩
  | replied hused =>
      simp only [Side.next, exec, hcall]
      split
      · exact ⟨rfl, Or.inl (hset _ _ (.owned hused) (by simp [statementsLeft]))⟩
      · rename_i e _
        exact ⟨by rw [abort_group hg]; rfl, Or.inr (hfail e)⟩
  | @owned n replyTo hused =>
      simp only [Side.next, exec, hcall]
      split
      · rename_i db' hcreate
        obtain ⟨m, hm, hgroup, hsequence⟩ := hused
        have hrow := new_row (x b) n replyTo
        have hclash := messageClash_false.mp ((createMessage_ok hcreate).1 m hm)
        exact absurd (hrow.sequence.trans hsequence.symm)
          (hclash.2.2.2 _ (hrow.group g hg).2 hgroup)
      · rename_i e _
        exact ⟨by rw [abort_group hg]; rfl, Or.inr (hfail e)⟩

/-- A turn that does not commit keeps the store and what is known of the request. -/
theorem phase_turn (hgroup : ToGroup groupId (x b)) (htarget : HasTarget (x b).task)
    (h : Phase groupId table (x b) r.state (r.stage b) d) (hopen : ¬ Commits x r b) :
    (step x r b).state.db = r.state.db ∧
      Phase groupId table (x b) (step x r b).state ((step x r b).stage b) d := by
  generalize hstage : r.stage b = stage at h
  cases h with
  | waiting hready hend =>
      obtain ⟨hdb, hnext⟩ := step_waiting hstage hready
      refine ⟨hdb, ?_⟩
      rcases hnext with ⟨hopens, hrun, hcall⟩ | ⟨_, m, _, hrun⟩ | ⟨hout, _⟩
      · rw [hrun]
        rcases hend with hclears | ⟨_, m, hm⟩
        · refine .opened (by rwa [hdb]) ?_ ?_
          · rw [hcall, hdb]
            exact .entered hopens
          · rw [hcall]
            trivial
        · cases hm.symm.trans hopens.1
      · rw [hrun]
        exact .succeeded m.id
      · refine absurd ?_ hout
        rcases hend with ⟨⟨_, _, _, _, hreads, _⟩, _⟩ | hreplays
        · exact hreads.opens.2
        · exact hreplays.1
  | opened hclears hnow hholds =>
      obtain ⟨hdb, hnext⟩ := step_open hstage htarget hnow hholds hopen
      rcases hnext with ⟨hrun, hnow', hholds'⟩ | ⟨hno, _⟩
      · rw [hrun]
        exact ⟨hdb, .opened (by rwa [hdb]) (by rwa [hdb]) hholds'⟩
      · exact absurd hclears.passes hno
  | overtaken hnow =>
      obtain ⟨hdb, hnext⟩ := overtaken_turn hgroup htarget hstage hnow
      refine ⟨hdb, ?_⟩
      rcases hnext with ⟨hrun, hnow', _⟩ | hrun
      · rw [hrun]
        exact .overtaken (by rwa [hdb])
      · rw [hrun]
        exact .failed
  | committed hcall =>
      obtain ⟨hdb, hrun⟩ := step_enqueue hstage htarget hcall
      rw [hrun]
      exact ⟨hdb, .succeeded _⟩
  | succeeded id =>
      rw [step_ended hstage, hstage]
      exact ⟨rfl, .succeeded id⟩
  | failed =>
      rw [step_ended hstage, hstage]
      exact ⟨rfl, .failed⟩

end Turn

section Commit

variable {y z : Side} {groupId : Id} {s s' : State} {n : Numbered} {new : NewMessage}
  {w : MediaWrites} {table : Locks.Table Lock}

/-- Two group inserts with one number do not stand side by side. -/
theorem one_insert (hy : ToGroup groupId y) (hz : ToGroup groupId z) (hpid : y.pid ≠ z.pid)
    (hexclusive : Locks.Exclusive s.locks) {ids ids' : List Id} {n' : Numbered}
    {replyTo replyTo' : Option Id} (hn : Numbers y.ctx s.db ids n y.task)
    (hn' : Numbers z.ctx s.db ids' n' z.task)
    (hheld : ∀ l ∈ (y.new n replyTo).locks, (l, y.pid) ∈ s.locks)
    (hheld' : ∀ l ∈ (z.new n' replyTo').locks, (l, z.pid) ∈ s.locks) : False := by
  obtain ⟨g, hg, rfl⟩ := hy
  obtain ⟨g', hg', hsame⟩ := hz
  have hl := hheld (.groupSequence g.request.groupId n.sequence) (by simp [locks_group hg])
  have hl' := hheld' (.groupSequence g'.request.groupId n'.sequence) (by simp [locks_group hg'])
  rw [numbers_group hg hn] at hl
  rw [numbers_group hg' hn', hsame] at hl'
  exact hpid (hexclusive _ _ _ hl hl')

theorem Overtaken.commit {db : Db} {c : Call} (h : Overtaken groupId y db c) :
    Overtaken groupId y (commitWrites n new w db) c := by
  have hused : ∀ {n'}, Used groupId n' db → Used groupId n' (commitWrites n new w db) := by
    rintro n' ⟨m, hm, hfound⟩
    exact ⟨m, List.mem_append_left _ hm, hfound⟩
  cases h with
  | numbered h => exact .numbered (hused h)
  | replied h => exact .replied (hused h)
  | owned h => exact .owned (hused h)

/-- The other's commit: who stands between number and insert is overtaken, nobody else is. -/
theorem Phase.commit (hy : ToGroup groupId y) (hz : ToGroup groupId z) (hapart : Apart y z)
    (hpid : y.pid ≠ z.pid) (hinv : Inv False s) (hsteps : Steps z.pid s s')
    (hnow : Established z s.db (.attached z.task n new w))
    (hholds : Holds z s.locks (.attached z.task n new w))
    (hdb : s'.db = commitWrites n new w s.db)
    (hbelow : ∀ k q, (.groupSequence groupId k, q) ∈ table → k ≤ nextSequence groupId s.db)
    {stage : Stage} {d : Bool} (h : Phase groupId table y s stage d) :
    ∃ d', Phase groupId table y s' stage d' ∧
      (d' = false ↔ d = false ∧ (stage = .running → pendingNumber (s.calls y.pid) = none)) := by
  obtain ⟨g, hg, hgroup⟩ := id hy
  obtain ⟨g', hg', hgroup'⟩ := id hz
  have hcall := hsteps.calls y.pid hpid
  obtain ⟨ids, replyTo, rfl, hreads, _, hwrites⟩ := hnow.writes
  have hclears' : Clears table y s.db → Clears table y s'.db := by
    intro hclears
    rw [hdb]
    refine hclears.commit hg hg' (hgroup'.trans hgroup.symm) hapart hinv.mediaIds hreads.numbers
      hwrites ?_
    rw [hgroup]
    exact hbelow
  have hrow := new_row z n replyTo
  have hused : ∀ {ids' n'}, Numbers y.ctx s.db ids' n' y.task → Used groupId n' s'.db := by
    intro ids' n' hn'
    rw [hdb]
    refine ⟨_, List.mem_append_right _ List.mem_cons_self, ?_, ?_⟩
    · rw [(hrow.group g' hg').2, hgroup']
    · rw [hrow.sequence, numbers_group hg' hreads.numbers, numbers_group hg hn', hgroup, hgroup']
  cases h with
  | waiting hready hend =>
      refine ⟨false, .waiting (by rwa [hcall]) ?_, by simp⟩
      rcases hend with hclears | ⟨hmember, m, hm⟩
      · exact Or.inl (hclears' hclears)
      · refine Or.inr ⟨?_, m, ?_⟩
        · rw [hdb]
          exact hmember
        · rw [hdb, findByKey_commit hapart, hm]
  | opened hclears hnow' hholds' =>
      have hopens : Opens y.task s'.db := by
        obtain ⟨_, _, _, _, hreads', _⟩ := (hclears' hclears).passes
        exact hreads'.opens
      generalize hc : s.calls y.pid = c at hnow' hholds'
      rw [hc] at hcall
      cases hnow' with
      | entered _ =>
          refine ⟨false, .opened (hclears' hclears) ?_ ?_, by simp [pendingNumber]⟩
          · rw [hcall]
            exact .entered hopens
          · rw [hcall]
            trivial
      | checked _ hroutes =>
          refine ⟨false, .opened (hclears' hclears) ?_ ?_, by simp [pendingNumber]⟩
          · rw [hcall]
            refine .checked hopens ?_
            rw [hg] at hroutes ⊢
            exact hroutes
          · rw [hcall]
            trivial
      | numbered _ _ hnumbers =>
          refine ⟨true, .overtaken ?_, by simp [pendingNumber]⟩
          rw [hcall]
          exact .numbered (hused hnumbers)
      | replied _ _ hnumbers _ =>
          refine ⟨true, .overtaken ?_, by simp [pendingNumber]⟩
          rw [hcall]
          exact .replied (hused hnumbers)
      | owned hreads' =>
          refine ⟨true, .overtaken ?_, by simp [pendingNumber]⟩
          rw [hcall]
          exact .owned (hused hreads'.numbers)
      | inserted hreads' _ =>
          exact (one_insert hy hz hpid hinv.exclusive hreads'.numbers hreads.numbers hholds'.2
            hholds.2).elim
      | attached hreads' _ _ =>
          exact (one_insert hy hz hpid hinv.exclusive hreads'.numbers hreads.numbers hholds'.2
            hholds.2).elim
  | overtaken hnow' =>
      refine ⟨true, .overtaken ?_, by simp⟩
      rw [hcall, hdb]
      exact hnow'.commit
  | committed hc => exact ⟨false, .committed (hcall.trans hc), by simp [hc, pendingNumber]⟩
  | succeeded id => exact ⟨false, .succeeded id, by simp⟩
  | failed => exact ⟨true, .failed, by simp⟩

end Commit

/-! ## Both requests, along any schedule -/

/-- Two calls with independent messages to one group. -/
structure Independent (x : Bool → Side) (groupId : Id) : Prop where
  pids : (x true).pid ≠ (x false).pid
  toGroup : ∀ b, ToGroup groupId (x b)
  apart : Apart (x true) (x false)

theorem Independent.other {x : Bool → Side} {groupId : Id} (h : Independent x groupId) (b : Bool) :
    Apart (x !b) (x b) ∧ (x !b).pid ≠ (x b).pid := by
  cases b with
  | true => exact ⟨h.apart.symm, h.pids.symm⟩
  | false => exact ⟨h.apart, h.pids⟩

/-- Run from here with nobody else taking a turn, the request succeeds. -/
def SucceedsAlone (x : Bool → Side) (s : State) (b : Bool) : Prop :=
  ∃ turns id, (run (step x) (waiting s) (List.replicate turns b)).stage b = .ended (.succeeded id)

/-- What holds between the turns; `d` says which of the two will fail. Whoever else holds a
lock held it before, and a request that has ended holds none. -/
structure Racing (groupId : Id) (table : Locks.Table Lock) (x : Bool → Side) (r : Race)
    (d : Bool → Bool) : Prop where
  inv : Inv False r.state
  locked : Locked r.state
  target : ∀ b, HasTarget (x b).task
  phase : ∀ b, Phase groupId table (x b) r.state (r.stage b) (d b)
  others : ∀ l q, (∀ b, q ≠ (x b).pid) → (l, q) ∈ r.state.locks → (l, q) ∈ table
  below : ∀ k q, (.groupSequence groupId k, q) ∈ table → k ≤ nextSequence groupId r.state.db
  rest : ∀ b o, r.stage b = .ended o → (r.state.calls (x b).pid).locks = []

variable {x : Bool → Side} {groupId : Id} {table : Locks.Table Lock}

theorem Racing.turn_steps {r : Race} {d : Bool → Bool} (h : Racing groupId table x r d) (b : Bool) :
    Steps (x b).pid r.state (step x r b).state ∧ (step x r b).stage (!b) = r.stage (!b) := by
  refine step_steps ?_
  intro hwaiting
  have hphase := h.phase b
  rw [hwaiting] at hphase
  generalize d b = e at hphase
  cases hphase with
  | waiting hready _ => exact hready

/-- One turn: a commit dooms the other if that stands between number and insert, and
nothing else does. -/
theorem racing_step (hx : Independent x groupId) {r : Race} {d : Bool → Bool}
    (h : Racing groupId table x r d) (b : Bool) : ∃ d', Racing groupId table x (step x r b) d' ∧
      ((∀ c, d' c = false) ↔ (∀ c, d c = false) ∧ CommitsAlone x r b) := by
  obtain ⟨hapart, hpid⟩ := hx.other b
  obtain ⟨hsteps, hstay⟩ := h.turn_steps b
  have hnext : ∀ d', KeepsNumbers r.state.db (step x r b).state.db →
      (∀ c, Phase groupId table (x c) (step x r b).state ((step x r b).stage c) (d' c)) →
      Racing groupId table x (step x r b) d' := by
    intro d' hkept hphase
    refine ⟨inv_turn h.inv b, locked_turn h.locked b, h.target, hphase, ?_, ?_,
      rest_turn hpid hsteps hstay h.rest⟩
    · intro l q hq hl
      exact h.others l q hq ((hsteps.locks l q (hq b)).mp hl)
    · intro k q hl
      exact (h.below k q hl).trans (nextSequence_mono hkept groupId)
  by_cases hc : Commits x r b
  · obtain ⟨hrun, n, new, w, hcall⟩ := id hc
    obtain ⟨hb, hnow, hholds⟩ : d b = false ∧ Established (x b) r.state.db (.attached (x b).task n new w) ∧
        Holds (x b) r.state.locks (.attached (x b).task n new w) := by
      have hphase := h.phase b
      rw [hrun] at hphase
      generalize d b = e at hphase ⊢
      cases hphase with
      | opened _ hnow hholds =>
          rw [hcall] at hnow hholds
          exact ⟨rfl, hnow, hholds⟩
      | overtaken hnow =>
          rw [hcall] at hnow
          cases hnow
      | committed hcall' => cases hcall.symm.trans hcall'
    obtain ⟨hdb, hafter⟩ := step_commit hrun (h.target b) hcall
    obtain ⟨e, hother, he⟩ := (h.phase (!b)).commit (hx.toGroup _) (hx.toGroup _) hapart hpid h.inv
      hsteps hnow hholds hdb h.below
    refine ⟨Function.update d (!b) e, hnext _ ?_ ?_, ?_⟩
    · rw [hdb]
      exact keepsNumbers_commit n new w r.state.db
    · rw [Bool.forall_bool' b]
      rw [Function.update_of_ne (by cases b <;> decide), Function.update_self, hb, hstay]
      refine ⟨?_, hother⟩
      rcases hafter with hended | ⟨_, hrun', hcall'⟩
      · rw [hended]
        exact .succeeded _
      · rw [hrun']
        exact .committed hcall'
    · rw [Bool.forall_bool' b, Bool.forall_bool' b]
      rw [Function.update_of_ne (by cases b <;> decide), Function.update_self, he, and_assoc]
      exact and_congr_right fun _ => and_congr_right fun _ =>
        ⟨fun hnone _ => hnone, fun halone => halone hc⟩
  · obtain ⟨hdb, hself⟩ := phase_turn (hx.toGroup b) (h.target b) (h.phase b) hc
    refine ⟨d, hnext d (keepsNumbers_of_eq (congrArg Db.messages hdb)) ?_, ?_⟩
    · rw [Bool.forall_bool' b]
      refine ⟨hself, ?_⟩
      rw [hstay]
      exact (h.phase (!b)).frame hpid hsteps hdb
    · exact ⟨fun hd => ⟨hd, fun hcommits => absurd hcommits hc⟩, fun hd => hd.1⟩

theorem racing_run (hx : Independent x groupId) (schedule : List Bool) :
    ∀ {r : Race} {d : Bool → Bool}, Racing groupId table x r d →
      ∃ d', Racing groupId table x (run (step x) r schedule) d' ∧
        ((∀ c, d' c = false) ↔
          (∀ c, d c = false) ∧ Along (step x) (CommitsAlone x) r schedule) := by
  induction schedule with
  | nil =>
      intro r d h
      exact ⟨d, h, fun hd => ⟨hd, along_nil _ _ _⟩, fun hd => hd.1⟩
  | cons b schedule ih =>
      intro r d h
      obtain ⟨d₁, h₁, hd₁⟩ := racing_step hx h b
      obtain ⟨d₂, h₂, hd₂⟩ := ih h₁
      refine ⟨d₂, h₂, ?_⟩
      rw [hd₂, hd₁, along_cons, and_assoc]

/-- A transaction that has come to its commit holds every lock it has asked for, so nobody
else held one of them. -/
theorem clears_of_attached {y : Side} {s : State} {n : Numbered} {new : NewMessage}
    {w : MediaWrites} (hgroup : ToGroup groupId y) (hinv : Inv False s)
    (hkept : ∀ l q, q ≠ y.pid → (l, q) ∈ table → (l, q) ∈ s.locks)
    (hcall : s.calls y.pid = .attached y.task n new w)
    (hnow : Established y s.db (.attached y.task n new w))
    (hholds : Holds y s.locks (.attached y.task n new w)) : Clears table y s.db := by
  obtain ⟨g, hg, _⟩ := hgroup
  obtain ⟨ids, replyTo, rfl, hreads, hinserts, hwrites⟩ := hnow.writes
  have hattaches := hinv.calls y.pid
  rw [hcall] at hattaches
  obtain ⟨_, hattaches, _⟩ := hattaches
  have hfree : ∀ l, (l, y.pid) ∈ s.locks → ∀ q, q ≠ y.pid → (l, q) ∉ table := by
    intro l hl q hq hheld
    exact hq (hinv.exclusive l q y.pid (hkept l q hq hheld) hl)
  refine ⟨⟨ids, n, replyTo, w, hreads, hinserts, hwrites⟩, ?_, ?_⟩
  · intro n' replyTo' hn' l hl
    refine hfree l (hholds.2 l ?_)
    rw [locks_group hg] at hl ⊢
    rwa [numbers_group hg hreads.numbers, ← hn' g hg]
  · intro w' hw' l hl
    rw [(new_row y n replyTo).id] at hwrites
    obtain rfl := Except.ok.inj (hwrites.symm.trans hw')
    refine hfree l ?_
    rcases List.mem_append.mp hl with hl | hl
    · obtain ⟨id, hid, rfl⟩ := List.mem_map.mp hl
      exact hattaches.boundLocked id hid
    · obtain ⟨c, hc, rfl⟩ := List.mem_map.mp hl
      exact hattaches.clonesLocked c hc

/-- A request that has had every turn so far, seen against the store it began on. -/
inductive Alone (table : Locks.Table Lock) (x : Side) (db : Db) (s : State) : Stage → Prop where
  | waiting (hdb : s.db = db) (hready : Ready (s.calls x.pid) x.task) :
      Alone table x db s .waiting
  | opened (hdb : s.db = db) (hnow : Established x db (s.calls x.pid))
      (hholds : Holds x s.locks (s.calls x.pid)) : Alone table x db s .running
  | failed : Alone table x db s (.ended .failed)
  | passed (h : Clears table x db ∨ Replays x db) (stage : Stage) : Alone table x db s stage

theorem alone_step {db : Db} {r : Race} {b : Bool} (hgroup : ToGroup groupId (x b))
    (htarget : HasTarget (x b).task) (hinv : Inv False r.state)
    (hkept : ∀ l q, q ≠ (x b).pid → (l, q) ∈ table → (l, q) ∈ r.state.locks)
    (h : Alone table (x b) db r.state (r.stage b)) :
    Alone table (x b) db (step x r b).state ((step x r b).stage b) := by
  generalize hstage : r.stage b = stage at h
  cases h with
  | waiting hdb hready =>
      obtain ⟨hdb', hnext⟩ := step_waiting hstage hready
      rw [hdb] at hdb' hnext
      rcases hnext with ⟨hopens, hrun, hcall⟩ | ⟨hmember, m, hm, _⟩ | ⟨_, hrun⟩
      · rw [hrun]
        refine .opened hdb' ?_ ?_
        · rw [hcall]
          exact .entered hopens
        · rw [hcall]
          trivial
      · exact .passed (Or.inr ⟨hmember, m, hm⟩) _
      · rw [hrun]
        exact .failed
  | opened hdb hnow hholds =>
      subst hdb
      by_cases hlast : Commits x r b
      · obtain ⟨_, n, new, w, hcall⟩ := hlast
        rw [hcall] at hnow hholds
        exact .passed (Or.inl (clears_of_attached hgroup hinv hkept hcall hnow hholds)) _
      · obtain ⟨hdb', hnext⟩ := step_open hstage htarget hnow hholds hlast
        rcases hnext with ⟨hrun, hnow', hholds'⟩ | ⟨_, hrun | ⟨⟨d, hd⟩, _⟩⟩
        · rw [hrun]
          exact .opened hdb' hnow' hholds'
        · rw [hrun]
          exact .failed
        · obtain ⟨g, hg, _⟩ := hgroup
          cases hd.symm.trans hg
  | failed =>
      rw [step_ended hstage, hstage]
      exact .failed
  | passed h _ => exact .passed h _

/-- A request that succeeds alone passes its checks and has its locks free, or its message is
already stored. -/
theorem clears_of_alone {s : State} {b : Bool} (hgroup : ToGroup groupId (x b))
    (hinv : Inv False s) (hready : Ready (s.calls (x b).pid) (x b).task)
    (h : SucceedsAlone x s b) : Clears s.locks (x b) s.db ∨ Replays (x b) s.db := by
  obtain ⟨turns, id, hend⟩ := h
  have halone : ∀ turns (r : Race), Inv False r.state →
      (∀ l q, q ≠ (x b).pid → (l, q) ∈ s.locks → (l, q) ∈ r.state.locks) →
      (r.stage b = .waiting → Ready (r.state.calls (x b).pid) (x b).task) →
      Alone s.locks (x b) s.db r.state (r.stage b) →
      Alone s.locks (x b) s.db (run (step x) r (List.replicate turns b)).state
        ((run (step x) r (List.replicate turns b)).stage b) := by
    intro turns
    induction turns with
    | zero => intro r _ _ _ hr; exact hr
    | succ turns ih =>
        intro r hinv hkept hwait hr
        have hsteps := (step_steps hwait).1
        refine ih _ (inv_turn hinv b) ?_ (fun hwaiting => absurd hwaiting step_begun)
          (alone_step hgroup hready.hasTarget hinv hkept hr)
        intro l q hq hl
        exact (hsteps.locks l q hq).mpr (hkept l q hq hl)
  have hlast := halone turns (waiting s) hinv (fun _ _ _ hl => hl) (fun _ => hready)
    (.waiting rfl hready)
  rw [hend] at hlast
  cases hlast with
  | passed h _ => exact h

/-- Two requests that have not begun, on any state that meets the invariants. -/
theorem racing_start {s : State} (hx : Independent x groupId) (hinv : Inv False s)
    (hlocked : Locked s) (hready : ∀ b, Ready (s.calls (x b).pid) (x b).task)
    (halone : ∀ b, SucceedsAlone x s b) :
    Racing groupId s.locks x (waiting s) fun _ => false :=
  ⟨hinv, hlocked, fun b => (hready b).hasTarget, fun b =>
    .waiting (hready b) (clears_of_alone (hx.toGroup b) hinv (hready b) (halone b)),
    fun _ _ _ hl => hl, fun _ _ hl => hlocked.group_le hl, fun _ _ hend => by cases hend⟩

/-- Whoever is not doomed ends well. -/
theorem Racing.succeeded_iff {r : Race} {d : Bool → Bool} (h : Racing groupId table x r d)
    {b : Bool} (hended : ∃ o, r.stage b = .ended o) :
    (∃ id, r.stage b = .ended (.succeeded id)) ↔ d b = false := by
  obtain ⟨o, ho⟩ := hended
  have hphase := h.phase b
  rw [ho] at hphase ⊢
  generalize d b = e at hphase
  cases hphase with
  | succeeded id => exact ⟨fun _ => rfl, fun _ => ⟨id, rfl⟩⟩
  | failed =>
      refine ⟨?_, fun he => by cases he⟩
      rintro ⟨id, hid⟩
      cases hid

/-- The race from any state that meets the invariants. -/
theorem sends_succeed_iff {s : State} (hx : Independent x groupId) (hinv : Inv False s)
    (hlocked : Locked s) (hready : ∀ b, Ready (s.calls (x b).pid) (x b).task)
    (halone : ∀ b, SucceedsAlone x s b) {schedule : List Bool}
    (hended : ∀ b, ∃ o, (run (step x) (waiting s) schedule).stage b = .ended o) :
    (∀ b, ∃ id, (run (step x) (waiting s) schedule).stage b = .ended (.succeeded id)) ↔
      Along (step x) (CommitsAlone x) (waiting s) schedule := by
  obtain ⟨d, hend, hd⟩ := racing_run hx schedule (racing_start hx hinv hlocked hready halone)
  rw [← hd.trans (and_iff_right fun _ => rfl)]
  exact forall_congr' fun b => hend.succeeded_iff (hended b)

/-- Independent messages to one group that would each succeed alone both succeed exactly
when neither commits between the other's number and its insert. -/
theorem independent_sends_succeed_iff {db : Db} {acts : List Act}
    (hx : Independent x groupId)
    (hready : ∀ b, Ready ((run Transactions.step (start db) acts).calls (x b).pid) (x b).task)
    (halone : ∀ b, SucceedsAlone x (run Transactions.step (start db) acts) b)
    {schedule : List Bool}
    (hended : ∀ b, ∃ o, (run (step x) (waiting (run Transactions.step (start db) acts))
      schedule).stage b = .ended o) :
    (∀ b, ∃ id, (run (step x) (waiting (run Transactions.step (start db) acts)) schedule).stage b =
        .ended (.succeeded id)) ↔
      Along (step x) (CommitsAlone x) (waiting (run Transactions.step (start db) acts)) schedule :=
  sends_succeed_iff hx (inv_run db acts) (locked_run db acts) hready halone hended

/-- Alice and Mallory write to their group. -/
def writers (b : Bool) : Side :=
  { pid := if b then 1 else 0
    task := .group (.message (if b then "alice" else "mallory") "g1"
      { senderDeviceId := if b then "d1" else "d3", idempotencyKey := "group-key-1"
        ciphertext := "c" })
    ctx := { sampleCtx (if b then "m1" else "m2") with mediaId := fun _ => if b then "c1" else "c2" } }

theorem writers_independent : Independent writers "g1" where
  pids := by decide
  toGroup b := ⟨_, rfl, rfl⟩
  apart := ⟨by decide, by decide, by decide, fun _ _ => show ("c1" : Id) ≠ "c2" by decide⟩

/-- Both read the greatest number before either message is there. -/
def bothNumbered : List Bool :=
  [true, true, true, false, false, false] ++ List.replicate 6 true ++ List.replicate 3 false

/-- Two members write at once, and one of them gets an error. -/
theorem independent_send_fails :
    ¬ ∀ (db : Db) (acts : List Act) (x : Bool → Side) (groupId : Id), Independent x groupId →
      (∀ b, Ready ((run Transactions.step (start db) acts).calls (x b).pid) (x b).task) →
      (∀ b, SucceedsAlone x (run Transactions.step (start db) acts) b) →
      ∀ schedule : List Bool,
        (∀ b, ∃ o, (run (step x) (waiting (run Transactions.step (start db) acts))
          schedule).stage b = .ended o) →
        ∀ b, ∃ id, (run (step x) (waiting (run Transactions.step (start db) acts))
          schedule).stage b = .ended (.succeeded id) := by
  intro h
  have hend : (run (step writers) (waiting (start sampleDb)) bothNumbered).stage true =
        .ended (.succeeded "m1") ∧
      (run (step writers) (waiting (start sampleDb)) bothNumbered).stage false = .ended .failed := by
    decide
  obtain ⟨id, hid⟩ := h sampleDb [] writers "g1" writers_independent (fun _ => rfl)
    (Bool.forall_bool.mpr ⟨⟨9, "m2", by decide⟩, ⟨9, "m1", by decide⟩⟩) bothNumbered
    (Bool.forall_bool.mpr ⟨⟨_, hend.2⟩, ⟨_, hend.1⟩⟩) false
  cases hend.2.symm.trans hid

/-- One after the other, both succeed, and no commit has come in between. -/
theorem sends_in_turn_succeed :
    Along (step writers) (CommitsAlone writers) (waiting (start sampleDb))
      (List.replicate 9 true ++ List.replicate 9 false) := by
  have hend : (run (step writers) (waiting (start sampleDb))
        (List.replicate 9 true ++ List.replicate 9 false)).stage true = .ended (.succeeded "m1") ∧
      (run (step writers) (waiting (start sampleDb))
        (List.replicate 9 true ++ List.replicate 9 false)).stage false =
          .ended (.succeeded "m2") := by decide
  exact (@independent_sends_succeed_iff writers "g1" sampleDb [] writers_independent (fun _ => rfl)
    (Bool.forall_bool.mpr ⟨⟨9, "m2", by decide⟩, ⟨9, "m1", by decide⟩⟩) _
    (Bool.forall_bool.mpr ⟨⟨_, hend.2⟩, ⟨_, hend.1⟩⟩)).mp
    (Bool.forall_bool.mpr ⟨⟨_, hend.2⟩, ⟨_, hend.1⟩⟩)

end Birgap.Messaging.Transactions.Races.GroupSends
