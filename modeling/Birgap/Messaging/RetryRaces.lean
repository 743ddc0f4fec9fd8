import Birgap.Messaging.Races

/-!
# Two copies of one request at once

A copy that commits first leaves the key of the request in the store. What becomes of the
other depends on whether it will look its key up once more before something stops it: a
group request looks again when its transaction begins, a direct one when a unique index was
violated, and no request when its attachments turn out to be taken.
-/
namespace Birgap.Messaging.Transactions.Races.Retries

set_option autoImplicit false

open Birgap.Lib Birgap.Lib.Run Birgap.Lib.Tx Birgap.Messages Birgap.Groups

/-! ## The number of a direct message -/

/-- The thread row of a pair. -/
def ofPair (pair : Id × Id) (t : DirectThread) : Bool :=
  t.userAId == pair.1 && t.userBId == pair.2

/-- The number a stored thread gives depends on nothing that is drawn. -/
theorem numberThread_stored {pair : Id × Id} {db : Db} {thread : DirectThread}
    (h : db.directThreads.find? (ofPair pair) = some thread) : ∃ sequence, ∀ threadId,
      numberThread threadId pair db = .ok ({ threadId := thread.id, created := [] }, sequence) := by
  have hmem := List.mem_of_find?_eq_some h
  have hstored : db.directThreads.any (ofPair pair) = true :=
    List.any_eq_true.mpr ⟨thread, hmem, List.find?_some h⟩
  obtain ⟨row, hrow⟩ : ∃ row, (Rows.updateMany (·.id == thread.id) bump db.directThreads).find?
      (·.id == thread.id) = some row := by
    apply Option.isSome_iff_exists.mp
    rw [List.find?_isSome]
    obtain ⟨row, hrow, hid⟩ := Rows.updateMany_kept (p := (·.id == thread.id)) (f := bump)
      (k := (·.id)) (fun _ => rfl) hmem
    exact ⟨row, hrow, by simp [hid]⟩
  refine ⟨row.latestSequence, fun threadId => ?_⟩
  unfold ofPair at h hstored
  simp only [numberThread, upsertThread, h, incrementSequence, hrow, hstored, bind, Except.bind,
    pure, Except.pure, ↓reduceIte]

theorem numberThread_new {pair : Id × Id} {db : Db} {threadId : Id}
    (hnone : db.directThreads.find? (ofPair pair) = none)
    (hfresh : ∀ t ∈ db.directThreads, t.id ≠ threadId) :
    numberThread threadId pair db =
      .ok ({ threadId, created := [{ id := threadId, userAId := pair.1, userBId := pair.2 }] }, 1) := by
  have hstored : db.directThreads.any (ofPair pair) = false := by
    rw [List.any_eq_false]
    exact List.find?_eq_none.mp hnone
  have hfree : db.directThreads.any (·.id == threadId) = false := by
    rw [List.any_eq_false]
    intro t ht hid
    exact hfresh t ht (by simpa using hid)
  have hmiss : db.directThreads.find? (·.id == threadId) = none := by
    rw [List.find?_eq_none]
    intro t ht hid
    exact hfresh t ht (by simpa using hid)
  have hrow : (Rows.updateMany (·.id == threadId) bump
      (db.directThreads ++ [{ id := threadId, userAId := pair.1, userBId := pair.2 }])).find?
        (·.id == threadId) =
      some { id := threadId, userAId := pair.1, userBId := pair.2, latestSequence := 1 } := by
    rw [Rows.find?_updateMany (f := bump) (fun _ => rfl), List.find?_append, hmiss]
    simp [bump]
  unfold ofPair at hnone hstored
  simp only [numberThread, upsertThread, hnone, hfree, incrementSequence, hrow, hstored, bind,
    Except.bind, pure, Except.pure, Bool.false_eq_true, ↓reduceIte]

/-! ## What a copy finds does not depend on what it draws -/

/-- The ids a request draws are new to the store. -/
structure Fresh (ctx : Ctx) (db : Db) : Prop where
  messageId : ∀ m ∈ db.messages, m.id ≠ ctx.messageId
  threadId : ∀ t ∈ db.directThreads, t.id ≠ ctx.threadId
  threadMessages : ∀ m ∈ db.messages, m.threadId ≠ some ctx.threadId
  envelopes : ∀ e ∈ db.messageEnvelopes, e.messageId ≠ ctx.messageId
  envelopeId : ∀ e ∈ db.messageEnvelopes, ∀ i, e.id ≠ ctx.envelopeId i
  envelopeIds : Function.Injective ctx.envelopeId

/-- Two copies of one request. -/
structure Copy (y z : Side) : Prop where
  task : z.task = y.task
  request : y.task.forwarding = none
  maxAttachments : z.ctx.maxAttachments = y.ctx.maxAttachments

section Copies

variable {y z : Side} {db : Db} {n : Numbered} {replyTo : Option Id}

theorem envelopes_copy {ctx ctx' : Ctx} (hfresh : Fresh ctx' db) {senderUserId recipientUserId : Id}
    {ids : List Id} {envelopes : List MessageEnvelopeDto}
    (h : ∃ rows, Rows.insertAll envelopeClash
      (directEnvelopes ctx senderUserId recipientUserId ids envelopes) db.messageEnvelopes =
        some rows) :
    ∃ rows, Rows.insertAll envelopeClash
      (directEnvelopes ctx' senderUserId recipientUserId ids envelopes) db.messageEnvelopes =
        some rows := by
  obtain ⟨_, hpair⟩ := Rows.insertAll_some_iff.mp h
  refine Rows.insertAll_some_iff.mpr ⟨?_, ?_⟩
  · intro e he r hr
    obtain ⟨⟨dto, i⟩, _, rfl⟩ := List.mem_map.mp he
    simp [envelopeClash, (hfresh.envelopeId r hr i).symm, (hfresh.envelopes r hr).symm]
  · unfold directEnvelopes at hpair ⊢
    rw [List.pairwise_map] at hpair ⊢
    refine hpair.imp ?_
    rintro ⟨a, i⟩ ⟨b, j⟩ hab
    simp only [envelopeClash, Bool.or_eq_false_iff, beq_eq_false_iff_ne, ne_eq, beq_self_eq_true,
      Bool.true_and] at hab ⊢
    refine ⟨fun hid => hab.1 ?_, hab.2⟩
    rw [hfresh.envelopeIds hid]

/-- The insert of one copy goes through where that of the other does: it has the same key,
and the same number in the same thread, or the first number of a new one. -/
theorem inserts_copy (hcopy : Copy y z) (hfresh : Fresh z.ctx db) {n' : Numbered}
    (hids : n'.recipientDeviceIds = n.recipientDeviceIds) (hsequence : n'.sequence = n.sequence)
    (hthreads : n'.threads.map (·.threadId) = n.threads.map (·.threadId) ∨
      n'.threads.map (·.threadId) = some z.ctx.threadId)
    (h : Inserts y db n replyTo) : Inserts z db n' replyTo := by
  have hrow := new_row y n replyTo
  have hrow' := new_row z n' replyTo
  obtain ⟨hclash, hdevice, henvelopes⟩ := createMessage_iff.mp h
  refine createMessage_iff.mpr ⟨?_, ?_, ?_⟩
  · intro r hr
    obtain ⟨_, hkey, hthread, hgroup⟩ := messageClash_false.mp (hclash r hr)
    refine messageClash_false.mpr ⟨?_, ?_, ?_, ?_⟩
    · rw [hrow'.id]
      exact (hfresh.messageId r hr).symm
    · rw [hrow'.key, hcopy.task, ← hrow.key]
      exact hkey
    · intro id hid hrid
      rw [hrow'.sequence, hsequence, ← hrow.sequence]
      cases ht : y.task with
      | direct d =>
          have hid' := (hrow'.direct d (hcopy.task.trans ht)).1
          rcases hthreads with hsame | hnew
          · exact hthread id (by rw [(hrow.direct d ht).1, ← hsame, ← hid', hid]) hrid
          · refine absurd ?_ (hfresh.threadMessages r hr)
            rw [hrid, ← hid, hid', hnew]
      | group g => cases ((hrow'.group g (hcopy.task.trans ht)).1).symm.trans hid
    · intro id hid hrid
      rw [hrow'.sequence, hsequence, ← hrow.sequence]
      refine hgroup id ?_ hrid
      cases ht : y.task with
      | direct d => cases ((hrow'.direct d (hcopy.task.trans ht)).2).symm.trans hid
      | group g =>
          rw [(hrow.group g ht).2, ← hid, (hrow'.group g (hcopy.task.trans ht)).2]
  · rw [(Prod.mk.inj hrow'.key).1, hcopy.task, ← (Prod.mk.inj hrow.key).1]
    exact hdevice
  · unfold Side.new at henvelopes ⊢
    rw [hcopy.task]
    cases ht : y.task with
    | direct d =>
        rw [ht] at henvelopes
        simp only [Task.newMessage] at henvelopes ⊢
        rw [hids]
        exact envelopes_copy hfresh henvelopes
    | group g => exact ⟨_, rfl⟩

/-- The copies get the same number, in one thread or each in a new one. -/
theorem numbers_copy (hcopy : Copy y z) (hy : Fresh y.ctx db) (hz : Fresh z.ctx db) {ids : List Id}
    (h : Numbers y.ctx db ids n y.task) : ∃ n', Numbers z.ctx db ids n' z.task ∧
      n'.recipientDeviceIds = n.recipientDeviceIds ∧ n'.sequence = n.sequence ∧
      (n'.threads.map (·.threadId) = n.threads.map (·.threadId) ∨
        n'.threads.map (·.threadId) = some z.ctx.threadId ∧
          n.threads.map (·.threadId) = some y.ctx.threadId) := by
  rw [hcopy.task]
  cases ht : y.task with
  | direct d =>
      rw [ht] at h
      obtain ⟨threads, sequence, hnumber, rfl⟩ := h
      cases hfind : db.directThreads.find? (ofPair (DirectTask.pair d)) with
      | some thread =>
          obtain ⟨sequence', hstored⟩ := numberThread_stored hfind
          obtain ⟨rfl, rfl⟩ := Prod.mk.inj (Except.ok.inj ((hstored _).symm.trans hnumber))
          exact ⟨_, ⟨_, _, hstored _, rfl⟩, rfl, rfl, Or.inl rfl⟩
      | none =>
          have hnew := numberThread_new hfind hy.threadId
          obtain ⟨rfl, rfl⟩ := Prod.mk.inj (Except.ok.inj (hnew.symm.trans hnumber))
          exact ⟨_, ⟨_, _, numberThread_new hfind hz.threadId, rfl⟩, rfl, rfl, Or.inr ⟨rfl, rfl⟩⟩
  | group g =>
      rw [ht] at h
      exact ⟨n, h, rfl, rfl, Or.inl rfl⟩

/-- In a new thread there is nothing to reply to. -/
theorem reply_copy (hcopy : Copy y z) (hy : Fresh y.ctx db) {n' : Numbered}
    (hthreads : n'.threads.map (·.threadId) = n.threads.map (·.threadId) ∨
      n'.threads.map (·.threadId) = some z.ctx.threadId ∧
        n.threads.map (·.threadId) = some y.ctx.threadId)
    (h : y.task.checkReply n db = .ok replyTo) : z.task.checkReply n' db = .ok replyTo := by
  have hrequest := hcopy.request
  rw [hcopy.task]
  cases ht : y.task with
  | group g =>
      rw [ht] at h
      cases g <;> exact h
  | direct d =>
      rw [ht] at h hrequest
      cases d with
      | forward f recipientUserId envelopes => cases hrequest
      | send senderUserId dto =>
          simp only [Task.checkReply] at h ⊢
          rcases hthreads with hsame | ⟨_, hnew⟩
          · rw [hsame]
            exact h
          · rw [hnew] at h
            unfold Messages.checkReply at h ⊢
            cases hreply : dto.replyToMessageId with
            | none =>
                rw [hreply] at h
                exact h
            | some id =>
                rw [hreply] at h
                dsimp only at h
                split at h
                · cases h
                · rename_i target hfind
                  split at h
                  · cases h
                  · rename_i hin
                    simp only [Bool.not_eq_true', beq_eq_false_iff_ne, ne_eq, not_not] at hin
                    exact absurd hin (hy.threadMessages target (List.mem_of_find?_eq_some hfind))

/-- Every check of the one copy passes where those of the other do. -/
theorem passes_copy (hcopy : Copy y z) (hy : Fresh y.ctx db) (hz : Fresh z.ctx db)
    (h : Passes y db) : Passes z db := by
  obtain ⟨ids, n, replyTo, w, hreads, hinserts, _⟩ := h
  obtain ⟨n', hnumbers, hids, hsequence, hthreads⟩ := numbers_copy hcopy hy hz hreads.numbers
  have hrequest : z.task.forwarding = none := by
    rw [hcopy.task]
    exact hcopy.request
  refine ⟨ids, n', replyTo, _, ⟨?_, ?_, hnumbers, reply_copy hcopy hy hthreads hreads.reply, ?_⟩,
    inserts_copy hcopy hz hids hsequence (hthreads.imp_right fun h => h.1) hinserts,
    mediaWrites_request z.ctx hrequest _ _⟩
  · rw [hcopy.task]
    exact hreads.opens
  · rw [hcopy.task]
    exact hreads.routes
  · rw [hcopy.task, hcopy.maxAttachments]
    exact hreads.owned

end Copies

/-! ## The store after a copy's commit -/

/-- What the other copy meets once the message is stored: its key, the same devices and
thread, and attachments that are taken. -/
structure Committed (t : Task) (m : Message) (db : Db) : Prop where
  found : findByKey t.senderDeviceId t.idempotencyKey db = some m
  routes : ∃ ids, Routes db ids t
  number : ∀ d, t = .direct d → ∀ threadId, ∃ threads sequence,
    numberThread threadId (DirectTask.pair d) db = .ok (threads, sequence) ∧
      ∀ ids, ∃ replyTo, t.checkReply
        { recipientDeviceIds := ids, threads := some threads, sequence } db = .ok replyTo
  taken : t.mediaIds ≠ [] → ∀ maxAttachments, ∃ e,
    assertAttachmentsOwned maxAttachments t.senderUserId t.mediaIds db = .error e ∧
      e ≠ .uniqueConstraint

theorem assertAttachmentsOwned_error {maxAttachments : Nat} {userId : Id} {mediaIds : List Id}
    {db : Db} {e : Err} (h : assertAttachmentsOwned maxAttachments userId mediaIds db = .error e) :
    e ≠ .uniqueConstraint := by
  have hrow : ∀ (rows : List MessageMedia) (e : Err),
      checkAll (checkAttachment userId) rows = .error e → e ≠ .uniqueConstraint := by
    intro rows
    induction rows with
    | nil =>
        intro e h
        cases h
    | cons row rows ih =>
        intro e h
        simp only [checkAll] at h
        split at h
        · rename_i e' hcheck
          obtain rfl := Except.error.inj h
          unfold checkAttachment at hcheck
          split at hcheck
          · obtain rfl := Except.error.inj hcheck
            simp
          · split at hcheck
            · obtain rfl := Except.error.inj hcheck
              simp
            · split at hcheck
              · obtain rfl := Except.error.inj hcheck
                simp
              · cases hcheck
        · exact ih e h
  unfold assertAttachmentsOwned at h
  split at h
  · cases h
  · split at h
    · obtain rfl := Except.error.inj h
      simp
    · split at h
      · obtain rfl := Except.error.inj h
        simp
      · simp only at h
        split at h
        · obtain rfl := Except.error.inj h
          simp
        · exact hrow _ e h

section Commit

variable {z : Side} {db : Db} {ids : List Id} {n : Numbered} {replyTo : Option Id} {w : MediaWrites}

/-- The thread of a committed message is the stored one of its pair. -/
theorem commit_thread {d : DirectTask} (hd : z.task = .direct d) (hfresh : Fresh z.ctx db)
    (hnumbers : Numbers z.ctx db ids n z.task) : ∃ thread,
      (commitWrites n (z.new n replyTo) w db).directThreads.find? (ofPair (DirectTask.pair d)) =
        some thread ∧ n.threads.map (·.threadId) = some thread.id := by
  rw [hd] at hnumbers
  obtain ⟨threads, sequence, hnumber, rfl⟩ := hnumbers
  have hkeeps : ∀ rows : List DirectThread,
      (Rows.updateMany (·.id == threads.threadId) bump rows).find? (ofPair (DirectTask.pair d)) =
        (rows.find? (ofPair (DirectTask.pair d))).map fun t =>
          if t.id == threads.threadId then bump t else t :=
    fun rows => Rows.find?_updateMany (f := bump) (fun _ => rfl) rows
  show ∃ thread, (Rows.updateMany (·.id == threads.threadId) bump
    (db.directThreads ++ threads.created)).find? _ = some thread ∧ some threads.threadId = _
  rw [hkeeps, List.find?_append]
  cases hfind : db.directThreads.find? (ofPair (DirectTask.pair d)) with
  | some thread =>
      obtain ⟨sequence', hstored⟩ := numberThread_stored hfind
      obtain ⟨rfl, rfl⟩ := Prod.mk.inj (Except.ok.inj ((hstored _).symm.trans hnumber))
      exact ⟨bump thread, by simp, rfl⟩
  | none =>
      have hnew := numberThread_new hfind hfresh.threadId
      obtain ⟨rfl, rfl⟩ := Prod.mk.inj (Except.ok.inj (hnew.symm.trans hnumber))
      exact ⟨bump { id := z.ctx.threadId, userAId := (DirectTask.pair d).1
                    userBId := (DirectTask.pair d).2 }, by simp [ofPair], rfl⟩

/-- What is attached to a committed message is not free any more. -/
theorem commit_taken (hmedia : Rows.Unique (·.id) db.messageMedia)
    (hmedia' : Rows.Unique (·.id) (commitWrites n (z.new n replyTo) w db).messageMedia)
    (hreads : Reads z db ids n replyTo)
    (hwrites : z.task.mediaWrites z.ctx (z.new n replyTo).message.id db = .ok w)
    (hnamed : z.task.mediaIds ≠ []) (maxAttachments : Nat) : ∃ e,
      assertAttachmentsOwned maxAttachments z.task.senderUserId z.task.mediaIds
        (commitWrites n (z.new n replyTo) w db) = .error e ∧ e ≠ .uniqueConstraint := by
  obtain ⟨id, hid⟩ := List.exists_mem_of_ne_nil _ hnamed
  cases hagain : assertAttachmentsOwned maxAttachments z.task.senderUserId z.task.mediaIds
      (commitWrites n (z.new n replyTo) w db) with
  | error e => exact ⟨e, rfl, assertAttachmentsOwned_error hagain⟩
  | ok u =>
      obtain ⟨r', hr', hrid', _, hfree', _⟩ := assertAttachmentsOwned_ok hmedia' hagain id hid
      obtain ⟨r, hr, hrid, huser, hfree, _⟩ := assertAttachmentsOwned_ok hmedia hreads.owned id hid
      have hbound : r.id ∈ w.bound := by
        rw [(mediaWrites_ok hwrites).1]
        refine List.mem_map_of_mem (List.mem_filter.mpr ⟨hr, ?_⟩)
        simp [bindable, hrid, hid, huser, hfree]
      obtain ⟨r'', hr'', hrow⟩ := commit_row w (z.new n replyTo).message.id hr
      rw [if_pos (by simpa using hbound)] at hrow
      have hsame : r' = r'' := hmedia'.eq hr' hr'' (by rw [hrow, hrid', hrid])
      rw [hsame, hrow] at hfree'
      cases hfree'

theorem committed (hfresh : Fresh z.ctx db)
    (hmedia : Rows.Unique (·.id) db.messageMedia)
    (hmedia' : Rows.Unique (·.id) (commitWrites n (z.new n replyTo) w db).messageMedia)
    (hreads : Reads z db ids n replyTo)
    (hwrites : z.task.mediaWrites z.ctx (z.new n replyTo).message.id db = .ok w) :
    Committed z.task (z.new n replyTo).message (commitWrites n (z.new n replyTo) w db) where
  found := by
    have hnone := hreads.opens.1
    unfold findByKey at hnone ⊢
    show (db.messages ++ [(z.new n replyTo).message]).find? _ = _
    rw [List.find?_append, hnone, Option.none_or]
    exact List.find?_cons_of_pos (new_row z n replyTo).found
  routes := by
    have hroutes := hreads.routes
    refine ⟨ids, ?_⟩
    cases ht : z.task with
    | direct d =>
        rw [ht] at hroutes
        exact hroutes
    | group g =>
        rw [ht] at hroutes
        exact hroutes
  number := by
    intro d hd threadId
    obtain ⟨thread, hfind, hthread⟩ : ∃ thread, (commitWrites n (z.new n replyTo) w
        db).directThreads.find? (ofPair (DirectTask.pair d)) = some thread ∧ _ :=
      commit_thread hd hfresh hreads.numbers
    obtain ⟨sequence, hstored⟩ := numberThread_stored hfind
    refine ⟨_, _, hstored threadId, fun ids' => ⟨replyTo, ?_⟩⟩
    exact reply_commit hthread.symm hreads.reply
  taken := commit_taken hmedia hmedia' hreads hwrites

end Commit

/-! ## Where each copy stands -/

/-- A copy while the message is not stored: no check has failed that would pass. -/
inductive Early (y : Side) (s : State) : Stage → Prop where
  | waiting (hready : Ready (s.calls y.pid) y.task) : Early y s .waiting
  | opened (hnow : Established y s.db (s.calls y.pid)) (hholds : Holds y s.locks (s.calls y.pid)) :
      Early y s .running
  | recovering (hcall : s.calls y.pid = .recovering y.task) (hno : ¬ Passes y s.db) :
      Early y s .running
  | failed (hno : ¬ Passes y s.db) : Early y s (.ended .failed)

/-- A direct request that meets its own message: the insert is the first statement to see
it, unless there are attachments. -/
inductive Walks (t : Task) (db : Db) : Call → Prop where
  | entered : Walks t db (.entered t)
  | checked (ids : List Id) : Walks t db (.checked t ids)
  | numbered {n : Numbered} {replyTo : Option Id} (hreply : t.checkReply n db = .ok replyTo) :
      Walks t db (.numbered t n)
  | replied (n : Numbered) (replyTo : Option Id) : Walks t db (.replied t n replyTo)
  | owned (n : Numbered) (replyTo : Option Id) (hnone : t.mediaIds = []) :
      Walks t db (.owned t n replyTo)

/-- A group request that has looked its key up for the last time. -/
inductive Refused (t : Task) : Call → Prop where
  | checked (ids : List Id) : Refused t (.checked t ids)
  | numbered (n : Numbered) : Refused t (.numbered t n)
  | replied (n : Numbered) (replyTo : Option Id) : Refused t (.replied t n replyTo)
  | owned (n : Numbered) (replyTo : Option Id) : Refused t (.owned t n replyTo)

/-- Where a copy stands once the message `m` is stored, and how it will end. -/
inductive Late (y : Side) (m : Message) (s : State) : Stage → Outcome → Prop where
  | waiting (hready : Ready (s.calls y.pid) y.task) (hmember : Admitted y.task s.db) :
      Late y m s .waiting (.succeeded m.id)
  | outside (hready : Ready (s.calls y.pid) y.task) (hout : ¬ Admitted y.task s.db) :
      Late y m s .waiting .failed
  | recheck {g : GroupTask} (ht : y.task = .group g) (hcall : s.calls y.pid = .entered y.task) :
      Late y m s .running (.succeeded m.id)
  | refused {g : GroupTask} (ht : y.task = .group g) (hcall : Refused y.task (s.calls y.pid)) :
      Late y m s .running .failed
  | walking {d : DirectTask} (ht : y.task = .direct d) (hdb : Committed y.task m s.db)
      (hcall : Walks y.task s.db (s.calls y.pid)) :
      Late y m s .running (if y.task.mediaIds = [] then .succeeded m.id else .failed)
  | recovering (hcall : s.calls y.pid = .recovering y.task) : Late y m s .running (.succeeded m.id)
  | enqueueing {created : Bool} (hcall : s.calls y.pid = .enqueueing y.task m created) :
      Late y m s .running (.succeeded m.id)
  | ended {o : Outcome} (ho : o = .failed ∨ o = .succeeded m.id) : Late y m s (.ended o) o

section Turn

variable {x : Bool → Side} {r : Race} {b : Bool} {m : Message}

theorem Early.frame {y : Side} {q : Nat} {s s' : State} {stage : Stage} (h : Early y s stage)
    (hq : y.pid ≠ q) (hsteps : Steps q s s') (hdb : s'.db = s.db) : Early y s' stage := by
  have hcall := hsteps.calls y.pid hq
  cases h with
  | waiting hready => exact .waiting (by rwa [hcall])
  | opened hnow hholds =>
      refine .opened (by rwa [hdb, hcall]) ?_
      rw [hcall]
      exact hholds.mono fun l hl => (hsteps.locks l y.pid hq).mpr hl
  | recovering hc hno => exact .recovering (hcall.trans hc) (by rwa [hdb])
  | failed hno => exact .failed (by rwa [hdb])

theorem Late.frame {y : Side} {q : Nat} {s s' : State} {stage : Stage} {o : Outcome}
    (h : Late y m s stage o) (hq : y.pid ≠ q) (hsteps : Steps q s s') (hdb : s'.db = s.db) :
    Late y m s' stage o := by
  have hcall := hsteps.calls y.pid hq
  cases h with
  | waiting hready hmember => exact .waiting (by rwa [hcall]) (by rwa [hdb])
  | outside hready hout => exact .outside (by rwa [hcall]) (by rwa [hdb])
  | recheck ht hc => exact .recheck ht (hcall.trans hc)
  | refused ht hc => exact .refused ht (by rwa [hcall])
  | walking ht hcommitted hc => exact .walking ht (by rwa [hdb]) (by rwa [hdb, hcall])
  | recovering hc => exact .recovering (hcall.trans hc)
  | enqueueing hc => exact .enqueueing (hcall.trans hc)
  | ended ho => exact .ended ho

/-- A turn before either copy has committed, and that does not commit. -/
theorem early_turn (htarget : HasTarget (x b).task)
    (hnone : findByKey (x b).task.senderDeviceId (x b).task.idempotencyKey r.state.db = none)
    (h : Early (x b) r.state (r.stage b)) (hopen : ¬ Commits x r b) :
    (step x r b).state.db = r.state.db ∧ Early (x b) (step x r b).state ((step x r b).stage b) := by
  generalize hstage : r.stage b = stage at h
  cases h with
  | waiting hready =>
      obtain ⟨hdb, hnext⟩ := step_waiting hstage hready
      refine ⟨hdb, ?_⟩
      rcases hnext with ⟨hopens, hrun, hcall⟩ | ⟨_, m, hm, _⟩ | ⟨hout, hrun⟩
      · rw [hrun]
        refine .opened ?_ ?_
        · rw [hcall, hdb]
          exact .entered hopens
        · rw [hcall]
          trivial
      · cases hnone.symm.trans hm
      · rw [hrun]
        refine .failed ?_
        rintro ⟨_, _, _, _, hreads, _⟩
        rw [hdb] at hreads
        exact hout hreads.opens.2
  | opened hnow hholds =>
      obtain ⟨hdb, hnext⟩ := step_open hstage htarget hnow hholds hopen
      refine ⟨hdb, ?_⟩
      rcases hnext with ⟨hrun, hnow', hholds'⟩ | ⟨hno, hrun | ⟨_, hrun, hcall⟩⟩
      · rw [hrun]
        exact .opened (by rwa [hdb]) hholds'
      · rw [hrun]
        exact .failed (by rwa [hdb])
      · rw [hrun]
        exact .recovering hcall (by rwa [hdb])
  | recovering hcall hno =>
      obtain ⟨hdb, hend⟩ := step_recover hstage htarget hcall
      rw [hnone] at hend
      refine ⟨hdb, ?_⟩
      rw [hend]
      exact .failed (by rwa [hdb])
  | failed hno =>
      rw [step_ended hstage, hstage]
      exact ⟨rfl, .failed hno⟩

/-- The key of a stored message is taken. -/
theorem createMessage_found {y : Side} {db : Db}
    (hfound : findByKey y.task.senderDeviceId y.task.idempotencyKey db = some m) (n : Numbered)
    (replyTo : Option Id) (envelopes : List MessageEnvelope) :
    createMessage (y.new n replyTo).message envelopes db = .error .uniqueConstraint := by
  have hkey := List.find?_some hfound
  have hclash : messageClash (y.new n replyTo).message m = true := by
    obtain ⟨hd, hk⟩ := Prod.mk.inj (new_row y n replyTo).key
    simp only [Bool.and_eq_true, beq_iff_eq] at hkey
    simp [messageClash, hd, hk, hkey.1, hkey.2]
  unfold createMessage
  rw [if_pos (List.any_eq_true.mpr ⟨m, List.mem_of_find?_eq_some hfound, hclash⟩)]

/-- A group request that is past its look-ups goes on until something stops it. -/
theorem refused_turn {g : GroupTask} (ht : (x b).task = .group g) (htarget : HasTarget (x b).task)
    (hfound : findByKey (x b).task.senderDeviceId (x b).task.idempotencyKey r.state.db = some m)
    (hstage : r.stage b = .running) (h : Refused (x b).task (r.state.calls (x b).pid)) :
    (step x r b).state.db = r.state.db ∧
    (((step x r b).stage b = .running ∧
        Refused (x b).task ((step x r b).state.calls (x b).pid)) ∨
      (step x r b).stage b = .ended .failed) := by
  have hset : ∀ c, Refused (x b).task c →
      let o : State × Option Returned := (r.state.set (x b).pid c, none)
      (r.after b (x b) o).stage b = .running ∧
        Refused (x b).task ((r.after b (x b) o).state.calls (x b).pid) := by
    intro c hc
    obtain ⟨hrun, hself⟩ := after_moved (r := r) (b := b) (set_self r.state (x b).pid c)
      (by cases hc <;> trivial)
    refine ⟨hrun, ?_⟩
    rw [hself]
    exact hc
  have hfail : ∀ e, (r.after b (x b) (r.state.abort (x b).pid (x b).task e)).state.db =
        r.state.db ∧
      (r.after b (x b) (r.state.abort (x b).pid (x b).task e)).stage b = .ended .failed := by
    intro e
    rw [abort_group ht, after_finish htarget]
    exact ⟨rfl, rfl⟩
  rw [step_running hstage]
  generalize hcall : r.state.calls (x b).pid = c at h
  cases h with
  | checked ids =>
      simp only [Side.next, exec, hcall, numberTask]
      rw [ht]
      refine ⟨rfl, Or.inl ?_⟩
      have hmove := hset _ (.numbered { sequence := nextSequence g.request.groupId r.state.db })
      rw [ht] at hmove
      exact hmove
  | numbered n =>
      simp only [Side.next, exec, hcall]
      split
      · exact ⟨rfl, Or.inl (hset _ (.replied _ _))⟩
      · exact ⟨(hfail _).1, Or.inr (hfail _).2⟩
  | replied n replyTo =>
      simp only [Side.next, exec, hcall]
      split
      · exact ⟨rfl, Or.inl (hset _ (.owned _ _))⟩
      · exact ⟨(hfail _).1, Or.inr (hfail _).2⟩
  | owned n replyTo =>
      have hinsert := createMessage_found hfound n replyTo (x b |>.new n replyTo).envelopes
      simp only [Side.next, exec, hcall]
      unfold Side.new at hinsert
      rw [hinsert]
      exact ⟨(hfail _).1, Or.inr (hfail _).2⟩

/-- A direct request that meets its own message ends at its attachments or looks again. -/
theorem walking_turn {d : DirectTask} (ht : (x b).task = .direct d)
    (htarget : HasTarget (x b).task) (hdb : Committed (x b).task m r.state.db)
    (hstage : r.stage b = .running)
    (h : Walks (x b).task r.state.db (r.state.calls (x b).pid)) :
    (step x r b).state.db = r.state.db ∧
    (((step x r b).stage b = .running ∧
        Walks (x b).task r.state.db ((step x r b).state.calls (x b).pid)) ∨
      ((x b).task.mediaIds ≠ [] ∧ (step x r b).stage b = .ended .failed) ∨
      ((x b).task.mediaIds = [] ∧ (step x r b).stage b = .running ∧
        (step x r b).state.calls (x b).pid = .recovering (x b).task)) := by
  have hmove : ∀ {c} (s' : State), s'.calls (x b).pid = c → Walks (x b).task r.state.db c →
      (r.after b (x b) (s', none)).stage b = .running ∧
        Walks (x b).task r.state.db ((r.after b (x b) (s', none)).state.calls (x b).pid) := by
    intro c s' hcall hc
    obtain ⟨hrun, hself⟩ := after_moved (r := r) (b := b) hcall (by cases hc <;> trivial)
    refine ⟨hrun, ?_⟩
    rw [hself]
    exact hc
  rw [step_running hstage]
  generalize hcall : r.state.calls (x b).pid = c at h
  have hstay := hcall
  cases h with
  | entered =>
      obtain ⟨ids, hroutes⟩ := hdb.routes
      have hexec : exec r.state (.check (x b).pid) =
          (r.state.set (x b).pid (.checked (x b).task ids), none) := by
        rw [ht] at hroutes hcall ⊢
        simp only [exec, hcall, checkTask]
        rw [show routeDevices _ _ _ _ _ = _ from hroutes]
      simp only [Side.next, hexec]
      exact ⟨rfl, Or.inl (hmove _ (set_self r.state (x b).pid _) (.checked ids))⟩
  | checked ids =>
      obtain ⟨threads, sequence, hnumber, hreplies⟩ := hdb.number d ht (x b).ctx.threadId
      obtain ⟨replyTo, hreply⟩ := hreplies ids
      have hexec : exec r.state (.number (x b).pid (x b).ctx) =
          (r.state.lock (x b).pid
            [.pair (DirectTask.pair d).1 (DirectTask.pair d).2, .threadId threads.threadId]
            (.numbered (x b).task { recipientDeviceIds := ids, threads := some threads, sequence }),
            none) := by
        rw [ht] at hcall ⊢
        simp only [exec, hcall, numberTask, hnumber]
      simp only [Side.next, hexec]
      unfold State.lock
      split
      · refine ⟨rfl, Or.inl (hmove _ ?_ (.numbered hreply))⟩
        exact Function.update_self _ _ _
      · exact ⟨rfl, Or.inl (hmove _ hstay (.checked ids))⟩
  | @numbered n replyTo hreply =>
      simp only [Side.next, exec, hcall, hreply]
      exact ⟨rfl, Or.inl (hmove _ (set_self r.state (x b).pid _) (.replied n replyTo))⟩
  | replied n replyTo =>
      simp only [Side.next, exec, hcall]
      by_cases hnone : (x b).task.mediaIds = []
      · have howned : assertAttachmentsOwned (x b).ctx.maxAttachments (x b).task.senderUserId
            (x b).task.mediaIds r.state.db = .ok () := by
          rw [hnone]
          rfl
        rw [howned]
        exact ⟨rfl, Or.inl (hmove _ (set_self r.state (x b).pid _) (.owned n replyTo hnone))⟩
      · obtain ⟨e, howned, he⟩ := hdb.taken hnone (x b).ctx.maxAttachments
        rw [howned]
        dsimp only
        rw [abort_other he, after_finish htarget]
        exact ⟨rfl, Or.inr (Or.inl ⟨hnone, rfl⟩)⟩
  | owned n replyTo hnone =>
      have hinsert := createMessage_found hdb.found n replyTo ((x b).new n replyTo).envelopes
      have hexec : exec r.state (.insert (x b).pid (x b).ctx) =
          (r.state.leave (x b).pid (.recovering (x b).task), none) := by
        unfold Side.new at hinsert
        simp only [exec, hcall, hinsert]
        rw [ht]
        rfl
      simp only [Side.next, hexec]
      obtain ⟨hrun, hself⟩ := after_moved (r := r) (b := b)
        (leave_self r.state (x b).pid (.recovering (x b).task)) trivial
      exact ⟨rfl, Or.inr (Or.inr ⟨hnone, hrun, hself⟩)⟩

/-- A turn once the message is stored changes nothing about how the copy will end. -/
theorem late_turn (htarget : HasTarget (x b).task)
    (hfound : findByKey (x b).task.senderDeviceId (x b).task.idempotencyKey r.state.db = some m)
    {o : Outcome} (h : Late (x b) m r.state (r.stage b) o) :
    (step x r b).state.db = r.state.db ∧
      Late (x b) m (step x r b).state ((step x r b).stage b) o := by
  generalize hstage : r.stage b = stage at h
  cases h with
  | waiting hready hmember =>
      obtain ⟨hdb, hnext⟩ := step_waiting hstage hready
      refine ⟨hdb, ?_⟩
      rcases hnext with ⟨hopens, _⟩ | ⟨_, m', hm', hrun⟩ | ⟨hout, _⟩
      · cases hfound.symm.trans hopens.1
      · obtain rfl := Option.some.inj (hfound.symm.trans hm')
        rw [hrun]
        exact .ended (Or.inr rfl)
      · exact absurd hmember hout
  | outside hready hout =>
      obtain ⟨hdb, hnext⟩ := step_waiting hstage hready
      refine ⟨hdb, ?_⟩
      rcases hnext with ⟨hopens, _⟩ | ⟨hmember, _⟩ | ⟨_, hrun⟩
      · exact absurd hopens.2 hout
      · exact absurd hmember hout
      · rw [hrun]
        exact .ended (Or.inl rfl)
  | @recheck g ht hcall =>
      have hexec : exec r.state (.check (x b).pid) =
          (r.state.leave (x b).pid (.enqueueing (x b).task m false), none) := by
        rw [ht] at hcall hfound ⊢
        simp only [exec, hcall, checkTask, hfound]
      rw [step_running hstage, hcall]
      simp only [Side.next, hexec]
      obtain ⟨hrun, hself⟩ := after_moved (r := r) (b := b)
        (leave_self r.state (x b).pid (.enqueueing (x b).task m false)) trivial
      rw [hrun]
      exact ⟨rfl, .enqueueing hself⟩
  | refused ht hcall =>
      obtain ⟨hdb, hnext⟩ := refused_turn ht htarget hfound hstage hcall
      refine ⟨hdb, ?_⟩
      rcases hnext with ⟨hrun, hcall'⟩ | hrun
      · rw [hrun]
        exact .refused ht hcall'
      · rw [hrun]
        exact .ended (Or.inl rfl)
  | walking ht hcommitted hcall =>
      obtain ⟨hdb, hnext⟩ := walking_turn ht htarget hcommitted hstage hcall
      refine ⟨hdb, ?_⟩
      rcases hnext with ⟨hrun, hcall'⟩ | ⟨hnamed, hrun⟩ | ⟨hnone, hrun, hcall'⟩
      · rw [hrun]
        exact .walking ht (by rwa [hdb]) (by rwa [hdb])
      · rw [hrun, if_neg hnamed]
        exact .ended (Or.inl rfl)
      · rw [hrun, if_pos hnone]
        exact .recovering hcall'
  | recovering hcall =>
      obtain ⟨hdb, hend⟩ := step_recover hstage htarget hcall
      rw [hfound] at hend
      refine ⟨hdb, ?_⟩
      rw [hend]
      exact .ended (Or.inr rfl)
  | enqueueing hcall =>
      obtain ⟨hdb, hend⟩ := step_enqueue hstage htarget hcall
      refine ⟨hdb, ?_⟩
      rw [hend]
      exact .ended (Or.inr rfl)
  | ended ho =>
      rw [step_ended hstage, hstage]
      exact ⟨rfl, .ended ho⟩

end Turn

/-! ## The commit of one copy -/

/-- A copy that will not look its key up again before something stops it. -/
def PastLookUp : Call → Prop
  | .entered (.direct d) => Task.mediaIds (.direct d) ≠ []
  | .checked (.direct d) _ => Task.mediaIds (.direct d) ≠ []
  | .checked (.group _) _ => True
  | .numbered (.group _) _ => True
  | .replied (.group _) _ _ => True
  | .owned (.group _) _ _ => True
  | _ => False

/-- No copy commits while the other is past its last look-up. -/
def LooksAgain (x : Bool → Side) (r : Race) (b : Bool) : Prop :=
  Commits x r b → r.stage (!b) = .running → ¬ PastLookUp (r.state.calls (x !b).pid)

section Commit

variable {y z : Side} {s s' : State} {n : Numbered} {new : NewMessage} {w : MediaWrites}

theorem key_lock (x : Side) (n : Numbered) (replyTo : Option Id) :
    Lock.messageKey x.task.senderDeviceId x.task.idempotencyKey ∈ (x.new n replyTo).locks := by
  obtain ⟨hd, hk⟩ := Prod.mk.inj (new_row x n replyTo).key
  unfold NewMessage.locks
  simp [hd, hk]

/-- Two inserts under one key do not stand side by side. -/
theorem one_key (hcopy : Copy z y) (hpid : y.pid ≠ z.pid) (hexclusive : Locks.Exclusive s.locks)
    {n' : Numbered} {replyTo replyTo' : Option Id}
    (hheld : ∀ l ∈ (y.new n replyTo).locks, (l, y.pid) ∈ s.locks)
    (hheld' : ∀ l ∈ (z.new n' replyTo').locks, (l, z.pid) ∈ s.locks) : False := by
  have hl := hheld _ (key_lock y n replyTo)
  rw [hcopy.task] at hl
  exact hpid (hexclusive _ _ _ hl (hheld' _ (key_lock z n' replyTo')))

/-- Nor do two numbers of one pair. -/
theorem one_pair (hcopy : Copy z y) (hpid : y.pid ≠ z.pid) (hexclusive : Locks.Exclusive s.locks)
    {d : DirectTask} (hd : y.task = .direct d)
    (hheld : ∀ d, y.task = .direct d →
      (.pair (DirectTask.pair d).1 (DirectTask.pair d).2, y.pid) ∈ s.locks)
    (hheld' : ∀ d, z.task = .direct d →
      (.pair (DirectTask.pair d).1 (DirectTask.pair d).2, z.pid) ∈ s.locks) : False :=
  hpid (hexclusive _ _ _ (hheld d hd) (hheld' d (hcopy.task.symm.trans hd)))

/-- What the commit of one copy makes of the other. -/
theorem Early.commit (hcopy : Copy z y) (hpid : y.pid ≠ z.pid) (hy : Fresh y.ctx s.db)
    (hz : Fresh z.ctx s.db) (hinv : Inv False s) (hinv' : Inv False s') (hsteps : Steps z.pid s s')
    (hnow : Established z s.db (.attached z.task n new w))
    (hholds : Holds z s.locks (.attached z.task n new w))
    (hdb : s'.db = commitWrites n new w s.db) {stage : Stage} (h : Early y s stage) :
    findByKey y.task.senderDeviceId y.task.idempotencyKey s'.db = some new.message ∧
    ∃ o, Late y new.message s' stage o ∧
      (o = .succeeded new.message.id ↔ (stage = .running → ¬ PastLookUp (s.calls y.pid))) := by
  obtain ⟨ids, replyTo, rfl, hreads, hinserts, hwrites⟩ := hnow.writes
  have hcall := hsteps.calls y.pid hpid
  have hpasses : Passes y s.db :=
    passes_copy hcopy hz hy ⟨ids, n, replyTo, w, hreads, hinserts, hwrites⟩
  have hcommitted : Committed y.task (z.new n replyTo).message s'.db := by
    have hmedia' := hinv'.mediaIds
    rw [hdb] at hmedia' ⊢
    rw [hcopy.task]
    exact committed hz hinv.mediaIds hmedia' hreads hwrites
  refine ⟨hcommitted.found, ?_⟩
  cases h with
  | waiting hready =>
      refine ⟨_, .waiting (by rwa [hcall]) ?_, by simp⟩
      rw [hdb, hcopy.task]
      exact hreads.opens.2
  | recovering _ hno => exact absurd hpasses hno
  | failed hno => exact absurd hpasses hno
  | opened hnow' hholds' =>
      generalize hc : s.calls y.pid = c at hnow' hholds'
      rw [hc] at hcall
      cases ht : y.task with
      | direct d =>
          have hwalks : ∀ {c}, s'.calls y.pid = c → Walks y.task s'.db c →
              (PastLookUp c ↔ y.task.mediaIds ≠ []) →
              ∃ o, Late y (z.new n replyTo).message s' .running o ∧
                (o = .succeeded (z.new n replyTo).message.id ↔
                  (Stage.running = .running → ¬ PastLookUp c)) := by
            intro c hc' hw hpast
            refine ⟨_, .walking ht hcommitted (by rwa [hc']), ?_⟩
            rw [hpast]
            split <;> simp_all
          cases hnow' with
          | entered _ => exact hwalks hcall .entered (by rw [ht]; rfl)
          | checked _ _ => exact hwalks hcall (.checked _) (by rw [ht]; rfl)
          | numbered _ _ _ => exact (one_pair hcopy hpid hinv.exclusive ht hholds' hholds.1).elim
          | replied _ _ _ _ => exact (one_pair hcopy hpid hinv.exclusive ht hholds' hholds.1).elim
          | owned _ => exact (one_pair hcopy hpid hinv.exclusive ht hholds' hholds.1).elim
          | inserted _ _ => exact (one_key hcopy hpid hinv.exclusive hholds'.2 hholds.2).elim
          | attached _ _ _ => exact (one_key hcopy hpid hinv.exclusive hholds'.2 hholds.2).elim
      | group g =>
          have hrefused : ∀ {c}, s'.calls y.pid = c → Refused y.task c → PastLookUp c →
              ∃ o, Late y (z.new n replyTo).message s' .running o ∧
                (o = .succeeded (z.new n replyTo).message.id ↔
                  (Stage.running = .running → ¬ PastLookUp c)) := by
            intro c hc' hr hpast
            exact ⟨_, .refused ht (by rwa [hc']), by simp [hpast]⟩
          cases hnow' with
          | entered _ =>
              refine ⟨_, .recheck ht hcall, ?_⟩
              rw [ht]
              simp [PastLookUp]
          | checked _ _ => exact hrefused hcall (.checked _) (by rw [ht]; trivial)
          | numbered _ _ _ => exact hrefused hcall (.numbered _) (by rw [ht]; trivial)
          | replied _ _ _ _ => exact hrefused hcall (.replied _ _) (by rw [ht]; trivial)
          | owned _ => exact hrefused hcall (.owned _ _) (by rw [ht]; trivial)
          | inserted _ _ => exact (one_key hcopy hpid hinv.exclusive hholds'.2 hholds.2).elim
          | attached _ _ _ => exact (one_key hcopy hpid hinv.exclusive hholds'.2 hholds.2).elim

end Commit

/-! ## Both copies, along any schedule -/

/-- Two calls with one request. -/
structure Copies (x : Bool → Side) : Prop where
  pids : (x true).pid ≠ (x false).pid
  copy : Copy (x true) (x false)

theorem Copy.symm {y z : Side} (h : Copy y z) : Copy z y where
  task := h.task.symm
  request := by
    rw [h.task]
    exact h.request
  maxAttachments := h.maxAttachments.symm

theorem Copies.other {x : Bool → Side} (h : Copies x) (b : Bool) :
    Copy (x b) (x !b) ∧ (x !b).pid ≠ (x b).pid := by
  cases b with
  | true => exact ⟨h.copy, h.pids.symm⟩
  | false => exact ⟨h.copy.symm, h.pids⟩

/-- A request that is no part of a forward has no target to end. -/
theorem Copies.target {x : Bool → Side} (h : Copies x) (b : Bool) : HasTarget (x b).task := by
  intro f hf
  cases (h.other b).1.request.symm.trans hf

/-- What holds between the turns; `p` says that the copies will be answered alike. -/
inductive Racing (x : Bool → Side) (r : Race) : Prop → Prop where
  | early
      (hnone : ∀ b, findByKey (x b).task.senderDeviceId (x b).task.idempotencyKey r.state.db = none)
      (hfresh : ∀ b, Fresh (x b).ctx r.state.db) (h : ∀ b, Early (x b) r.state (r.stage b)) :
      Racing x r True
  | late {m : Message} {o : Bool → Outcome}
      (hfound : ∀ b,
        findByKey (x b).task.senderDeviceId (x b).task.idempotencyKey r.state.db = some m)
      (h : ∀ b, Late (x b) m r.state (r.stage b) (o b)) : Racing x r (o true = o false)

variable {x : Bool → Side}

/-- Once the message is stored nobody commits. -/
theorem Late.not_commits {r : Race} {b : Bool} {m : Message} {o : Outcome}
    (h : Late (x b) m r.state (r.stage b) o) : ¬ Commits x r b := by
  rintro ⟨hrun, n, new, w, hcall⟩
  rw [hrun] at h
  cases h with
  | recheck _ hc => cases hcall.symm.trans hc
  | refused _ hc =>
      rw [hcall] at hc
      cases hc
  | walking _ _ hc =>
      rw [hcall] at hc
      cases hc
  | recovering hc => cases hcall.symm.trans hc
  | enqueueing hc => cases hcall.symm.trans hc

/-- The turn that commits the message. -/
theorem racing_commit (hx : Copies x) {r : Race} {b : Bool} (hinv : Inv False r.state)
    (hfresh : ∀ b, Fresh (x b).ctx r.state.db) (h : ∀ b, Early (x b) r.state (r.stage b))
    (hc : Commits x r b) : ∃ p, Racing x (step x r b) p ∧ (p ↔ LooksAgain x r b) := by
  obtain ⟨hcopy, hpid⟩ := hx.other b
  obtain ⟨hrun, n, new, w, hcall⟩ := id hc
  have hearly := h b
  rw [hrun] at hearly
  cases hearly with
  | recovering hcall' _ => cases hcall.symm.trans hcall'
  | opened hnow hholds =>
      rw [hcall] at hnow hholds
      obtain ⟨hsteps, hstay⟩ := step_steps (x := x) (r := r) (b := b) fun hwaiting => by
        cases hrun.symm.trans hwaiting
      obtain ⟨hdb, hnext⟩ := step_commit hrun (hx.target b) hcall
      obtain ⟨hfound, o, hlate, hlooks⟩ := (h (!b)).commit hcopy hpid (hfresh _) (hfresh _) hinv
        (inv_turn hinv b) hsteps hnow hholds hdb
      have hself : Late (x b) new.message (step x r b).state ((step x r b).stage b)
          (.succeeded new.message.id) := by
        rcases hnext with hended | ⟨_, hrun', hcall'⟩
        · rw [hended]
          exact .ended (Or.inr rfl)
        · rw [hrun']
          exact .enqueueing hcall'
      have hend : ∀ c, Late (x c) new.message (step x r b).state ((step x r b).stage c)
          (Function.update (fun _ => o) b (.succeeded new.message.id) c) := by
        rw [Bool.forall_bool' b, Function.update_self,
          Function.update_of_ne (by cases b <;> decide), hstay]
        exact ⟨hself, hlate⟩
      refine ⟨_, .late ?_ hend, ?_⟩
      · rw [Bool.forall_bool' b]
        refine ⟨?_, hfound⟩
        rw [hcopy.task] at hfound
        exact hfound
      · have hagree : (Function.update (fun _ => o) b (.succeeded new.message.id) true =
            Function.update (fun _ => o) b (.succeeded new.message.id) false) ↔
              o = .succeeded new.message.id := by
          cases b with
          | true => exact eq_comm
          | false => exact Iff.rfl
        rw [hagree, hlooks]
        exact ⟨fun hl _ => hl, fun hl => hl hc⟩

/-- One turn: the copies stay in agreement unless one commits while the other is past its
last look-up. -/
theorem racing_step (hx : Copies x) {r : Race} {p : Prop} (hinv : Inv False r.state)
    (h : Racing x r p) (b : Bool) :
    ∃ p', Racing x (step x r b) p' ∧ (p' ↔ p ∧ LooksAgain x r b) := by
  obtain ⟨hcopy, hpid⟩ := hx.other b
  cases h with
  | early hnone hfresh h =>
      by_cases hc : Commits x r b
      · obtain ⟨p, hracing, hp⟩ := racing_commit hx hinv hfresh h hc
        exact ⟨p, hracing, hp.trans ⟨fun hl => ⟨trivial, hl⟩, fun hl => hl.2⟩⟩
      · obtain ⟨hsteps, hstay⟩ := step_steps (x := x) (r := r) (b := b) fun hwaiting => by
          have hearly := h b
          rw [hwaiting] at hearly
          cases hearly with
          | waiting hready => exact hready
        obtain ⟨hdb, hself⟩ := early_turn (hx.target b) (hnone b) (h b) hc
        refine ⟨True, .early ?_ ?_ ?_, ?_⟩
        · rw [hdb]
          exact hnone
        · rw [hdb]
          exact hfresh
        · rw [Bool.forall_bool' b, hstay]
          exact ⟨hself, (h (!b)).frame hpid hsteps hdb⟩
        · exact ⟨fun _ => ⟨trivial, fun hcommits => absurd hcommits hc⟩, fun _ => trivial⟩
  | @late m o hfound h =>
      obtain ⟨hsteps, hstay⟩ := step_steps (x := x) (r := r) (b := b) fun hwaiting => by
        have hlate := h b
        rw [hwaiting] at hlate
        generalize o b = e at hlate
        cases hlate with
        | waiting hready _ => exact hready
        | outside hready _ => exact hready
      obtain ⟨hdb, hself⟩ := late_turn (hx.target b) (hfound b) (h b)
      refine ⟨_, .late (m := m) (o := o) ?_ ?_, ?_⟩
      · rw [hdb]
        exact hfound
      · rw [Bool.forall_bool' b, hstay]
        exact ⟨hself, (h (!b)).frame hpid hsteps hdb⟩
      · exact ⟨fun ho => ⟨ho, fun hcommits => absurd hcommits (h b).not_commits⟩, fun ho => ho.1⟩

theorem racing_run (hx : Copies x) (schedule : List Bool) : ∀ {r : Race} {p : Prop},
    Inv False r.state → Racing x r p → ∃ p', Racing x (run (step x) r schedule) p' ∧
      (p' ↔ p ∧ Along (step x) (LooksAgain x) r schedule) := by
  induction schedule with
  | nil =>
      intro r p _ h
      exact ⟨p, h, fun hp => ⟨hp, along_nil _ _ _⟩, fun hp => hp.1⟩
  | cons b schedule ih =>
      intro r p hinv h
      obtain ⟨p₁, h₁, hp₁⟩ := racing_step hx hinv h b
      obtain ⟨p₂, h₂, hp₂⟩ := ih (inv_turn hinv b) h₁
      refine ⟨p₂, h₂, ?_⟩
      rw [hp₂, hp₁, along_cons, and_assoc]

/-- Two calls that have not begun will be answered alike so far. -/
theorem racing_waiting (hx : Copies x) {s : State} (hfresh : ∀ b, Fresh (x b).ctx s.db)
    (hready : ∀ b, Ready (s.calls (x b).pid) (x b).task) : ∃ p, Racing x (waiting s) p ∧ p := by
  have hsame : ∀ b, (x b).task = (x true).task := by
    intro b
    cases b with
    | true => rfl
    | false => exact hx.copy.task
  cases hfind : findByKey (x true).task.senderDeviceId (x true).task.idempotencyKey s.db with
  | none =>
      refine ⟨_, .early ?_ hfresh fun b => .waiting (hready b), trivial⟩
      intro b
      rw [hsame b]
      exact hfind
  | some m =>
      have hfound : ∀ b,
          findByKey (x b).task.senderDeviceId (x b).task.idempotencyKey s.db = some m := by
        intro b
        rw [hsame b]
        exact hfind
      by_cases hmember : Admitted (x true).task s.db
      · refine ⟨_, .late (o := fun _ => .succeeded m.id) hfound fun b => ?_, rfl⟩
        refine .waiting (hready b) ?_
        rw [hsame b]
        exact hmember
      · refine ⟨_, .late (o := fun _ => .failed) hfound fun b => ?_, rfl⟩
        refine .outside (hready b) ?_
        rw [hsame b]
        exact hmember

/-- Whether two copies that have ended were answered alike. -/
theorem Racing.alike_iff {r : Race} {p : Prop} (h : Racing x r p)
    (hended : ∀ b, ∃ o, r.stage b = .ended o) :
    (∀ b id, r.stage b = .ended (.succeeded id) → r.stage (!b) = .ended (.succeeded id)) ↔ p := by
  cases h with
  | early _ _ h =>
      refine iff_of_true (fun b id hid => ?_) trivial
      have hearly := h b
      rw [hid] at hearly
      cases hearly
  | @late m o _ h =>
      have hstage : ∀ b, r.stage b = .ended (o b) ∧ (o b = .failed ∨ o b = .succeeded m.id) := by
        intro b
        obtain ⟨e, he⟩ := hended b
        have hlate := h b
        rw [he] at hlate ⊢
        generalize o b = e' at hlate ⊢
        cases hlate with
        | ended ho => exact ⟨rfl, ho⟩
      constructor
      · intro halike
        rcases (hstage true).2 with ht | ht
        · rcases (hstage false).2 with hf | hf
          · rw [ht, hf]
          · have hother := halike false m.id (by rw [(hstage false).1, hf])
            rw [Bool.not_false, (hstage true).1] at hother
            rw [hf, Stage.ended.inj hother]
        · have hother := halike true m.id (by rw [(hstage true).1, ht])
          rw [Bool.not_true, (hstage false).1] at hother
          rw [ht, Stage.ended.inj hother]
      · intro hsame b id hid
        rw [(hstage b).1] at hid
        rw [(hstage (!b)).1]
        cases b with
        | true => rw [Bool.not_true, ← hsame, hid]
        | false => rw [Bool.not_false, hsame, hid]

/-- The race from any state that meets the invariant. -/
theorem answered_alike_iff (hx : Copies x) {s : State} (hinv : Inv False s)
    (hfresh : ∀ b, Fresh (x b).ctx s.db) (hready : ∀ b, Ready (s.calls (x b).pid) (x b).task)
    {schedule : List Bool}
    (hended : ∀ b, ∃ o, (run (step x) (waiting s) schedule).stage b = .ended o) :
    (∀ b id, (run (step x) (waiting s) schedule).stage b = .ended (.succeeded id) →
      (run (step x) (waiting s) schedule).stage (!b) = .ended (.succeeded id)) ↔
      Along (step x) (LooksAgain x) (waiting s) schedule := by
  obtain ⟨p, hbegin, hp⟩ := racing_waiting hx hfresh hready
  obtain ⟨q, hend, hq⟩ := racing_run hx schedule hinv hbegin
  rw [← hq.trans (and_iff_right hp)]
  exact hend.alike_iff hended

/-- Two concurrent copies of a request are answered alike exactly when neither commits while
the other is past its last look-up of the key. -/
theorem retry_answered_alike_iff {db : Db} {acts : List Act} (hx : Copies x)
    (hfresh : ∀ b, Fresh (x b).ctx (run Transactions.step (start db) acts).db)
    (hready : ∀ b, Ready ((run Transactions.step (start db) acts).calls (x b).pid) (x b).task)
    {schedule : List Bool}
    (hended : ∀ b, ∃ o, (run (step x) (waiting (run Transactions.step (start db) acts))
      schedule).stage b = .ended o) :
    (∀ b id, (run (step x) (waiting (run Transactions.step (start db) acts)) schedule).stage b =
        .ended (.succeeded id) →
      (run (step x) (waiting (run Transactions.step (start db) acts)) schedule).stage (!b) =
        .ended (.succeeded id)) ↔
      Along (step x) (LooksAgain x) (waiting (run Transactions.step (start db) acts)) schedule :=
  answered_alike_iff hx (inv_run db acts) hfresh hready hended

/-- Alice's message to the group, and her retry of it. -/
def retried (b : Bool) : Side :=
  { pid := if b then 1 else 0
    task := .group (.message "alice" "g1"
      { senderDeviceId := "d1", idempotencyKey := "group-key-1", ciphertext := "c" })
    ctx := { sampleCtx (if b then "m1" else "m2") with
      envelopeId := fun i => String.ofList (List.replicate i 'e') } }

theorem retried_copies : Copies retried where
  pids := by decide
  copy := ⟨rfl, rfl, rfl⟩

theorem retried_fresh (b : Bool) : Fresh (retried b).ctx (start sampleDb).db where
  messageId m hm := by cases hm
  threadId t ht := by cases ht
  threadMessages m hm := by cases hm
  envelopes e he := by cases he
  envelopeId e he := by cases he
  envelopeIds i j h := by
    have hlength := congrArg String.length h
    simpa [retried] using hlength

/-- Both have looked the key up inside their transactions before either message is there. -/
def bothChecked : List Bool :=
  [true, true, false, false] ++ List.replicate 7 true ++ List.replicate 4 false

/-- The message is sent and its retry gets an error. -/
theorem concurrent_retry_fails :
    ¬ ∀ (db : Db) (acts : List Act) (x : Bool → Side), Copies x →
      (∀ b, Fresh (x b).ctx (run Transactions.step (start db) acts).db) →
      (∀ b, Ready ((run Transactions.step (start db) acts).calls (x b).pid) (x b).task) →
      ∀ schedule : List Bool,
        (∀ b, ∃ o, (run (step x) (waiting (run Transactions.step (start db) acts))
          schedule).stage b = .ended o) →
        ∀ b id, (run (step x) (waiting (run Transactions.step (start db) acts))
            schedule).stage b = .ended (.succeeded id) →
          (run (step x) (waiting (run Transactions.step (start db) acts)) schedule).stage (!b) =
            .ended (.succeeded id) := by
  intro h
  have hend : (run (step retried) (waiting (start sampleDb)) bothChecked).stage true =
        .ended (.succeeded "m1") ∧
      (run (step retried) (waiting (start sampleDb)) bothChecked).stage false = .ended .failed := by
    decide
  have hother := h sampleDb [] retried retried_copies retried_fresh (fun _ => rfl) bothChecked
    (Bool.forall_bool.mpr ⟨⟨_, hend.2⟩, ⟨_, hend.1⟩⟩) true "m1" hend.1
  cases hend.2.symm.trans hother

/-- A retry that has not begun its transaction when the message commits gets its id. -/
theorem early_retry_answered_alike :
    Along (step retried) (LooksAgain retried) (waiting (start sampleDb))
      ([true, false] ++ List.replicate 8 true ++ List.replicate 2 false) := by
  have hend : (run (step retried) (waiting (start sampleDb))
        ([true, false] ++ List.replicate 8 true ++ List.replicate 2 false)).stage true =
          .ended (.succeeded "m1") ∧
      (run (step retried) (waiting (start sampleDb))
        ([true, false] ++ List.replicate 8 true ++ List.replicate 2 false)).stage false =
          .ended (.succeeded "m1") := by decide
  refine (@retry_answered_alike_iff retried sampleDb [] retried_copies retried_fresh (fun _ => rfl) _
    (Bool.forall_bool.mpr ⟨⟨_, hend.2⟩, ⟨_, hend.1⟩⟩)).mp ?_
  intro b id hid
  cases b with
  | true =>
      cases hend.1.symm.trans hid
      exact hend.2
  | false =>
      cases hend.2.symm.trans hid
      exact hend.1

end Birgap.Messaging.Transactions.Races.Retries
