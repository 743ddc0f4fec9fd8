import Birgap.Messaging.Isolation

/-!
# The attachments of a message

The ownership read of a transaction and its binding update are two statements, and another
request may bind the same row in between: the update then matches fewer rows than the
request named, and nothing notices. A binding that was made stays.
-/
namespace Birgap.Messaging.Transactions

set_option autoImplicit false

open Birgap.Lib Birgap.Lib.Run Birgap.Messages

variable {full : Prop} {s : State} {pid : Nat}

/-! ## Uploads and deletions -/

theorem not_locked {locks : Locks.Table Lock} {l : Lock} (h : ¬ locks.any (·.1 == l) = true) :
    ¬ ∃ q, (l, q) ∈ locks := by
  rintro ⟨q, hq⟩
  exact h (List.any_eq_true.mpr ⟨(l, q), hq, beq_self_eq_true l⟩)

theorem StepOk.initUpload (h : Inv full s) {now : Time} {mediaId userId : Id}
    {presigned : PresignedUpload} {dto : InitMediaDto} {db : Db} {r : Id × PresignedUpload}
    (hfree : ¬ ∃ q, (.mediaId mediaId, q) ∈ s.locks)
    (hi : Messages.initUpload now mediaId userId presigned dto s.db = .ok (r, db)) :
    StepOk full s ({ s with db := db }, none) := by
  unfold Messages.initUpload at hi
  split at hi
  · cases hi
  · rename_i hnew
    obtain ⟨_, rfl⟩ := Prod.mk.inj (Except.ok.inj hi)
    have hfresh : ∀ x ∈ s.db.messageMedia, x.id ≠ mediaId := by
      intro x hx hid
      exact hnew (List.any_eq_true.mpr ⟨x, hx, beq_iff_eq.mpr hid⟩)
    have he : Evolves (fun l => ∃ q, (l, q) ∈ s.locks) s.db { s.db with
        messageMedia := s.db.messageMedia ++ [pendingMedia now mediaId userId presigned dto] } := by
      refine ⟨?_, ?_, fun m hm => ⟨m, hm, rfl, rfl⟩, fun m hm => Or.inl ⟨m, hm, rfl⟩⟩
      · intro x hx
        exact ⟨x, List.mem_append_left _ hx, Progress.refl x, fun _ => rfl⟩
      · intro x hx
        rcases List.mem_append.mp hx with hx | hx
        · exact Or.inl ⟨x, hx, rfl⟩
        · obtain rfl := List.mem_singleton.mp hx
          exact Or.inr hfree
    refine .write h he h.messageIds (Rows.unique_append h.mediaIds hfresh) ?_
    intro hs x hx messageId hbound
    rcases List.mem_append.mp hx with hx | hx
    · exact hs x hx messageId hbound
    · obtain rfl := List.mem_singleton.mp hx
      cases hbound

theorem StepOk.completeMedia (h : Inv full s) {now : Time} {mediaId : Id} {dto : CompleteMediaDto}
    {db : Db} {r : MessageMedia}
    (hi : Messages.completeMedia now mediaId dto s.db = .ok (r, db)) :
    StepOk full s ({ s with db := db }.set pid .idle, none) := by
  unfold Messages.completeMedia at hi
  simp only at hi
  split at hi
  · cases hi
  · obtain ⟨_, rfl⟩ := Prod.mk.inj (Except.ok.inj hi)
    have he : Evolves (fun l => ∃ q, (l, q) ∈ s.locks) s.db { s.db with
        messageMedia := Rows.updateMany (·.id == mediaId) (completed now dto)
          s.db.messageMedia } := by
      refine ⟨?_, ?_, fun m hm => ⟨m, hm, rfl, rfl⟩, fun m hm => Or.inl ⟨m, hm, rfl⟩⟩
      · intro x hx
        refine ⟨_, Rows.mem_updateMany.mpr ⟨x, hx, rfl⟩, ?_, ?_⟩
        · split
          · exact ⟨rfl, rfl, fun _ => rfl, fun _ hb => hb⟩
          · exact Progress.refl x
        · intro _
          split <;> rfl
      · intro x' hx'
        obtain ⟨x, hx, rfl⟩ := Rows.mem_updateMany.mp hx'
        refine Or.inl ⟨x, hx, ?_⟩
        split <;> rfl
    have hids := Rows.unique_updateMany (p := (·.id == mediaId)) (f := completed now dto)
      (fun _ => rfl) h.mediaIds
    refine (StepOk.write h he h.messageIds hids ?_).idle pid
    intro hs x' hx' messageId hbound
    obtain ⟨x, hx, rfl⟩ := Rows.mem_updateMany.mp hx'
    split at hbound
    · obtain ⟨_, m, hm, hid, hsender⟩ := hs x hx messageId hbound
      rw [if_pos (by assumption)]
      exact ⟨rfl, m, hm, hid, hsender⟩
    · rw [if_neg (by assumption)]
      exact hs x hx messageId hbound

theorem StepOk.hide (h : Inv full s) (pid : Nat) (userId messageId : Id) :
    StepOk full s ({ s with db := hideMessage userId messageId s.db }.set pid .idle, none) := by
  rw [hideMessage_frame]
  generalize (hideMessage userId messageId s.db).hiddenMessages = hidden
  have he : ∀ held, Evolves held s.db { s.db with hiddenMessages := hidden } := fun held =>
    ⟨(Evolves.refl held s.db).rows, (Evolves.refl held s.db).freshRows,
      (Evolves.refl held s.db).messages, (Evolves.refl held s.db).freshMessages⟩
  exact (StepOk.write h (he _) h.messageIds h.mediaIds fun hs => hs).idle pid

theorem StepOk.deleteTx (h : Inv full s) {now : Time} {userId messageId : Id} {who : DeletedBy}
    {db : Db} {m : Message}
    (hi : Messages.deleteTx now userId messageId who s.db = .ok (m, db)) :
    StepOk full s ({ s with db := db }.set pid .idle, none) := by
  have hdb := deleteTx_ok hi
  rw [hdb]
  generalize db.adminAuditLog = audit
  have hkept : ∀ x ∈ s.db.messages, ∃ x' ∈ Rows.updateMany (·.id == messageId) (tombstoned now)
      s.db.messages, x'.id = x.id ∧ x'.senderUserId = x.senderUserId := by
    intro x hx
    refine ⟨_, Rows.mem_updateMany.mpr ⟨x, hx, rfl⟩, ?_⟩
    split <;> exact ⟨rfl, rfl⟩
  have he : Evolves (fun l => ∃ q, (l, q) ∈ s.locks) s.db { s.db with
      messages := Rows.updateMany (·.id == messageId) (tombstoned now) s.db.messages
      adminAuditLog := audit } := by
    refine ⟨fun x hx => ⟨x, hx, Progress.refl x, fun _ => rfl⟩, fun x hx => Or.inl ⟨x, hx, rfl⟩,
      hkept, ?_⟩
    intro x' hx'
    obtain ⟨x, hx, rfl⟩ := Rows.mem_updateMany.mp hx'
    refine Or.inl ⟨x, hx, ?_⟩
    split <;> rfl
  have hids := Rows.unique_updateMany (p := (·.id == messageId)) (f := tombstoned now)
    (fun _ => rfl) h.messageIds
  refine (StepOk.write h he hids h.mediaIds ?_).idle pid
  intro hs r hr mid hbound
  obtain ⟨hstatus, x, hx, hid, hsender⟩ := hs r hr mid hbound
  obtain ⟨x', hx', hid', hsender'⟩ := hkept x hx
  exact ⟨hstatus, x', hx', hid'.trans hid, hsender'.trans hsender⟩

/-! ## The insert, the attachment statement and the commit -/

theorem newMessage_sender (ctx : Ctx) (t : Task) (n : Numbered) (replyTo : Option Id) :
    (t.newMessage ctx n replyTo).message.senderUserId = t.senderUserId := by
  match t with
  | .direct (.send _ _) => rfl
  | .direct (.forward _ _ _) => rfl
  | .group (.message _ _ _) => rfl
  | .group (.forward _ _ _) => rfl

theorem inserts_of_create {ctx : Ctx} {t : Task} {n : Numbered} {replyTo : Option Id} {db : Db}
    (h : createMessage (t.newMessage ctx n replyTo).message (t.newMessage ctx n replyTo).envelopes
      s.db = .ok db) :
    Inserts (Locks.acquire s.locks pid (t.newMessage ctx n replyTo).locks) pid t
      (t.newMessage ctx n replyTo).message s.db where
  locked := Locks.mem_acquire.mpr (Or.inr ⟨by simp [NewMessage.locks], rfl⟩)
  fresh := messageClash_fresh (createMessage_ok h).1
  sender := newMessage_sender ctx t n replyTo

theorem mem_forwardClones {ctx : Ctx} {userId messageId : Id} {source : List MessageMedia}
    {c : MessageMedia} (h : c ∈ forwardClones ctx userId messageId source) :
    c.userId = userId ∧ c.uploadStatus = .complete ∧ c.messageId = some messageId := by
  obtain ⟨x, _, rfl⟩ := List.mem_map.mp h
  exact ⟨rfl, rfl, rfl⟩

theorem mediaWrites_ok {ctx : Ctx} {t : Task} {messageId : Id} {db : Db} {w : MediaWrites}
    (h : t.mediaWrites ctx messageId db = .ok w) :
    w.bound = (db.messageMedia.filter (bindable t.senderUserId t.mediaIds)).map (·.id) ∧
    w.clones = forwardClones ctx t.senderUserId messageId t.sourceMedia ∧
    (Rows.Unique (·.id) db.messageMedia → Rows.Unique (·.id) (db.messageMedia ++ w.clones)) := by
  unfold Task.mediaWrites at h
  simp only at h
  split at h
  · cases h
  · rename_i rows hrows
    obtain rfl := Except.ok.inj h
    refine ⟨rfl, rfl, ?_⟩
    intro hu
    have hall := Rows.unique_insertAll (k := MessageMedia.id)
      (fun a b hab => by simp [hab]) hrows hu
    rwa [Rows.insertAll_eq hrows] at hall

theorem attaches_of_writes (h : Inv full s) {ctx : Ctx} {t : Task} {m : Message} {w : MediaWrites}
    (howned : Owned t s.db)
    (hw : t.mediaWrites ctx m.id s.db = .ok w) :
    Attaches (Locks.acquire s.locks pid w.locks) pid t m w s.db := by
  obtain ⟨hbound, hclones, hunique⟩ := mediaWrites_ok hw
  obtain ⟨_, hclonesUnique, hfresh⟩ := Rows.unique_append_iff.mp (hunique h.mediaIds)
  refine ⟨?_, ?_, ?_, fun c hc r hr => hfresh r hr c hc, hclonesUnique, ?_⟩
  · intro id hid
    exact Locks.mem_acquire.mpr (Or.inr ⟨List.mem_append_left _ (List.mem_map_of_mem hid), rfl⟩)
  · intro id hid
    rw [hbound] at hid
    obtain ⟨r, hr, rfl⟩ := List.mem_map.mp hid
    obtain ⟨hr, hb⟩ := List.mem_filter.mp hr
    simp only [bindable, Bool.and_eq_true, List.contains_eq_mem, decide_eq_true_eq, beq_iff_eq,
      Option.isNone_iff_eq_none] at hb
    obtain ⟨⟨hmem, huser⟩, hfree⟩ := hb
    -- the status was read by the ownership check, of the same row
    obtain ⟨r₀, hr₀, hid₀, _, hstatus⟩ := howned r.id hmem
    obtain rfl := h.mediaIds.eq hr₀ hr hid₀
    exact ⟨r₀, hr, rfl, huser, hstatus, hfree⟩
  · intro c hc
    exact Locks.mem_acquire.mpr (Or.inr ⟨List.mem_append_right _
      (List.mem_map_of_mem (f := fun m : MessageMedia => Lock.mediaId m.id) hc), rfl⟩)
  · intro c hc
    rw [hclones] at hc
    exact mem_forwardClones hc

/-- The message an attachment is bound to, by a look-up on its id. -/
def mediaBinding (id : Id) (db : Db) : Option Id :=
  (db.messageMedia.find? (·.id == id)).bind (·.messageId)

theorem mediaBinding_eq {db : Db} (hu : Rows.Unique (·.id) db.messageMedia) {r : MessageMedia}
    (hr : r ∈ db.messageMedia) : mediaBinding r.id db = r.messageId := by
  unfold mediaBinding
  rw [hu.find?_eq hr]
  rfl

/-- Whenever a binding update runs, the attachments of its request are still unbound. -/
def BindsAll (s : State) : Act → Prop
  | .attach pid _ => ∀ t n new, s.calls pid = .inserted t n new →
      ∀ id ∈ t.mediaIds, mediaBinding id s.db = none
  | _ => True

theorem bound_of_unbound (h : Inv full s) {ctx : Ctx} {t : Task} {messageId : Id} {w : MediaWrites}
    (howned : Owned t s.db)
    (hw : t.mediaWrites ctx messageId s.db = .ok w)
    (hfree : ∀ id ∈ t.mediaIds, mediaBinding id s.db = none) : ∀ id ∈ t.mediaIds, id ∈ w.bound := by
  intro id hid
  obtain ⟨r, hr, rfl, huser, _⟩ := howned id hid
  have hnone := hfree r.id hid
  rw [mediaBinding_eq h.mediaIds hr] at hnone
  rw [(mediaWrites_ok hw).1]
  refine List.mem_map_of_mem (List.mem_filter.mpr ⟨hr, ?_⟩)
  simp [bindable, hid, huser, hnone]

section Commit

variable {t : Task} {n : Numbered} {new : NewMessage} {w : MediaWrites}

/-- The row a commit makes of a stored one. -/
theorem commit_row (w : MediaWrites) (messageId : Id) {r : MessageMedia} {rows : List MessageMedia}
    (hr : r ∈ rows) : ∃ r' ∈ w.write messageId rows,
      r' = if w.bound.contains r.id then { r with messageId := some messageId } else r :=
  ⟨_, List.mem_append_left _ (Rows.mem_updateMany.mpr ⟨r, hr, rfl⟩), rfl⟩

/-- What a transaction binds was unbound until its commit. -/
theorem Attaches.unbound (h : Inv full s) (ha : Attaches s.locks pid t new.message w s.db)
    {r : MessageMedia} (hr : r ∈ s.db.messageMedia) (hb : w.bound.contains r.id = true) :
    r.userId = t.senderUserId ∧ r.uploadStatus = .complete ∧ r.messageId = none := by
  obtain ⟨r₀, hr₀, hid, huser, hstatus, hfree⟩ := ha.bound r.id (List.contains_iff_mem.mp hb)
  obtain rfl := h.mediaIds.eq hr₀ hr hid
  exact ⟨huser, hstatus, hfree⟩

theorem commit_evolves (h : Inv full s) (hi : Inserts s.locks pid t new.message s.db)
    (ha : Attaches s.locks pid t new.message w s.db) :
    Evolves (others s.locks pid) s.db (commitWrites n new w s.db) where
  rows r hr := by
    obtain ⟨r', hr', he⟩ := commit_row w new.message.id hr
    refine ⟨r', hr', ?_⟩
    split at he
    · rename_i hb
      obtain ⟨_, _, hfree⟩ := ha.unbound h hr hb
      subst he
      refine ⟨⟨rfl, rfl, fun hc => hc, ?_⟩, ?_⟩
      · intro messageId hm
        rw [hfree] at hm
        cases hm
      · rintro ⟨q, hq, hlocked⟩
        exact absurd (h.exclusive _ _ _ hlocked
          (ha.boundLocked _ (List.contains_iff_mem.mp hb))) hq
    · subst he
      exact ⟨Progress.refl _, fun _ => rfl⟩
  freshRows r' hr' := by
    rcases List.mem_append.mp hr' with hr' | hr'
    · obtain ⟨r, hr, rfl⟩ := Rows.mem_updateMany.mp hr'
      refine Or.inl ⟨r, hr, ?_⟩
      split <;> rfl
    · right
      rintro ⟨q, hq, hlocked⟩
      exact hq (h.exclusive _ _ _ hlocked (ha.clonesLocked r' hr'))
  messages m hm := ⟨m, List.mem_append_left _ hm, rfl, rfl⟩
  freshMessages m hm := by
    rcases List.mem_append.mp hm with hm | hm
    · exact Or.inl ⟨m, hm, rfl⟩
    · obtain rfl := List.mem_singleton.mp hm
      right
      rintro ⟨q, hq, hlocked⟩
      exact hq (h.exclusive _ _ _ hlocked hi.locked)

theorem commit_messageIds (h : Inv full s) (hi : Inserts s.locks pid t new.message s.db) :
    Rows.Unique (·.id) (commitWrites n new w s.db).messages :=
  Rows.unique_append h.messageIds hi.fresh

theorem commit_mediaIds (h : Inv full s) (ha : Attaches s.locks pid t new.message w s.db) :
    Rows.Unique (·.id) (commitWrites n new w s.db).messageMedia := by
  refine Rows.unique_append_iff.mpr ⟨?_, ha.clonesUnique, ?_⟩
  · exact Rows.unique_updateMany (f := fun m => { m with messageId := some new.message.id })
      (fun _ => rfl) h.mediaIds
  · intro r' hr' c hc
    obtain ⟨r, hr, rfl⟩ := Rows.mem_updateMany.mp hr'
    have hne := ha.clonesFresh c hc r hr
    split <;> exact hne

theorem commit_consistent (h : Inv full s) (hi : Inserts s.locks pid t new.message s.db)
    (ha : Attaches s.locks pid t new.message w s.db) (hs : Consistent s.db) :
    Consistent (commitWrites n new w s.db) := by
  have hnew : new.message ∈ (commitWrites n new w s.db).messages :=
    List.mem_append_right _ (List.mem_singleton.mpr rfl)
  intro r' hr' messageId hbound
  rcases List.mem_append.mp hr' with hr' | hr'
  · obtain ⟨r, hr, rfl⟩ := Rows.mem_updateMany.mp hr'
    by_cases hb : w.bound.contains r.id = true
    · rw [if_pos hb] at hbound ⊢
      obtain ⟨huser, hstatus, _⟩ := ha.unbound h hr hb
      exact ⟨hstatus, new.message, hnew, Option.some.inj hbound, hi.sender.trans huser.symm⟩
    · rw [if_neg hb] at hbound ⊢
      obtain ⟨hstatus, m, hm, hid, hsender⟩ := hs r hr messageId hbound
      exact ⟨hstatus, m, List.mem_append_left _ hm, hid, hsender⟩
  · obtain ⟨huser, hstatus, hmessage⟩ := ha.clones r' hr'
    rw [hmessage] at hbound
    exact ⟨hstatus, new.message, hnew, Option.some.inj hbound, hi.sender.trans huser.symm⟩

/-- After the commit of a transaction that matched all its attachments they are bound. -/
theorem commit_attached (ha : Attaches s.locks pid t new.message w s.db)
    (hfull : ∀ id ∈ t.mediaIds, id ∈ w.bound) :
    Attached t new.message.id (commitWrites n new w s.db) := by
  intro id hid
  obtain ⟨r, hr, rfl, _⟩ := ha.bound id (hfull id hid)
  obtain ⟨r', hr', he⟩ := commit_row w new.message.id hr
  rw [if_pos (List.contains_iff_mem.mpr (hfull _ hid))] at he
  subst he
  exact ⟨_, hr', rfl, rfl⟩

theorem StepOk.commit (h : Inv full s) (hcall : s.calls pid = .attached t n new w) :
    StepOk full s (exec s (.commit pid)) := by
  have hc := h.calls pid
  rw [hcall] at hc
  obtain ⟨hi, ha, hfull⟩ := hc
  have he := commit_evolves (n := n) h hi ha
  have hleave : ∀ c, (∀ locks, CallOk full (commitWrites n new w s.db) locks pid c) →
      Inv full ({ s with db := commitWrites n new w s.db }.leave pid c) := fun c hcall =>
    h.update he (commit_messageIds h hi) (commit_mediaIds h ha) h.exclusive.release
      (fun _ _ hq hl => Locks.mem_release.mpr ⟨hl, hq⟩) (hcall _)
  have hattached : full → Attached t new.message.id (commitWrites n new w s.db) :=
    fun hf => commit_attached ha (hfull hf)
  have hmono : Evolves (fun _ => False) s.db (commitWrites n new w s.db) :=
    he.mono fun _ hf => hf.elim
  simp only [exec, hcall]
  cases t with
  | direct d =>
      refine ⟨hleave _ fun locks => Task.settle_call _ _ full _ locks pid, hmono,
        commit_consistent h hi ha, ?_⟩
      intro t' m hsent hf
      obtain ⟨rfl, hm⟩ := Task.settle_sent hsent
      obtain rfl : new.message = m := (Prod.mk.inj (Except.ok.inj hm)).1
      exact hattached hf
  | group g =>
      exact ⟨hleave _ fun _ _ hf => hattached hf, hmono, commit_consistent h hi ha,
        fun _ _ hsent => by cases hsent⟩

end Commit

/-! ## Every step -/

theorem StepOk.checkTask (h : Inv full s) (pid : Nat) (t : Task) :
    StepOk full s (checkTask s pid t) := by
  cases t with
  | direct d =>
      simp only [Transactions.checkTask]
      split
      · exact .quiet (h.set trivial) rfl
      · exact .abort h pid _ _
  | group g =>
      simp only [Transactions.checkTask]
      split
      · exact .quiet (h.leave fun _ hcreated => by cases hcreated) rfl
      · exact .quiet (h.set trivial) rfl

theorem StepOk.numberTask (h : Inv full s) (ctx : Ctx) (pid : Nat)
    (t : Task) (ids : List Id) : StepOk full s (numberTask ctx s pid t ids) := by
  cases t with
  | direct d =>
      simp only [Transactions.numberTask]
      split
      · exact .lock h trivial
      · exact .abort h pid _ _
  | group g => exact .quiet (h.set trivial) rfl

theorem StepOk.own (h : Inv full s) (ctx : Ctx) {t : Task}
    {n : Numbered} {replyTo : Option Id} (hcall : s.calls pid = .replied t n replyTo) :
    StepOk full s (exec s (.own pid ctx)) := by
  simp only [exec, hcall]
  split
  · rename_i hown
    refine .quiet (h.set ?_) rfl
    intro id hid
    obtain ⟨r, hr, hid', huser, _, hstatus⟩ := assertAttachmentsOwned_ok h.mediaIds hown id hid
    exact ⟨r, hr, hid', huser, hstatus⟩
  · exact .abort h pid _ _

theorem StepOk.insert (h : Inv full s) (ctx : Ctx) {t : Task}
    {n : Numbered} {replyTo : Option Id} (hcall : s.calls pid = .owned t n replyTo) :
    StepOk full s (exec s (.insert pid ctx)) := by
  have howned := h.calls pid
  rw [hcall] at howned
  simp only [exec, hcall]
  split
  · rename_i hcreate
    exact .lock h ⟨howned, inserts_of_create hcreate⟩
  · exact .abort h pid _ _

theorem StepOk.attach (h : Inv full s) (ctx : Ctx) {t : Task}
    {n : Numbered} {new : NewMessage} (hcall : s.calls pid = .inserted t n new)
    (hfree : full → ∀ id ∈ t.mediaIds, mediaBinding id s.db = none) :
    StepOk full s (exec s (.attach pid ctx)) := by
  have hok := h.calls pid
  rw [hcall] at hok
  obtain ⟨howned, hinserts⟩ := hok
  simp only [exec, hcall]
  split
  · rename_i w hw
    refine .lock h ⟨⟨?_, hinserts.fresh, hinserts.sender⟩, attaches_of_writes h howned hw, ?_⟩
    · exact Locks.mem_acquire.mpr (Or.inl hinserts.locked)
    · exact fun hf => bound_of_unbound h howned hw (hfree hf)
  · exact .abort h pid _ _

theorem StepOk.enqueue (h : Inv full s) {t : Task}
    {m : Message} {created : Bool} (hcall : s.calls pid = .enqueueing t m created) :
    StepOk full s (exec s (.enqueue pid)) := by
  have hok := h.calls pid
  rw [hcall] at hok
  simp only [exec, hcall]
  refine .finish h pid t ?_
  intro m' hm hf
  obtain ⟨rfl, rfl⟩ := Prod.mk.inj (Except.ok.inj hm)
  exact hok rfl hf

/-- Every step keeps the invariant and lets rows make progress. -/
theorem step_ok (h : Inv full s) (a : Act) (hc : full → BindsAll s a) :
    StepOk full s (exec s a) := by
  cases a with
  | initUpload now mediaId userId presigned dto =>
      simp only [exec]
      split
      · exact .same h
      · rename_i hfree
        split
        · rename_i hi
          exact .initUpload h (not_locked hfree) hi
        · exact .same h
  | completeUpload pid userId mediaId dto =>
      simp only [exec]
      split
      · split
        · exact .quiet (h.set trivial) rfl
        · exact .same h
      · exact .same h
  | completeMedia pid now =>
      simp only [exec]
      split
      · split
        · exact .same h
        · split
          · rename_i hi
            exact .completeMedia h hi
          · exact .quiet (h.set trivial) rfl
      · exact .same h
  | send pid senderUserId dto =>
      simp only [exec]
      split
      · exact .enter h pid _
      · exact .same h
  | queueGroupMessage pid senderUserId groupId dto =>
      simp only [exec]
      split
      · exact .enter h pid _
      · exact .same h
  | forward pid userId dto =>
      simp only [exec]
      split
      · split
        · exact .same h
        · exact .quiet (h.set trivial) rfl
      · exact .same h
  | target pid =>
      simp only [exec]
      split
      · exact .nextTarget h pid _
      · exact .same h
  | check pid =>
      simp only [exec]
      split
      · exact .checkTask h pid _
      · exact .same h
  | number pid ctx =>
      simp only [exec]
      split
      · exact .numberTask h ctx pid _ _
      · exact .same h
  | replyTarget pid =>
      simp only [exec]
      split
      · split
        · exact .quiet (h.set trivial) rfl
        · exact .abort h pid _ _
      · exact .same h
  | own pid ctx =>
      cases hcall : s.calls pid with
      | replied t n replyTo => exact .own h ctx hcall
      | _ =>
          simp only [exec, hcall]
          exact .same h
  | insert pid ctx =>
      cases hcall : s.calls pid with
      | owned t n replyTo => exact .insert h ctx hcall
      | _ =>
          simp only [exec, hcall]
          exact .same h
  | attach pid ctx =>
      cases hcall : s.calls pid with
      | inserted t n new => exact .attach h ctx hcall fun hf => hc hf t n new hcall
      | _ =>
          simp only [exec, hcall]
          exact .same h
  | commit pid =>
      cases hcall : s.calls pid with
      | attached t n new w => exact .commit h hcall
      | _ =>
          simp only [exec, hcall]
          exact .same h
  | recover pid =>
      simp only [exec]
      split
      · split
        · exact .finish_existing h pid _ _
        · exact .finish_error h pid _ _
      · exact .same h
  | enqueue pid =>
      cases hcall : s.calls pid with
      | enqueueing t m created => exact .enqueue h hcall
      | _ =>
          simp only [exec, hcall]
          exact .same h
  | fail pid e =>
      simp only [exec]
      split
      iterate 9 exact .finish_error h pid _ _
      exact .quiet (h.leave fun _ => trivial) rfl
  | delete pid limit now userId messageId dto =>
      simp only [exec]
      split
      · split
        · exact .same h
        · split
          · exact .quiet (h.set trivial) rfl
          · split
            · exact .same h
            · exact .quiet (h.set trivial) rfl
      · exact .same h
  | deleteWrite pid now =>
      simp only [exec]
      split
      · exact .hide h pid _ _
      · split
        · rename_i hd
          exact .deleteTx h hd
        · exact .quiet (h.set trivial) rfl
      · exact .same h

/-! ## Every run -/

theorem inv_idle (full : Prop) {db : Db} (hmessages : Rows.Unique (·.id) db.messages)
    (hmedia : Rows.Unique (·.id) db.messageMedia) : Inv full (idle db) :=
  ⟨Locks.exclusive_nil, hmessages, hmedia, fun _ => trivial⟩

/-- What a run that meets the condition keeps and reaches. -/
theorem run_ok (acts : List Act) : ∀ {s : State}, Inv full s →
    (full → Along step BindsAll s acts) →
    Inv full (run step s acts) ∧ Evolves (fun _ => False) s.db (run step s acts).db ∧
      (Consistent s.db → Consistent (run step s acts).db) := by
  induction acts with
  | nil =>
      intro s h _
      exact ⟨h, Evolves.refl _ _, fun hs => hs⟩
  | cons a acts ih =>
      intro s h hc
      have hstep := step_ok h a fun hf => ((along_cons step BindsAll s a acts).mp (hc hf)).1
      obtain ⟨hinv, hevolves, hconsistent⟩ := ih hstep.inv
        fun hf => ((along_cons step BindsAll s a acts).mp (hc hf)).2
      exact ⟨hinv, hstep.evolves.trans hevolves, fun hs => hconsistent (hstep.consistent hs)⟩

/-- A binding is never taken back or changed. -/
theorem mediaBinding_evolves {held : Lock → Prop} {db db' : Db} (he : Evolves held db db')
    (hu : Rows.Unique (·.id) db'.messageMedia) {r : MessageMedia} (hr : r ∈ db.messageMedia)
    {messageId : Id} (hbound : r.messageId = some messageId) :
    mediaBinding r.id db' = some messageId := by
  obtain ⟨r', hr', hp, _⟩ := he.rows r hr
  rw [← hp.id, mediaBinding_eq hu hr']
  exact hp.bound messageId hbound

/-- In every run from a store without messages and attachments, a bound row stays bound to
its message, is complete, and belongs to the sender of that message. -/
theorem binding_write_once (db : Db) (pre post : List Act) :
    (∀ r ∈ (run step (start db) pre).db.messageMedia, ∀ messageId, r.messageId = some messageId →
      mediaBinding r.id (run step (start db) (pre ++ post)).db = some messageId) ∧
    ∀ r ∈ (run step (start db) pre).db.messageMedia, ∀ messageId, r.messageId = some messageId →
      r.uploadStatus = .complete ∧
      ((run step (start db) pre).db.messages.find? (·.id == messageId)).map (·.senderUserId) =
        some r.userId := by
  have hstart : Inv False (start db) := inv_idle False List.nodup_nil List.nodup_nil
  obtain ⟨hpre, _, hconsistent⟩ := run_ok pre hstart False.elim
  obtain ⟨hpost, hevolves, _⟩ := run_ok post hpre False.elim
  rw [run_append]
  constructor
  · intro r hr messageId hbound
    exact mediaBinding_evolves hevolves hpost.mediaIds hr hbound
  · intro r hr messageId hbound
    have hempty : Consistent (start db).db := fun x hx => by cases hx
    obtain ⟨hstatus, m, hm, rfl, hsender⟩ := hconsistent hempty r hr messageId hbound
    refine ⟨hstatus, ?_⟩
    rw [hpre.messageIds.find?_eq hm, Option.map_some, hsender]

/-- Once a request that created a message has returned, its attachments are bound to the
message in every state of the run. -/
def KeepsAttachments (db : Db) (acts : List Act) : Prop :=
  ∀ pre a post t m, pre ++ a :: post <+: acts →
    answer (run step (idle db) pre) a = some (.sent t m true) →
    ∀ id ∈ t.mediaIds, mediaBinding id (run step (idle db) (pre ++ a :: post)).db = some m.id

/-- Where every binding update finds the attachments of its request unbound, a message that
a request created and answered keeps them. -/
theorem sent_message_keeps_attachments {db : Db} (hmessages : Rows.Unique (·.id) db.messages)
    (hmedia : Rows.Unique (·.id) db.messageMedia) {acts : List Act}
    (hc : Along step BindsAll (idle db) acts) : KeepsAttachments db acts := by
  intro pre a post t m hprefix hsent
  obtain ⟨later, rfl⟩ := hprefix
  have hrun := ((along_append step BindsAll (pre ++ a :: post) later (idle db)).mp hc).1
  obtain ⟨hpre, hrest⟩ := (along_append step BindsAll pre (a :: post) (idle db)).mp hrun
  obtain ⟨ha, hpost⟩ := (along_cons step BindsAll _ a post).mp hrest
  obtain ⟨hinv, _, _⟩ := run_ok pre (inv_idle True hmessages hmedia) fun _ => hpre
  have hstep := step_ok hinv a fun _ => ha
  obtain ⟨hlast, hevolves, _⟩ := run_ok post hstep.inv fun _ => hpost
  intro id hid
  obtain ⟨r, hr, rfl, hbound⟩ := hstep.answered t m hsent trivial id hid
  rw [run_append, run_cons]
  exact mediaBinding_evolves hevolves hlast.mediaIds hr hbound

/-- The sample store with a picture that Alice has uploaded. -/
def picturesDb : Db :=
  { sampleDb with
    messageMedia :=
      [{ id := "p1", userId := "alice", mediaType := .image, bucketKey := "media/alice/p1.jpg"
         mimeType := "image/jpeg", sizeBytes := 100, filename := "p1.jpg"
         mediaCiphertextHash := "h1", uploadStatus := .complete, uploadedAt := some 5
         createdAt := 4 }] }

/-- Alice sends the picture to Bob. -/
def sendPicture (pid : Nat) : Act :=
  .send pid "alice" { sampleDto "send-key-1" with mediaIds := ["p1"] }

/-- Alice sends the picture to the group. -/
def groupPicture (pid : Nat) : Act :=
  .queueGroupMessage pid "alice" "g1"
    { senderDeviceId := "d1", idempotencyKey := "group-key-1", ciphertext := "c"
      mediaIds := ["p1"] }

/-- The statements of a transaction up to its insert, and the two that follow. -/
def upToInsert (pid : Nat) (ctx : Ctx) : List Act :=
  [.check pid, .number pid ctx, .replyTarget pid, .own pid ctx, .insert pid ctx]

def bindAndCommit (pid : Nat) (ctx : Ctx) : List Act := [.attach pid ctx, .commit pid]

/-- Both requests read that the picture is free before either binds it. -/
def sharedPicture : List Act :=
  [sendPicture 0, groupPicture 1] ++ upToInsert 0 (sampleCtx "m1") ++
    upToInsert 1 (sampleCtx "m2") ++ bindAndCommit 0 (sampleCtx "m1") ++
    bindAndCommit 1 (sampleCtx "m2")

/-- The group message is accepted without the picture it was sent with. -/
theorem shared_attachment_is_lost :
    ¬ ∀ (db : Db) (acts : List Act), Rows.Unique (·.id) db.messages →
      Rows.Unique (·.id) db.messageMedia → KeepsAttachments db acts := by
  intro h
  have hlost := h picturesDb (sharedPicture ++ [.enqueue 1]) (by decide) (by decide) sharedPicture
    (.enqueue 1) [] _ _ (List.prefix_refl _) rfl "p1" (by decide)
  revert hlost
  decide

/-- The sample store with a second picture of Alice. -/
def twoPicturesDb : Db :=
  { picturesDb with
    messageMedia := picturesDb.messageMedia ++
      [{ id := "p2", userId := "alice", mediaType := .image, bucketKey := "media/alice/p2.jpg"
         mimeType := "image/jpeg", sizeBytes := 200, filename := "p2.jpg"
         mediaCiphertextHash := "h2", uploadStatus := .complete, uploadedAt := some 6
         createdAt := 5 }] }

/-- Alice sends the second picture to the group. -/
def secondPicture (pid : Nat) : Act :=
  .queueGroupMessage pid "alice" "g1"
    { senderDeviceId := "d1", idempotencyKey := "group-key-1", ciphertext := "c"
      mediaIds := ["p2"] }

/-- Both transactions are open when the first of them binds. -/
def ownPictures : List Act :=
  [sendPicture 0, secondPicture 1] ++ upToInsert 0 (sampleCtx "m1") ++
    upToInsert 1 (sampleCtx "m2") ++ bindAndCommit 0 (sampleCtx "m1") ++
    bindAndCommit 1 (sampleCtx "m2") ++ [.enqueue 1]

/-- Two requests that overlap, each with a picture of its own, keep their pictures. -/
theorem overlapping_requests_keep_attachments :
    ((run step (idle twoPicturesDb) ownPictures).db.messages.map (·.id) = ["m1", "m2"] ∧
      mediaBinding "p1" (run step (idle twoPicturesDb) ownPictures).db = some "m1" ∧
      mediaBinding "p2" (run step (idle twoPicturesDb) ownPictures).db = some "m2") ∧
    KeepsAttachments twoPicturesDb ownPictures := by
  refine ⟨by decide, sent_message_keeps_attachments (by decide) (by decide) ?_⟩
  simp only [ownPictures, sendPicture, secondPicture, upToInsert, bindAndCommit, List.cons_append,
    List.nil_append, along_cons]
  refine ⟨trivial, trivial, trivial, trivial, trivial, trivial, trivial, trivial, trivial, trivial,
    trivial, trivial, ?_, trivial, ?_, trivial, trivial, along_nil _ _ _⟩
  · intro t n new hcall
    cases hcall
    decide
  · intro t n new hcall
    cases hcall
    decide

end Birgap.Messaging.Transactions
