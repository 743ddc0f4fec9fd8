import Birgap.Messaging.Attachments
import Birgap.Messaging.Objects

/-!
# The attachment rows under every statement

What one statement does to the table of attachments, and where the rows come from that a
forward carries to its clones. Most statements leave the table alone; the others announce an
upload, complete one, or commit a message with what it binds and clones.
-/
namespace Birgap.Messaging.Transactions

set_option autoImplicit false

open Birgap.Lib Birgap.Messages

/-- What a statement leaves in the table of attachments. -/
inductive MediaStep (s : State) (a : Act) (rows : List MessageMedia) : Prop where
  | same (hr : rows = s.db.messageMedia)
  | announced {now : Time} {mediaId userId : Id} {presigned : PresignedUpload} {dto : InitMediaDto}
      (ha : a = .initUpload now mediaId userId presigned dto)
      (hr : rows = s.db.messageMedia ++ [pendingMedia now mediaId userId presigned dto])
  | completed {pid : Nat} {now : Time} {mediaId : Id} {dto : CompleteMediaDto}
      (ha : a = .completeMedia pid now) (hc : s.calls pid = .completing mediaId dto)
      (hr : rows = Rows.updateMany (·.id == mediaId) (completed now dto) s.db.messageMedia)
  | committed {pid : Nat} {t : Task} {n : Numbered} {new : NewMessage} {w : MediaWrites}
      (hc : s.calls pid = .attached t n new w)
      (hr : rows = w.write new.message.id s.db.messageMedia)

/-- The attachment rows a call has read to clone them, and its clones. -/
def Call.sources : Call → List MessageMedia
  | .entered t => t.sourceMedia
  | .checked t _ => t.sourceMedia
  | .numbered t _ => t.sourceMedia
  | .replied t _ _ => t.sourceMedia
  | .owned t _ _ => t.sourceMedia
  | .inserted t _ _ => t.sourceMedia
  | .attached t _ _ w => t.sourceMedia ++ w.clones
  | .recovering t => t.sourceMedia
  | .enqueueing t _ _ => t.sourceMedia
  | .forwarding f => f.sourceMedia
  | _ => []

/-- The keys of a row are those of a row the call had before, or of a bound attachment. -/
def Known (s : State) (pid : Nat) (y : MessageMedia) : Prop :=
  (∃ x ∈ (s.calls pid).sources, keysOf x = keysOf y) ∨
    (y ∈ s.db.messageMedia ∧ y.messageId.isSome)

/-- One call has moved on, over rows it knew, and left the attachments alone. -/
structure Moves (s : State) (pid : Nat) (s' : State) : Prop where
  media : s'.db.messageMedia = s.db.messageMedia
  others : ∀ q, q ≠ pid → s'.calls q = s.calls q
  sources : ∀ y ∈ (s'.calls pid).sources, Known s pid y

section Moves

variable {s : State} {pid : Nat}

theorem Known.of_mem {y : MessageMedia} (h : y ∈ (s.calls pid).sources) : Known s pid y :=
  .inl ⟨y, h, rfl⟩

theorem Moves.refl (s : State) (pid : Nat) : Moves s pid s :=
  ⟨rfl, fun _ _ => rfl, fun _ hy => .of_mem hy⟩

theorem Moves.update {s' : State} {c : Call} (hmedia : s'.db.messageMedia = s.db.messageMedia)
    (hcalls : s'.calls = Function.update s.calls pid c)
    (hc : ∀ y ∈ c.sources, Known s pid y) : Moves s pid s' := by
  refine ⟨hmedia, ?_, ?_⟩
  · intro q hq
    rw [hcalls, Function.update_of_ne hq]
  · rw [hcalls, Function.update_self]
    exact hc

theorem Moves.set {c : Call} (hc : ∀ y ∈ c.sources, Known s pid y) :
    Moves s pid (s.set pid c) :=
  .update rfl rfl hc

theorem Moves.leave {c : Call} (hc : ∀ y ∈ c.sources, Known s pid y) :
    Moves s pid (s.leave pid c) :=
  .update rfl rfl hc

theorem Moves.lock {ks : List Lock} {c : Call} (hc : ∀ y ∈ c.sources, Known s pid y) :
    Moves s pid (s.lock pid ks c) := by
  unfold State.lock
  split
  · exact .update rfl rfl hc
  · exact .refl s pid

theorem settle_sources (t : Task) (outcome : Except Err (Message × Bool)) {y : MessageMedia}
    (h : y ∈ (t.settle outcome).1.sources) : y ∈ t.sourceMedia := by
  unfold Task.settle at h
  unfold Task.sourceMedia
  cases hf : t.forwarding with
  | none =>
      rw [hf] at h
      cases outcome <;> cases h
  | some f =>
      rw [hf] at h
      cases outcome <;> simpa [Call.sources, Forwarding.push_sourceMedia] using h

theorem Moves.finish {t : Task} (ht : ∀ y ∈ t.sourceMedia, Known s pid y)
    (outcome : Except Err (Message × Bool)) : Moves s pid (s.finish pid (t.settle outcome)).1 :=
  .leave fun y hy => ht y (settle_sources t outcome hy)

theorem Moves.abort {t : Task} (ht : ∀ y ∈ t.sourceMedia, Known s pid y) (e : Err) :
    Moves s pid (s.abort pid t e).1 := by
  unfold State.abort
  split
  · exact .leave ht
  · exact .finish ht _

theorem Moves.enter {t : Task} (ht : ∀ y ∈ t.sourceMedia, Known s pid y) :
    Moves s pid (enter s pid t).1 := by
  rcases enter_cases s pid t with ⟨_, _, _, he⟩ | ⟨_, ⟨existing, _, he⟩ | ⟨_, he⟩⟩
  · rw [he]
    exact .finish ht _
  · rw [he]
    exact .finish ht _
  · rw [he]
    exact .set ht

theorem push_sources {f : Forwarding} (hf : ∀ y ∈ f.sourceMedia, Known s pid y)
    (outcome : Except Err Id) : ∀ y ∈ (Call.forwarding (f.push outcome)).sources, Known s pid y := by
  intro y hy
  rw [Call.sources, f.push_sourceMedia] at hy
  exact hf y hy

theorem Moves.nextTarget {f : Forwarding} (hf : ∀ y ∈ f.sourceMedia, Known s pid y) :
    Moves s pid (nextTarget s pid f).1 := by
  unfold Transactions.nextTarget
  split
  · exact .set fun y hy => by cases hy
  · split
    · split
      · exact .set (push_sources hf _)
      · exact .enter hf
    · split
      · exact .set (push_sources hf _)
      · exact .enter hf

theorem Moves.checkTask {t : Task} (ht : ∀ y ∈ t.sourceMedia, Known s pid y) :
    Moves s pid (checkTask s pid t).1 := by
  cases t with
  | direct d =>
      simp only [Transactions.checkTask]
      split
      · exact .set ht
      · exact .abort ht _
  | group g =>
      simp only [Transactions.checkTask]
      split
      · exact .leave ht
      · exact .set ht

theorem Moves.numberTask {t : Task} (ht : ∀ y ∈ t.sourceMedia, Known s pid y) (ctx : Ctx)
    (recipientDeviceIds : List Id) : Moves s pid (numberTask ctx s pid t recipientDeviceIds).1 := by
  cases t with
  | direct d =>
      simp only [Transactions.numberTask]
      split
      · exact .lock ht
      · exact .abort ht _
  | group g => exact .set ht

/-- A clone has the keys of the row it was made of. -/
theorem keysOf_forwardClones {ctx : Ctx} {userId messageId : Id} {source : List MessageMedia}
    {c : MessageMedia} (h : c ∈ forwardClones ctx userId messageId source) :
    ∃ x ∈ source, keysOf x = keysOf c := by
  obtain ⟨⟨x, i⟩, hx, rfl⟩ := List.mem_map.mp h
  exact ⟨x, List.fst_mem_of_mem_zipIdx hx, rfl⟩

end Moves

/-! ## Every statement -/

/-- What a statement does to the table, and to the rows of every call. -/
structure MediaEffect (s : State) (a : Act) (s' : State) : Prop where
  media : MediaStep s a s'.db.messageMedia
  sources : ∀ q, ∀ y ∈ (s'.calls q).sources, Known s q y

section Effect

variable {s : State} {a : Act} {pid : Nat}

theorem Moves.effect {s' : State} (h : Moves s pid s') : MediaEffect s a s' := by
  refine ⟨.same h.media, ?_⟩
  intro q y hy
  by_cases hq : q = pid
  · rw [hq] at hy ⊢
    exact h.sources y hy
  · rw [h.others q hq] at hy
    exact .of_mem hy

theorem MediaEffect.refl (s : State) (a : Act) : MediaEffect s a s :=
  (Moves.refl s 0).effect

/-- A statement that writes, and leaves its call with no rows but those of its task. -/
theorem MediaEffect.write {s' : State} {c : Call} (hm : MediaStep s a s'.db.messageMedia)
    (hcalls : s'.calls = Function.update s.calls pid c)
    (hc : ∀ y ∈ c.sources, Known s pid y) : MediaEffect s a s' := by
  refine ⟨hm, ?_⟩
  intro q y hy
  by_cases hq : q = pid
  · rw [hq] at hy ⊢
    rw [hcalls, Function.update_self] at hy
    exact hc y hy
  · rw [hcalls, Function.update_of_ne hq] at hy
    exact .of_mem hy

/-- The rows of the task are among those of the call. -/
theorem known_of_call {c : Call} {t : Task} (hcall : s.calls pid = c)
    (ht : ∀ y ∈ t.sourceMedia, y ∈ c.sources) : ∀ y ∈ t.sourceMedia, Known s pid y :=
  fun y hy => .of_mem (by rw [hcall]; exact ht y hy)

theorem exec_media (s : State) (a : Act) : MediaEffect s a (exec s a).1 := by
  cases a with
  | initUpload now mediaId userId presigned dto =>
      simp only [exec]
      split
      · exact .refl s _
      · split
        · rename_i r db hi
          unfold Messages.initUpload at hi
          split at hi
          · cases hi
          · obtain ⟨_, rfl⟩ := Prod.mk.inj (Except.ok.inj hi)
            exact ⟨.announced rfl rfl, fun q y hy => .of_mem hy⟩
        · exact .refl s _
  | completeUpload pid userId mediaId dto =>
      simp only [exec]
      split
      · split
        · exact Moves.effect (.set fun y hy => by cases hy)
        · exact .refl s _
      · exact .refl s _
  | completeMedia pid now =>
      simp only [exec]
      split
      · rename_i mediaId dto hcall
        split
        · exact .refl s _
        · split
          · rename_i r db hi
            unfold Messages.completeMedia at hi
            simp only at hi
            split at hi
            · cases hi
            · obtain ⟨_, rfl⟩ := Prod.mk.inj (Except.ok.inj hi)
              exact .write (.completed rfl hcall rfl) rfl fun y hy => by cases hy
          · exact Moves.effect (.set fun y hy => by cases hy)
      · exact .refl s _
  | send pid senderUserId dto =>
      simp only [exec]
      split
      · exact Moves.effect (.enter fun y hy => by cases hy)
      · exact .refl s _
  | queueGroupMessage pid senderUserId groupId dto =>
      simp only [exec]
      split
      · exact Moves.effect (.enter fun y hy => by cases hy)
      · exact .refl s _
  | forward pid userId dto =>
      simp only [exec]
      split
      · split
        · exact .refl s _
        · rename_i f hf
          refine Moves.effect (.set ?_)
          intro y hy
          obtain ⟨hmem, hid⟩ := startForward_media hf y hy
          exact .inr ⟨hmem, by rw [hid]; rfl⟩
      · exact .refl s _
  | target pid =>
      simp only [exec]
      split
      · rename_i f hcall
        exact Moves.effect (.nextTarget fun y hy => .of_mem (by rw [hcall]; exact hy))
      · exact .refl s _
  | check pid =>
      simp only [exec]
      split
      · rename_i t hcall
        exact Moves.effect (.checkTask (known_of_call hcall fun _ hy => hy))
      · exact .refl s _
  | number pid ctx =>
      simp only [exec]
      split
      · rename_i t ids hcall
        exact Moves.effect (.numberTask (known_of_call hcall fun _ hy => hy) ctx ids)
      · exact .refl s _
  | replyTarget pid =>
      simp only [exec]
      split
      · rename_i t n hcall
        have ht := known_of_call (t := t) hcall fun _ hy => hy
        split
        · exact Moves.effect (.set ht)
        · exact Moves.effect (.abort ht _)
      · exact .refl s _
  | own pid ctx =>
      simp only [exec]
      split
      · rename_i t n replyTo hcall
        have ht := known_of_call (t := t) hcall fun _ hy => hy
        split
        · exact Moves.effect (.set ht)
        · exact Moves.effect (.abort ht _)
      · exact .refl s _
  | insert pid ctx =>
      simp only [exec]
      split
      · rename_i t n replyTo hcall
        have ht := known_of_call (t := t) hcall fun _ hy => hy
        split
        · exact Moves.effect (.lock ht)
        · exact Moves.effect (.abort ht _)
      · exact .refl s _
  | attach pid ctx =>
      simp only [exec]
      split
      · rename_i t n new hcall
        have ht := known_of_call (t := t) hcall fun _ hy => hy
        split
        · rename_i w hw
          refine Moves.effect (.lock ?_)
          intro y hy
          rcases List.mem_append.mp hy with hy | hy
          · exact ht y hy
          · rw [(mediaWrites_ok hw).2.1] at hy
            obtain ⟨x, hx, hkeys⟩ := keysOf_forwardClones hy
            exact .inl ⟨x, by rw [hcall]; exact hx, hkeys⟩
        · exact Moves.effect (.abort ht _)
      · exact .refl s _
  | commit pid =>
      simp only [exec]
      split
      · rename_i t n new w hcall
        have ht : ∀ y ∈ t.sourceMedia, Known s pid y :=
          known_of_call hcall fun _ hy => List.mem_append_left _ hy
        cases t with
        | direct d =>
            exact .write (.committed hcall rfl) rfl fun y hy =>
              ht y (settle_sources (.direct d) _ hy)
        | group g => exact .write (.committed hcall rfl) rfl ht
      · exact .refl s _
  | recover pid =>
      simp only [exec]
      split
      · rename_i t hcall
        have ht := known_of_call (t := t) hcall fun _ hy => hy
        split
        · exact Moves.effect (.finish ht _)
        · exact Moves.effect (.finish ht _)
      · exact .refl s _
  | enqueue pid =>
      simp only [exec]
      split
      · rename_i t m created hcall
        exact Moves.effect (.finish (known_of_call hcall fun _ hy => hy) _)
      · exact .refl s _
  | fail pid e =>
      cases hcall : s.calls pid with
      | entered t | checked t _ | numbered t _ | replied t _ _ | owned t _ _ | inserted t _ _
      | recovering t | enqueueing t _ _ =>
          simp only [exec, hcall]
          exact Moves.effect (.finish (known_of_call hcall fun _ hy => hy) _)
      | attached t n new w =>
          simp only [exec, hcall]
          exact Moves.effect (.finish (known_of_call hcall fun _ hy => List.mem_append_left _ hy) _)
      | _ =>
          simp only [exec, hcall]
          exact Moves.effect (.leave fun y hy => by cases hy)
  | delete pid limit now userId messageId dto =>
      simp only [exec]
      split
      · split
        · exact .refl s _
        · split
          · exact Moves.effect (.set fun y hy => by cases hy)
          · split
            · exact .refl s _
            · exact Moves.effect (.set fun y hy => by cases hy)
      · exact .refl s _
  | deleteWrite pid now =>
      simp only [exec]
      split
      · rename_i userId messageId hcall
        rw [hideMessage_frame]
        exact .write (.same rfl) rfl fun y hy => by cases hy
      · split
        · rename_i m db hd
          rw [deleteTx_ok hd]
          exact .write (.same rfl) rfl fun y hy => by cases hy
        · exact Moves.effect (.set fun y hy => by cases hy)
      · exact .refl s _

end Effect

end Birgap.Messaging.Transactions
