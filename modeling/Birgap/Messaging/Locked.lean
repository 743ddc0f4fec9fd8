import Birgap.Messaging.Attachments

/-!
# Who holds a lock

A lock is held by a call whose transaction has written what it protects, and a group
transaction never holds a number beyond the next one. So a request waits for a transaction
that is past its insert, and for nobody else.
-/
namespace Birgap.Messaging.Transactions

set_option autoImplicit false

open Birgap.Lib Birgap.Lib.Run Birgap.Messages Birgap.Groups

/-! ## The next number of a group -/

/-- Every message is still there, in its group and with its number. -/
def KeepsNumbers (db db' : Db) : Prop :=
  ∀ m ∈ db.messages, ∃ m' ∈ db'.messages,
    m'.groupId = m.groupId ∧ m'.threadSequence = m.threadSequence

theorem nextSequence_mono {db db' : Db} (h : KeepsNumbers db db') (groupId : Id) :
    nextSequence groupId db ≤ nextSequence groupId db' := by
  have hpos : 1 ≤ nextSequence groupId db' := by
    unfold nextSequence
    split <;> omega
  conv_lhs => unfold nextSequence
  split
  · exact hpos
  · rename_i newest hnewest
    obtain ⟨hmem, hg⟩ := List.mem_filter.mp (Rows.newest_mem hnewest)
    obtain ⟨m', hm', hg', hn'⟩ := h newest hmem
    have hlt := lt_nextSequence hm' (hg'.trans (by simpa using hg))
    omega

theorem keepsNumbers_of_eq {db db' : Db} (h : db'.messages = db.messages) : KeepsNumbers db db' :=
  fun m hm => ⟨m, by rwa [h], rfl, rfl⟩

theorem keepsNumbers_commit (n : Numbered) (new : NewMessage) (w : MediaWrites) (db : Db) :
    KeepsNumbers db (commitWrites n new w db) :=
  fun m hm => ⟨m, List.mem_append_left _ hm, rfl, rfl⟩

/-! ## The locks of a call -/

/-- A numbered direct transaction has the pair and the row of its thread. -/
def Task.numberLocks (t : Task) (n : Numbered) : List Lock :=
  match t with
  | .direct d => .pair (DirectTask.pair d).1 (DirectTask.pair d).2 ::
      (n.threads.map fun w => .threadId w.threadId).toList
  | .group _ => []

def Call.locks : Call → List Lock
  | .numbered t n => t.numberLocks n
  | .replied t n _ => t.numberLocks n
  | .owned t n _ => t.numberLocks n
  | .inserted t n new => t.numberLocks n ++ new.locks
  | .attached t n new w => t.numberLocks n ++ new.locks ++ w.locks
  | _ => []

/-- The number of a group transaction, with its group. -/
def Task.groupNumber (t : Task) (n : Numbered) : Option (Id × Nat) :=
  match t with
  | .direct _ => none
  | .group g => some (g.request.groupId, n.sequence)

def NewMessage.groupNumber (new : NewMessage) : Option (Id × Nat) :=
  new.message.groupId.map fun groupId => (groupId, new.message.threadSequence)

def Call.groupNumber : Call → Option (Id × Nat)
  | .numbered t n => t.groupNumber n
  | .replied t n _ => t.groupNumber n
  | .owned t n _ => t.groupNumber n
  | .inserted _ _ new => new.groupNumber
  | .attached _ _ new _ => new.groupNumber
  | _ => none

theorem newMessage_groupNumber (ctx : Ctx) (t : Task) (n : Numbered) (replyTo : Option Id) :
    (t.newMessage ctx n replyTo).groupNumber = t.groupNumber n := by
  cases t with
  | direct d => cases d <;> rfl
  | group g => cases g <;> rfl

/-- A call has no number beyond the next one. -/
def NumberOk (db : Db) (c : Call) : Prop :=
  ∀ groupId k, c.groupNumber = some (groupId, k) → k ≤ nextSequence groupId db

theorem NumberOk.mono {db db' : Db} {c : Call} (h : NumberOk db c) (hk : KeepsNumbers db db') :
    NumberOk db' c :=
  fun groupId k hc => (h groupId k hc).trans (nextSequence_mono hk groupId)

theorem numberOk_none (db : Db) {c : Call} (h : c.groupNumber = none) : NumberOk db c := by
  intro groupId k hc
  cases h.symm.trans hc

structure Locked (s : State) : Prop where
  held : ∀ l q, (l, q) ∈ s.locks → l ∈ (s.calls q).locks
  numbers : ∀ q, NumberOk s.db (s.calls q)

theorem NewMessage.number_of_lock {new : NewMessage} {groupId : Id} {k : Nat}
    (h : .groupSequence groupId k ∈ new.locks) : new.groupNumber = some (groupId, k) := by
  unfold NewMessage.locks at h
  unfold NewMessage.groupNumber
  cases hg : new.message.groupId with
  | none => simp [hg] at h
  | some g =>
      simp only [hg, Option.map_some, Option.toList_some, List.mem_append, List.mem_cons,
        List.mem_map] at h
      simp_all

theorem Task.numberLocks_group (t : Task) (n : Numbered) (groupId : Id) (k : Nat) :
    .groupSequence groupId k ∉ t.numberLocks n := by
  cases t with
  | direct d => simp [Task.numberLocks]
  | group g => simp [Task.numberLocks]

theorem MediaWrites.locks_group (w : MediaWrites) (groupId : Id) (k : Nat) :
    .groupSequence groupId k ∉ w.locks := by
  simp [MediaWrites.locks]

/-- The number a call holds a group lock for is its own. -/
theorem Call.number_of_lock {c : Call} {groupId : Id} {k : Nat}
    (h : .groupSequence groupId k ∈ c.locks) : c.groupNumber = some (groupId, k) := by
  cases c with
  | numbered t n => exact absurd h (t.numberLocks_group n groupId k)
  | replied t n replyTo => exact absurd h (t.numberLocks_group n groupId k)
  | owned t n replyTo => exact absurd h (t.numberLocks_group n groupId k)
  | inserted t n new =>
      rcases List.mem_append.mp h with h | h
      · exact absurd h (t.numberLocks_group n groupId k)
      · exact NewMessage.number_of_lock h
  | attached t n new w =>
      rcases List.mem_append.mp h with h | h
      · rcases List.mem_append.mp h with h | h
        · exact absurd h (t.numberLocks_group n groupId k)
        · exact NewMessage.number_of_lock h
      · exact absurd h (w.locks_group groupId k)
  | _ => cases h

/-- A group lock that is held has no number beyond the next one. -/
theorem Locked.group_le {s : State} (h : Locked s) {groupId : Id} {k q : Nat}
    (hl : (.groupSequence groupId k, q) ∈ s.locks) : k ≤ nextSequence groupId s.db :=
  h.numbers q groupId k (Call.number_of_lock (h.held _ q hl))

/-! ## One step -/

section Steps

variable {s : State} {pid : Nat}

/-- One call moves on, and the store with it. -/
theorem Locked.update (h : Locked s) {db : Db} {c : Call} {locks : Locks.Table Lock}
    (hdb : KeepsNumbers s.db db) (hothers : ∀ l q, q ≠ pid → (l, q) ∈ locks → (l, q) ∈ s.locks)
    (hown : ∀ l, (l, pid) ∈ locks → l ∈ c.locks) (hc : NumberOk db c) :
    Locked { db, calls := Function.update s.calls pid c, locks } := by
  constructor
  · intro l q hl
    show l ∈ (Function.update s.calls pid c q).locks
    by_cases hq : q = pid
    · subst hq
      rw [Function.update_self]
      exact hown l hl
    · rw [Function.update_of_ne hq]
      exact h.held l q (hothers l q hq hl)
  · intro q
    show NumberOk db (Function.update s.calls pid c q)
    by_cases hq : q = pid
    · rw [hq, Function.update_self]
      exact hc
    · rw [Function.update_of_ne hq]
      exact (h.numbers q).mono hdb

theorem Locked.set (h : Locked s) {c : Call} (hl : ∀ l ∈ (s.calls pid).locks, l ∈ c.locks)
    (hc : NumberOk s.db c) : Locked (s.set pid c) :=
  h.update (keepsNumbers_of_eq rfl) (fun _ _ _ hl => hl) (fun l hheld => hl l (h.held l pid hheld)) hc

/-- Leaving a transaction gives all its locks back. -/
theorem Locked.leave (h : Locked s) {db : Db} (hdb : KeepsNumbers s.db db) {c : Call}
    (hc : NumberOk db c) : Locked ({ s with db := db }.leave pid c) :=
  h.update hdb (fun _ _ _ hl => (Locks.mem_release.mp hl).1)
    (fun _ hl => absurd rfl (Locks.mem_release.mp hl).2) hc

theorem Locked.lock (h : Locked s) {ks : List Lock} {c : Call}
    (hl : ∀ l ∈ (s.calls pid).locks, l ∈ c.locks) (hks : ∀ l ∈ ks, l ∈ c.locks)
    (hc : NumberOk s.db c) : Locked (s.lock pid ks c) := by
  unfold State.lock
  split
  · refine h.update (keepsNumbers_of_eq rfl) ?_ ?_ hc
    · intro l q hq hmem
      rcases Locks.mem_acquire.mp hmem with hmem | ⟨_, he⟩
      · exact hmem
      · exact absurd he hq
    · intro l hmem
      rcases Locks.mem_acquire.mp hmem with hmem | ⟨hmem, _⟩
      · exact hl l (h.held l pid hmem)
      · exact hks l hmem
  · exact h

theorem Locked.write (h : Locked s) {db : Db} (hdb : KeepsNumbers s.db db) :
    Locked { s with db := db } :=
  ⟨h.held, fun q => (h.numbers q).mono hdb⟩

theorem Task.settle_number (t : Task) (outcome : Except Err (Message × Bool)) (db : Db) :
    NumberOk db (t.settle outcome).1 := by
  apply numberOk_none
  unfold Task.settle
  cases t.forwarding <;> cases outcome <;> rfl

theorem Locked.finish (h : Locked s) {db : Db} (hdb : KeepsNumbers s.db db) (pid : Nat) (t : Task)
    (outcome : Except Err (Message × Bool)) :
    Locked ({ s with db := db }.finish pid (t.settle outcome)).1 :=
  h.leave hdb (t.settle_number outcome db)

theorem Locked.abort (h : Locked s) (pid : Nat) (t : Task) (e : Err) :
    Locked (s.abort pid t e).1 := by
  unfold State.abort
  split
  · exact h.leave (keepsNumbers_of_eq rfl) (numberOk_none _ rfl)
  · exact h.finish (keepsNumbers_of_eq rfl) pid t _

/-- A call outside its transaction moves on to another place outside. -/
theorem Locked.move (h : Locked s) {c : Call} (hbefore : (s.calls pid).locks = [])
    (hc : c.groupNumber = none) : Locked (s.set pid c) := by
  refine h.set ?_ (numberOk_none _ hc)
  intro l hl
  rw [hbefore] at hl
  cases hl

theorem Locked.enter (h : Locked s) (hbefore : (s.calls pid).locks = []) (t : Task) :
    Locked (enter s pid t).1 := by
  rcases enter_cases s pid t with ⟨_, _, _, he⟩ | ⟨_, ⟨existing, _, he⟩ | ⟨_, he⟩⟩
  · rw [he]
    exact h.finish (keepsNumbers_of_eq rfl) pid t _
  · rw [he]
    exact h.finish (keepsNumbers_of_eq rfl) pid t _
  · rw [he]
    exact h.move hbefore rfl

theorem Locked.nextTarget (h : Locked s) (hbefore : (s.calls pid).locks = []) (f : Forwarding) :
    Locked (nextTarget s pid f).1 := by
  unfold Transactions.nextTarget
  split
  · exact h.move hbefore rfl
  · split
    · split
      · exact h.move hbefore rfl
      · exact h.enter hbefore _
    · split
      · exact h.move hbefore rfl
      · exact h.enter hbefore _

theorem keepsNumbers_deleteTx {db db' : Db} {now : Time} {userId messageId : Id} {who : DeletedBy}
    {m : Message} (h : deleteTx now userId messageId who db = .ok (m, db')) :
    KeepsNumbers db db' := by
  intro x hx
  rw [deleteTx_ok h]
  refine ⟨_, Rows.mem_updateMany.mpr ⟨x, hx, rfl⟩, ?_⟩
  split <;> exact ⟨rfl, rfl⟩

theorem keepsNumbers_upload {db db' : Db} {now : Time} {mediaId userId : Id}
    {presigned : PresignedUpload} {dto : InitMediaDto} {r : Id × PresignedUpload}
    (h : Messages.initUpload now mediaId userId presigned dto db = .ok (r, db')) :
    KeepsNumbers db db' := by
  unfold Messages.initUpload at h
  split at h
  · cases h
  · obtain ⟨_, rfl⟩ := Prod.mk.inj (Except.ok.inj h)
    exact keepsNumbers_of_eq rfl

theorem keepsNumbers_complete {db db' : Db} {now : Time} {mediaId : Id} {dto : CompleteMediaDto}
    {r : MessageMedia} (h : Messages.completeMedia now mediaId dto db = .ok (r, db')) :
    KeepsNumbers db db' := by
  unfold Messages.completeMedia at h
  simp only at h
  split at h
  · cases h
  · obtain ⟨_, rfl⟩ := Prod.mk.inj (Except.ok.inj h)
    exact keepsNumbers_of_eq rfl

/-- The look-ups and the number. -/
theorem Locked.checkTask (h : Locked s) (hbefore : (s.calls pid).locks = []) (t : Task) :
    Locked (checkTask s pid t).1 := by
  unfold Transactions.checkTask
  split
  · split
    · exact h.move hbefore rfl
    · exact h.abort pid _ _
  · split
    · exact h.leave (keepsNumbers_of_eq rfl) (numberOk_none _ rfl)
    · exact h.move hbefore rfl

theorem Locked.numberTask (h : Locked s) (hbefore : (s.calls pid).locks = []) (ctx : Ctx) (t : Task)
    (recipientDeviceIds : List Id) : Locked (numberTask ctx s pid t recipientDeviceIds).1 := by
  have hnone : ∀ c : Call, ∀ l ∈ (s.calls pid).locks, l ∈ c.locks := by
    intro c l hl
    rw [hbefore] at hl
    cases hl
  unfold Transactions.numberTask
  split
  · split
    · refine h.lock (hnone _) ?_ (numberOk_none _ rfl)
      intro l hl
      simpa [Call.locks, Task.numberLocks] using hl
    · exact h.abort pid _ _
  · refine h.set (hnone _) ?_
    intro groupId k hk
    obtain ⟨rfl, rfl⟩ := Prod.mk.inj (Option.some.inj hk)
    exact le_refl _

/-- Every step keeps to it. -/
theorem locked_step (h : Locked s) (a : Act) : Locked (step s a) := by
  unfold step
  cases a with
  | initUpload now mediaId userId presigned dto =>
      simp only [exec]
      split
      · exact h
      · split
        · rename_i hi
          exact h.write (keepsNumbers_upload hi)
        · exact h
  | completeUpload pid userId mediaId dto =>
      cases hcall : s.calls pid with
      | idle =>
          simp only [exec, hcall]
          split
          · exact h.move (by rw [hcall]; rfl) rfl
          · exact h
      | _ =>
          simp only [exec, hcall]
          exact h
  | completeMedia pid now =>
      cases hcall : s.calls pid with
      | completing mediaId dto =>
          simp only [exec, hcall]
          split
          · exact h
          · split
            · rename_i hi
              exact (h.write (keepsNumbers_complete hi)).move (by rw [hcall]; rfl) rfl
            · exact h.move (by rw [hcall]; rfl) rfl
      | _ =>
          simp only [exec, hcall]
          exact h
  | send pid senderUserId dto =>
      cases hcall : s.calls pid with
      | idle =>
          simp only [exec, hcall]
          exact h.enter (by rw [hcall]; rfl) _
      | _ =>
          simp only [exec, hcall]
          exact h
  | queueGroupMessage pid senderUserId groupId dto =>
      cases hcall : s.calls pid with
      | idle =>
          simp only [exec, hcall]
          exact h.enter (by rw [hcall]; rfl) _
      | _ =>
          simp only [exec, hcall]
          exact h
  | forward pid userId dto =>
      cases hcall : s.calls pid with
      | idle =>
          simp only [exec, hcall]
          split
          · exact h
          · exact h.move (by rw [hcall]; rfl) rfl
      | _ =>
          simp only [exec, hcall]
          exact h
  | target pid =>
      cases hcall : s.calls pid with
      | forwarding f =>
          simp only [exec, hcall]
          exact h.nextTarget (by rw [hcall]; rfl) f
      | _ =>
          simp only [exec, hcall]
          exact h
  | check pid =>
      cases hcall : s.calls pid with
      | entered t =>
          simp only [exec, hcall]
          exact h.checkTask (by rw [hcall]; rfl) t
      | _ =>
          simp only [exec, hcall]
          exact h
  | number pid ctx =>
      cases hcall : s.calls pid with
      | checked t ids =>
          simp only [exec, hcall]
          exact h.numberTask (by rw [hcall]; rfl) ctx t ids
      | _ =>
          simp only [exec, hcall]
          exact h
  | replyTarget pid =>
      have hpid := h.numbers pid
      cases hcall : s.calls pid with
      | numbered t n =>
          rw [hcall] at hpid
          simp only [exec, hcall]
          split
          · exact h.set (by rw [hcall]; exact fun l hl => hl) hpid
          · exact h.abort pid _ _
      | _ =>
          simp only [exec, hcall]
          exact h
  | own pid ctx =>
      have hpid := h.numbers pid
      cases hcall : s.calls pid with
      | replied t n replyTo =>
          rw [hcall] at hpid
          simp only [exec, hcall]
          split
          · exact h.set (by rw [hcall]; exact fun l hl => hl) hpid
          · exact h.abort pid _ _
      | _ =>
          simp only [exec, hcall]
          exact h
  | insert pid ctx =>
      have hpid := h.numbers pid
      cases hcall : s.calls pid with
      | owned t n replyTo =>
          rw [hcall] at hpid
          simp only [exec, hcall]
          split
          · refine h.lock ?_ (fun l hl => List.mem_append_right _ hl) ?_
            · rw [hcall]
              exact fun l hl => List.mem_append_left _ hl
            · intro groupId k hk
              exact hpid groupId k ((newMessage_groupNumber ctx t n replyTo).symm.trans hk)
          · exact h.abort pid _ _
      | _ =>
          simp only [exec, hcall]
          exact h
  | attach pid ctx =>
      have hpid := h.numbers pid
      cases hcall : s.calls pid with
      | inserted t n new =>
          rw [hcall] at hpid
          simp only [exec, hcall]
          split
          · refine h.lock ?_ (fun l hl => List.mem_append_right _ hl) hpid
            rw [hcall]
            exact fun l hl => List.mem_append_left _ hl
          · exact h.abort pid _ _
      | _ =>
          simp only [exec, hcall]
          exact h
  | commit pid =>
      cases hcall : s.calls pid with
      | attached t n new w =>
          simp only [exec, hcall]
          split
          · exact h.finish (keepsNumbers_commit n new w s.db) pid _ _
          · exact h.leave (keepsNumbers_commit n new w s.db) (numberOk_none _ rfl)
      | _ =>
          simp only [exec, hcall]
          exact h
  | recover pid =>
      simp only [exec]
      split
      · split
        · exact h.finish (keepsNumbers_of_eq rfl) pid _ _
        · exact h.finish (keepsNumbers_of_eq rfl) pid _ _
      · exact h
  | enqueue pid =>
      simp only [exec]
      split
      · exact h.finish (keepsNumbers_of_eq rfl) pid _ _
      · exact h
  | fail pid e =>
      simp only [exec]
      split
      iterate 9 exact h.finish (keepsNumbers_of_eq rfl) pid _ _
      exact h.leave (keepsNumbers_of_eq rfl) (numberOk_none _ rfl)
  | delete pid limit now userId messageId dto =>
      cases hcall : s.calls pid with
      | idle =>
          simp only [exec, hcall]
          split
          · exact h
          · split
            · exact h.move (by rw [hcall]; rfl) rfl
            · split
              · exact h
              · exact h.move (by rw [hcall]; rfl) rfl
      | _ =>
          simp only [exec, hcall]
          exact h
  | deleteWrite pid now =>
      simp only [exec]
      split
      · rename_i userId messageId hcall
        refine (h.write (keepsNumbers_of_eq ?_)).move (by rw [hcall]; rfl) rfl
        rw [hideMessage_frame]
      · rename_i userId messageId who hcall
        split
        · rename_i hd
          exact (h.write (keepsNumbers_deleteTx hd)).move (by rw [hcall]; rfl) rfl
        · exact h.move (by rw [hcall]; rfl) rfl
      · exact h

end Steps

theorem locked_idle (db : Db) : Locked (idle db) :=
  ⟨fun _ _ hl => absurd hl List.not_mem_nil, fun _ => numberOk_none db rfl⟩

/-- Whoever holds a lock in a reachable state has a transaction that wrote what it protects. -/
theorem locked_run (db : Db) (acts : List Act) : Locked (run step (start db) acts) :=
  run_invariant (I := Locked) (fun _ a h => locked_step h a) acts _ (locked_idle _)

end Birgap.Messaging.Transactions
