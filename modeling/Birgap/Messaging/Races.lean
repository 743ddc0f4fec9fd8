import Birgap.Messaging.Locked

/-!
# Two requests at once

Two calls, each with a request of its own, in any interleaving of their statements: a
schedule says whose turn it is, and the statement is the next one of that call. Up to its
commit a call only reads, so what it has established holds as long as the other one has not
committed. `Established` lists it, and `established_step` is the rule for one statement.
-/
namespace Birgap.Messaging.Transactions.Races

set_option autoImplicit false

open Birgap.Lib Birgap.Lib.Run Birgap.Lib.Tx Birgap.Messages Birgap.Groups

/-- A request with the number of its call and what the call draws. -/
structure Side where
  pid : Nat
  task : Task
  ctx : Ctx

/-- How a request ends, or one target of a forward. -/
inductive Outcome where
  | failed
  | succeeded (messageId : Id)
  deriving DecidableEq

inductive Stage where
  | waiting
  | running
  | ended (o : Outcome)
  deriving DecidableEq

structure Race where
  state : State
  stage : Bool → Stage

/-- The first statement of a request. -/
def Side.enter (x : Side) : Act :=
  match x.task with
  | .direct (.send senderUserId dto) => .send x.pid senderUserId dto
  | .group (.message senderUserId groupId dto) => .queueGroupMessage x.pid senderUserId groupId dto
  | _ => .target x.pid

/-- The statement that follows where the call is. -/
def Side.next (x : Side) : Call → Act
  | .entered _ => .check x.pid
  | .checked _ _ => .number x.pid x.ctx
  | .numbered _ _ => .replyTarget x.pid
  | .replied _ _ _ => .own x.pid x.ctx
  | .owned _ _ _ => .insert x.pid x.ctx
  | .inserted _ _ _ => .attach x.pid x.ctx
  | .attached _ _ _ _ => .commit x.pid
  | .recovering _ => .recover x.pid
  | _ => .enqueue x.pid

/-- How a request has ended, seen from the call and from what it has returned. -/
def outcome (t : Task) (c : Call) (returned : Option Returned) : Option Outcome :=
  match t.forwarding, c, returned with
  | none, .idle, some (.sent _ m _) => some (.succeeded m.id)
  | none, .idle, _ => some .failed
  | some _, .forwarding f, _ =>
      match f.results.getLast?.bind (·.messageId) with
      | some messageId => some (.succeeded messageId)
      | none => some .failed
  | _, _, _ => none

def Race.after (r : Race) (b : Bool) (x : Side) (o : State × Option Returned) : Race :=
  { state := o.1
    stage := Function.update r.stage b
      (match outcome x.task (o.1.calls x.pid) o.2 with
      | some result => .ended result
      | none => .running) }

/-- The next statement of one of the two calls. -/
def step (x : Bool → Side) (r : Race) (b : Bool) : Race :=
  match r.stage b with
  | .waiting => r.after b (x b) (exec r.state (x b).enter)
  | .running => r.after b (x b) (exec r.state ((x b).next (r.state.calls (x b).pid)))
  | .ended _ => r

/-- The turn of the one that commits. -/
def Commits (x : Bool → Side) (r : Race) (b : Bool) : Prop :=
  r.stage b = .running ∧ ∃ n new w, r.state.calls (x b).pid = .attached (x b).task n new w

/-- Neither request has begun. -/
def waiting (s : State) : Race := { state := s, stage := fun _ => .waiting }

/-- The call can begin the request: it is idle, or a forward that has come to this target. -/
def Ready (c : Call) : Task → Prop
  | .direct (.send _ _) => c = .idle
  | .group (.message _ _ _) => c = .idle
  | .direct (.forward f recipientUserId envelopes) => c = .forwarding f ∧ ∃ target,
      f.dto.targets[f.results.length]? = some target ∧ target.type = .direct ∧
        validateDirectTarget target = .ok (recipientUserId, envelopes)
  | .group (.forward f groupId ciphertext) => c = .forwarding f ∧ ∃ target,
      f.dto.targets[f.results.length]? = some target ∧ target.type = .group ∧
        validateGroupTarget target = .ok (groupId, ciphertext)

/-- Every schedule is a run of the system. -/
theorem run_acts (x : Bool → Side) (schedule : List Bool) : ∀ r : Race, ∃ acts : List Act,
    (run (step x) r schedule).state = run Transactions.step r.state acts := by
  induction schedule with
  | nil => intro r; exact ⟨[], rfl⟩
  | cons b schedule ih =>
      intro r
      obtain ⟨acts, hacts⟩ := ih (step x r b)
      rw [run_cons, hacts]
      unfold step
      split
      · exact ⟨(x b).enter :: acts, rfl⟩
      · exact ⟨(x b).next (r.state.calls (x b).pid) :: acts, rfl⟩
      · exact ⟨acts, rfl⟩

/-! ## How a request ends -/

/-- A forward that ends a target has one to end. -/
def HasTarget (t : Task) : Prop :=
  ∀ f, t.forwarding = some f → ∃ target, f.dto.targets[f.results.length]? = some target

theorem Ready.hasTarget {c : Call} {t : Task} (h : Ready c t) : HasTarget t := by
  intro f hf
  cases t with
  | direct d =>
      cases d with
      | send senderUserId dto => cases hf
      | forward f' recipientUserId envelopes =>
          obtain rfl := Option.some.inj hf
          obtain ⟨_, target, htarget, _⟩ := h
          exact ⟨target, htarget⟩
  | group g =>
      cases g with
      | message senderUserId groupId dto => cases hf
      | forward f' groupId ciphertext =>
          obtain rfl := Option.some.inj hf
          obtain ⟨_, target, htarget, _⟩ := h
          exact ⟨target, htarget⟩

theorem outcome_ok {t : Task} (ht : HasTarget t) (m : Message) (created : Bool) :
    outcome t (t.settle (.ok (m, created))).1 (t.settle (.ok (m, created))).2 =
      some (.succeeded m.id) := by
  unfold outcome Task.settle
  cases hf : t.forwarding with
  | none => rfl
  | some f =>
      obtain ⟨target, htarget⟩ := ht f hf
      simp [Forwarding.push, htarget, ForwardTargetDto.result]

theorem outcome_error {t : Task} (ht : HasTarget t) (e : Err) :
    outcome t (t.settle (.error e)).1 (t.settle (.error e)).2 = some .failed := by
  unfold outcome Task.settle
  cases hf : t.forwarding with
  | none => rfl
  | some f =>
      obtain ⟨target, htarget⟩ := ht f hf
      simp [Forwarding.push, htarget, ForwardTargetDto.result]

/-- A call of a request that has not ended. -/
def InFlight : Call → Prop
  | .idle | .forwarding _ | .completing _ _ | .hiding _ _ | .deleting _ _ _ => False
  | _ => True

theorem outcome_inFlight (t : Task) {c : Call} (h : InFlight c) (r : Option Returned) :
    outcome t c r = none := by
  unfold outcome
  cases t.forwarding with
  | none => cases c <;> first | rfl | cases h
  | some f => cases c <;> first | rfl | cases h

/-! ## What a statement leaves alone -/

/-- A step of one call: the other calls stay where they are, with the locks they have. -/
structure Steps (pid : Nat) (s s' : State) : Prop where
  calls : ∀ q, q ≠ pid → s'.calls q = s.calls q
  locks : ∀ l q, q ≠ pid → ((l, q) ∈ s'.locks ↔ (l, q) ∈ s.locks)

theorem steps_refl (pid : Nat) (s : State) : Steps pid s s :=
  ⟨fun _ _ => rfl, fun _ _ _ => Iff.rfl⟩

theorem steps_set (s : State) (pid : Nat) (c : Call) : Steps pid s (s.set pid c) :=
  ⟨fun _ hq => Function.update_of_ne hq _ _, fun _ _ _ => Iff.rfl⟩

theorem set_self (s : State) (pid : Nat) (c : Call) : (s.set pid c).calls pid = c :=
  Function.update_self _ _ _

theorem leave_self (s : State) (pid : Nat) (c : Call) : (s.leave pid c).calls pid = c :=
  Function.update_self _ _ _

theorem steps_leave (s : State) (pid : Nat) (c : Call) (db : Db) :
    Steps pid s ({ s with db := db }.leave pid c) :=
  ⟨fun _ hq => Function.update_of_ne hq _ _,
    fun _ _ hq => Locks.mem_release.trans (and_iff_left hq)⟩

theorem steps_lock (s : State) (pid : Nat) (ks : List Lock) (c : Call) :
    Steps pid s (s.lock pid ks c) := by
  unfold State.lock
  split
  · exact ⟨fun _ hq => Function.update_of_ne hq _ _,
      fun _ _ hq => Locks.mem_acquire.trans (or_iff_left fun h => hq h.2)⟩
  · exact steps_refl pid s

theorem steps_abort (s : State) (pid : Nat) (t : Task) (e : Err) :
    Steps pid s (s.abort pid t e).1 := by
  unfold State.abort
  split
  · exact steps_leave s pid _ s.db
  · exact steps_leave s pid _ s.db

theorem abort_group {t : Task} {g : GroupTask} (ht : t = .group g) (s : State) (pid : Nat)
    (e : Err) : s.abort pid t e = s.finish pid (t.settle (.error e)) := by
  rw [ht]
  rfl

theorem steps_enter (s : State) (pid : Nat) (t : Task) :
    Steps pid s (Transactions.enter s pid t).1 := by
  rcases enter_cases s pid t with ⟨_, _, _, he⟩ | ⟨_, ⟨_, _, he⟩ | ⟨_, he⟩⟩
  · rw [he]
    exact steps_leave s pid _ s.db
  · rw [he]
    exact steps_leave s pid _ s.db
  · rw [he]
    exact steps_set s pid _

/-- The first statement looks the request up. -/
theorem exec_enter {s : State} {x : Side} (h : Ready (s.calls x.pid) x.task) :
    exec s x.enter = Transactions.enter s x.pid x.task := by
  unfold Side.enter
  cases ht : x.task with
  | direct d =>
      cases d with
      | send senderUserId dto =>
          rw [ht] at h
          simp only [exec, show s.calls x.pid = .idle from h]
      | forward f recipientUserId envelopes =>
          rw [ht] at h
          obtain ⟨hcall, target, htarget, htype, hvalid⟩ := h
          simp only [exec, hcall, nextTarget, htarget, htype, hvalid]
  | group g =>
      cases g with
      | message senderUserId groupId dto =>
          rw [ht] at h
          simp only [exec, show s.calls x.pid = .idle from h]
      | forward f groupId ciphertext =>
          rw [ht] at h
          obtain ⟨hcall, target, htarget, htype, hvalid⟩ := h
          simp only [exec, hcall, nextTarget, htarget, htype, hvalid]

/-- The statement after the look-up is a step of the call alone. -/
theorem steps_next (s : State) (x : Side) : Steps x.pid s (exec s (x.next (s.calls x.pid))).1 := by
  cases hcall : s.calls x.pid with
  | entered t =>
      simp only [Side.next, exec, hcall, checkTask]
      split
      · split
        · exact steps_set s x.pid _
        · exact steps_abort s x.pid _ _
      · split
        · exact steps_leave s x.pid _ s.db
        · exact steps_set s x.pid _
  | checked t recipientDeviceIds =>
      simp only [Side.next, exec, hcall, numberTask]
      split
      · split
        · exact steps_lock s x.pid _ _
        · exact steps_abort s x.pid _ _
      · exact steps_set s x.pid _
  | numbered t n =>
      simp only [Side.next, exec, hcall]
      split
      · exact steps_set s x.pid _
      · exact steps_abort s x.pid _ _
  | replied t n replyTo =>
      simp only [Side.next, exec, hcall]
      split
      · exact steps_set s x.pid _
      · exact steps_abort s x.pid _ _
  | owned t n replyTo =>
      simp only [Side.next, exec, hcall]
      split
      · exact steps_lock s x.pid _ _
      · exact steps_abort s x.pid _ _
  | inserted t n new =>
      simp only [Side.next, exec, hcall]
      split
      · exact steps_lock s x.pid _ _
      · exact steps_abort s x.pid _ _
  | attached t n new w =>
      simp only [Side.next, exec, hcall]
      split <;> exact steps_leave s x.pid _ _
  | recovering t =>
      simp only [Side.next, exec, hcall]
      split <;> exact steps_leave s x.pid _ s.db
  | enqueueing t m created =>
      simp only [Side.next, exec, hcall]
      exact steps_leave s x.pid _ s.db
  | _ =>
      simp only [Side.next, exec, hcall]
      exact steps_refl x.pid s

/-! ## What a call has established -/

/-- The sender of a group message is a member. -/
def Admitted (t : Task) (db : Db) : Prop :=
  ∀ g, t = .group g → isMember g.request.groupId g.request.senderUserId db = true

/-- The first look-ups find the membership and no message under the key. -/
def Opens (t : Task) (db : Db) : Prop :=
  findByKey t.senderDeviceId t.idempotencyKey db = none ∧ Admitted t db

/-- The devices that a direct transaction reads; a group transaction reads none. -/
def Routes (db : Db) (recipientDeviceIds : List Id) : Task → Prop
  | .direct d => routeDevices d.senderUserId d.senderDeviceId (DirectTask.recipientUserId d)
      (DirectTask.envelopes d) db = .ok recipientDeviceIds
  | .group _ => recipientDeviceIds = []

/-- What a transaction has with its number. -/
def Numbers (ctx : Ctx) (db : Db) (recipientDeviceIds : List Id) (n : Numbered) : Task → Prop
  | .direct d => ∃ threads sequence,
      numberThread ctx.threadId (DirectTask.pair d) db = .ok (threads, sequence) ∧
        n = { recipientDeviceIds, threads := some threads, sequence }
  | .group g => n = { sequence := nextSequence g.request.groupId db }

/-- The reads of a transaction up to its insert, on one store. -/
structure Reads (x : Side) (db : Db) (recipientDeviceIds : List Id) (n : Numbered)
    (replyTo : Option Id) : Prop where
  opens : Opens x.task db
  routes : Routes db recipientDeviceIds x.task
  numbers : Numbers x.ctx db recipientDeviceIds n x.task
  reply : x.task.checkReply n db = .ok replyTo
  owned : assertAttachmentsOwned x.ctx.maxAttachments x.task.senderUserId x.task.mediaIds db = .ok ()

/-- The message the request inserts. -/
def Side.new (x : Side) (n : Numbered) (replyTo : Option Id) : NewMessage :=
  x.task.newMessage x.ctx n replyTo

/-- The insert meets no unique index. -/
def Inserts (x : Side) (db : Db) (n : Numbered) (replyTo : Option Id) : Prop :=
  ∃ db', createMessage (x.new n replyTo).message (x.new n replyTo).envelopes db = .ok db'

/-- Where a call is, with what its statements so far have found on one store. -/
inductive Established (x : Side) (db : Db) : Call → Prop where
  | entered (hopens : Opens x.task db) : Established x db (.entered x.task)
  | checked {ids : List Id} (hopens : Opens x.task db) (hroutes : Routes db ids x.task) :
      Established x db (.checked x.task ids)
  | numbered {ids : List Id} {n : Numbered} (hopens : Opens x.task db)
      (hroutes : Routes db ids x.task) (hnumbers : Numbers x.ctx db ids n x.task) :
      Established x db (.numbered x.task n)
  | replied {ids : List Id} {n : Numbered} {replyTo : Option Id} (hopens : Opens x.task db)
      (hroutes : Routes db ids x.task) (hnumbers : Numbers x.ctx db ids n x.task)
      (hreply : x.task.checkReply n db = .ok replyTo) : Established x db (.replied x.task n replyTo)
  | owned {ids : List Id} {n : Numbered} {replyTo : Option Id} (hreads : Reads x db ids n replyTo) :
      Established x db (.owned x.task n replyTo)
  | inserted {ids : List Id} {n : Numbered} {replyTo : Option Id} (hreads : Reads x db ids n replyTo)
      (hinserts : Inserts x db n replyTo) : Established x db (.inserted x.task n (x.new n replyTo))
  | attached {ids : List Id} {n : Numbered} {replyTo : Option Id} {w : MediaWrites}
      (hreads : Reads x db ids n replyTo) (hinserts : Inserts x db n replyTo)
      (hwrites : x.task.mediaWrites x.ctx (x.new n replyTo).message.id db = .ok w) :
      Established x db (.attached x.task n (x.new n replyTo) w)

/-- Every check of the request passes on the store. -/
def Passes (x : Side) (db : Db) : Prop :=
  ∃ ids n replyTo w, Reads x db ids n replyTo ∧ Inserts x db n replyTo ∧
    x.task.mediaWrites x.ctx (x.new n replyTo).message.id db = .ok w

/-- The locks of a call: the pair of its thread once it is numbered, and the index entries
of its message once that is inserted. -/
def Holds (x : Side) (locks : Locks.Table Lock) : Call → Prop
  | .numbered _ _ | .replied _ _ _ | .owned _ _ _ => ∀ d, x.task = .direct d →
      (.pair (DirectTask.pair d).1 (DirectTask.pair d).2, x.pid) ∈ locks
  | .inserted _ _ new | .attached _ _ new _ => (∀ d, x.task = .direct d →
      (.pair (DirectTask.pair d).1 (DirectTask.pair d).2, x.pid) ∈ locks) ∧
        ∀ l ∈ new.locks, (l, x.pid) ∈ locks
  | _ => True

theorem Holds.mono {x : Side} {locks locks' : Locks.Table Lock} {c : Call} (h : Holds x locks c)
    (hl : ∀ l, (l, x.pid) ∈ locks → (l, x.pid) ∈ locks') : Holds x locks' c := by
  cases c with
  | numbered t n => exact fun d hd => hl _ (h d hd)
  | replied t n replyTo => exact fun d hd => hl _ (h d hd)
  | owned t n replyTo => exact fun d hd => hl _ (h d hd)
  | inserted t n new => exact ⟨fun d hd => hl _ (h.1 d hd), fun l hnew => hl l (h.2 l hnew)⟩
  | attached t n new w => exact ⟨fun d hd => hl _ (h.1 d hd), fun l hnew => hl l (h.2 l hnew)⟩
  | _ => trivial

/-- What one statement of an open request does before its commit: the call has established
one thing more, or waits for a lock; or a check fails that is among those of the request. -/
def Advances (x : Side) (s : State) (o : State × Option Returned) : Prop :=
  (o.2 = none ∧ o.1.db = s.db ∧ Established x s.db (o.1.calls x.pid) ∧
      Holds x o.1.locks (o.1.calls x.pid)) ∨
    ∃ e, o = s.abort x.pid x.task e ∧ ¬ Passes x s.db

theorem advances_set {x : Side} {s : State} {c : Call} (he : Established x s.db c)
    (hh : Holds x s.locks c) : Advances x s (s.set x.pid c, none) := by
  refine Or.inl ⟨rfl, rfl, ?_, ?_⟩
  · rw [set_self]
    exact he
  · rw [set_self]
    exact hh

theorem advances_lock {x : Side} {s : State} {ks : List Lock} {c : Call}
    (hnow : Established x s.db (s.calls x.pid)) (hholds : Holds x s.locks (s.calls x.pid))
    (he : Established x s.db c) (hh : Holds x (Locks.acquire s.locks x.pid ks) c) :
    Advances x s (s.lock x.pid ks c, none) := by
  unfold State.lock
  split
  · refine Or.inl ⟨rfl, rfl, ?_, ?_⟩
    · show Established x s.db (Function.update s.calls x.pid c x.pid)
      rw [Function.update_self]
      exact he
    · show Holds x _ (Function.update s.calls x.pid c x.pid)
      rw [Function.update_self]
      exact hh
  · exact Or.inl ⟨rfl, rfl, hnow, hholds⟩

/-- On one store a request reads one set of devices and one number. -/
theorem numbers_unique {x : Side} {db : Db} {ids ids' : List Id} {n n' : Numbered}
    (hr : Routes db ids x.task) (hn : Numbers x.ctx db ids n x.task) (hr' : Routes db ids' x.task)
    (hn' : Numbers x.ctx db ids' n' x.task) : n' = n := by
  cases ht : x.task with
  | direct d =>
      rw [ht] at hr hn hr' hn'
      obtain rfl : ids = ids' := Except.ok.inj (Eq.trans (Eq.symm hr) hr')
      obtain ⟨threads, sequence, hnumber, rfl⟩ := hn
      obtain ⟨threads', sequence', hnumber', rfl⟩ := hn'
      obtain ⟨rfl, rfl⟩ := Prod.mk.inj (Except.ok.inj (hnumber.symm.trans hnumber'))
      rfl
  | group g =>
      rw [ht] at hn hn'
      exact Eq.trans hn' (Eq.symm hn)

/-- The reads of a request on one store have one outcome. -/
theorem Reads.unique {x : Side} {db : Db} {ids ids' : List Id} {n n' : Numbered}
    {replyTo replyTo' : Option Id} (h : Reads x db ids n replyTo) (h' : Reads x db ids' n' replyTo') :
    n' = n ∧ replyTo' = replyTo := by
  obtain rfl := numbers_unique h.routes h.numbers h'.routes h'.numbers
  exact ⟨rfl, Except.ok.inj (h'.reply.symm.trans h.reply)⟩

/-- One statement of an open request before its commit. -/
theorem established_step {x : Side} {s : State} (hnow : Established x s.db (s.calls x.pid))
    (hholds : Holds x s.locks (s.calls x.pid))
    (hopen : ∀ t n new w, s.calls x.pid ≠ .attached t n new w) :
    Advances x s (exec s (x.next (s.calls x.pid))) := by
  have hhere := hnow
  have hkeeps := hholds
  generalize hcall : s.calls x.pid = c at hnow hholds hopen
  cases hnow with
  | entered hopens =>
      simp only [Side.next, exec, hcall, checkTask]
      cases ht : x.task with
      | direct d =>
          dsimp only
          split
          · rename_i ids hroute
            have hroutes : Routes s.db ids x.task := by
              rw [ht]
              exact hroute
            rw [← ht]
            exact advances_set (.checked hopens hroutes) trivial
          · rename_i e hroute
            refine Or.inr ⟨e, by rw [ht], ?_⟩
            rintro ⟨ids, n, replyTo, w, hreads, _⟩
            have hroutes := hreads.routes
            rw [ht] at hroutes
            cases Eq.trans (Eq.symm hroute) hroutes
      | group g =>
          have hnone := hopens.1
          rw [ht] at hnone
          dsimp only
          rw [hnone]
          have hroutes : Routes s.db [] x.task := by
            rw [ht]
            rfl
          rw [← ht]
          exact advances_set (.checked hopens hroutes) trivial
  | @checked ids hopens hroutes =>
      simp only [Side.next, exec, hcall, numberTask]
      cases ht : x.task with
      | direct d =>
          dsimp only
          split
          · rename_i threads sequence hnumber
            have hnumbers : Numbers x.ctx s.db ids
                { recipientDeviceIds := ids, threads := some threads, sequence } x.task := by
              rw [ht]
              exact ⟨threads, sequence, hnumber, rfl⟩
            rw [← ht]
            refine advances_lock hhere hkeeps (.numbered hopens hroutes hnumbers) ?_
            intro d' hd'
            rw [ht] at hd'
            cases hd'
            exact Locks.mem_acquire.mpr (Or.inr ⟨List.mem_cons_self, rfl⟩)
          · rename_i e hnumber
            refine Or.inr ⟨e, by rw [ht], ?_⟩
            rintro ⟨ids, n, replyTo, w, hreads, _⟩
            have hnumbers := hreads.numbers
            rw [ht] at hnumbers
            obtain ⟨threads, sequence, hok, _⟩ := hnumbers
            cases hnumber.symm.trans hok
      | group g =>
          have hnumbers : Numbers x.ctx s.db ids
              { sequence := nextSequence g.request.groupId s.db } x.task := by
            rw [ht]
            rfl
          dsimp only
          rw [← ht]
          refine advances_set (.numbered hopens hroutes hnumbers) ?_
          intro d hd
          rw [ht] at hd
          cases hd
  | @numbered ids n hopens hroutes hnumbers =>
      simp only [Side.next, exec, hcall]
      split
      · rename_i replyTo hreply
        exact advances_set (.replied hopens hroutes hnumbers hreply) hholds
      · rename_i e hreply
        refine Or.inr ⟨e, rfl, ?_⟩
        rintro ⟨ids', n', replyTo, w, hreads, _⟩
        obtain rfl := numbers_unique hroutes hnumbers hreads.routes hreads.numbers
        cases hreply.symm.trans hreads.reply
  | @replied ids n replyTo hopens hroutes hnumbers hreply =>
      simp only [Side.next, exec, hcall]
      split
      · rename_i howned
        exact advances_set (.owned ⟨hopens, hroutes, hnumbers, hreply, howned⟩) hholds
      · rename_i e howned
        refine Or.inr ⟨e, rfl, ?_⟩
        rintro ⟨ids', n', replyTo, w, hreads, _⟩
        cases howned.symm.trans hreads.owned
  | @owned ids n replyTo hreads =>
      simp only [Side.next, exec, hcall]
      split
      · rename_i db' hcreate
        refine advances_lock hhere hkeeps (.inserted hreads ⟨db', hcreate⟩) ⟨?_, ?_⟩
        · intro d hd
          exact Locks.mem_acquire.mpr (Or.inl (hholds d hd))
        · intro l hl
          exact Locks.mem_acquire.mpr (Or.inr ⟨hl, rfl⟩)
      · rename_i e hcreate
        refine Or.inr ⟨e, rfl, ?_⟩
        rintro ⟨ids', n', replyTo', w, hreads', ⟨db', hok⟩, _⟩
        obtain ⟨rfl, rfl⟩ := hreads.unique hreads'
        cases hcreate.symm.trans hok
  | @inserted ids n replyTo hreads hinserts =>
      simp only [Side.next, exec, hcall]
      split
      · rename_i w hwrites
        refine advances_lock hhere hkeeps (.attached hreads hinserts hwrites) ⟨?_, ?_⟩
        · intro d hd
          exact Locks.mem_acquire.mpr (Or.inl (hholds.1 d hd))
        · intro l hl
          exact Locks.mem_acquire.mpr (Or.inl (hholds.2 l hl))
      · rename_i e hwrites
        refine Or.inr ⟨e, rfl, ?_⟩
        rintro ⟨ids', n', replyTo', w, hreads', _, hok⟩
        obtain ⟨rfl, rfl⟩ := hreads.unique hreads'
        cases hwrites.symm.trans hok
  | @attached ids n replyTo w hreads hinserts hwrites => exact absurd rfl (hopen _ _ _ _)

theorem Established.inFlight {x : Side} {db : Db} {c : Call} (h : Established x db c) : InFlight c := by
  cases h <;> trivial

/-- What a call has established when all that is left is its commit. -/
theorem Established.writes {x : Side} {db : Db} {t : Task} {n : Numbered} {new : NewMessage}
    {w : MediaWrites} (h : Established x db (.attached t n new w)) :
    ∃ ids replyTo, new = x.new n replyTo ∧ Reads x db ids n replyTo ∧ Inserts x db n replyTo ∧
      x.task.mediaWrites x.ctx new.message.id db = .ok w := by
  cases h with
  | attached hreads hinserts hwrites => exact ⟨_, _, rfl, hreads, hinserts, hwrites⟩

/-! ## The message a request inserts -/

/-- The row a request inserts. -/
structure Row (x : Side) (n : Numbered) (m : Message) : Prop where
  id : m.id = x.ctx.messageId
  key : (m.senderDeviceId, m.idempotencyKey) = (x.task.senderDeviceId, x.task.idempotencyKey)
  sequence : m.threadSequence = n.sequence
  direct : ∀ d, x.task = .direct d → m.threadId = n.threads.map (·.threadId) ∧ m.groupId = none
  group : ∀ g, x.task = .group g → m.threadId = none ∧ m.groupId = some g.request.groupId

theorem new_row (x : Side) (n : Numbered) (replyTo : Option Id) :
    Row x n (x.new n replyTo).message := by
  unfold Side.new
  cases ht : x.task with
  | direct d =>
      refine ⟨?_, ?_, ?_, fun d' hd' => ?_, fun g hg => absurd (ht.symm.trans hg) (by simp)⟩
      · cases d <;> rfl
      · rw [ht]
        cases d <;> rfl
      · cases d <;> rfl
      · cases d <;> exact ⟨rfl, rfl⟩
  | group g =>
      refine ⟨?_, ?_, ?_, fun d hd => absurd (ht.symm.trans hd) (by simp), fun g' hg' => ?_⟩
      · cases g <;> rfl
      · rw [ht]
        cases g <;> rfl
      · cases g <;> rfl
      · obtain rfl := Task.group.inj (ht.symm.trans hg')
        cases g <;> exact ⟨rfl, rfl⟩

/-- A message inserted for a request is found under its key. -/
theorem Row.found {x : Side} {n : Numbered} {m : Message} (h : Row x n m) :
    (m.senderDeviceId == x.task.senderDeviceId && m.idempotencyKey == x.task.idempotencyKey) =
      true := by
  obtain ⟨hd, hk⟩ := Prod.mk.inj h.key
  simp [hd, hk]

/-- A reply target that is found stays the same. -/
theorem checkReply_append {inConversation : Message → Bool} {elsewhere : String}
    {replyToMessageId replyTo : Option Id} {db db' : Db} {more : List Message}
    (hmessages : db'.messages = db.messages ++ more)
    (h : Messages.checkReply inConversation elsewhere replyToMessageId db = .ok replyTo) :
    Messages.checkReply inConversation elsewhere replyToMessageId db' = .ok replyTo := by
  unfold Messages.checkReply at h ⊢
  cases replyToMessageId with
  | none => exact h
  | some id =>
      dsimp only at h ⊢
      cases hfind : db.messages.find? (·.id == id) with
      | none =>
          rw [hfind] at h
          cases h
      | some target =>
          rw [hfind] at h
          rw [hmessages, List.find?_append, hfind]
          exact h

theorem reply_commit {t : Task} {n n' m : Numbered} {new : NewMessage} {w : MediaWrites} {db : Db}
    {replyTo : Option Id}
    (hthreads : n'.threads.map (·.threadId) = n.threads.map (·.threadId))
    (h : t.checkReply n db = .ok replyTo) :
    t.checkReply n' (commitWrites m new w db) = .ok replyTo := by
  cases t with
  | direct d =>
      cases d with
      | send senderUserId dto =>
          unfold Task.checkReply at h ⊢
          rw [hthreads]
          exact checkReply_append rfl h
      | forward f recipientUserId envelopes => exact h
  | group g =>
      cases g with
      | message senderUserId groupId dto => exact checkReply_append rfl h
      | forward f groupId ciphertext => exact h

/-- An error that is no unique violation, or a group's, ends the request. -/
theorem abort_other {e : Err} (he : e ≠ .uniqueConstraint) (s : State) (pid : Nat) (t : Task) :
    s.abort pid t e = s.finish pid (t.settle (.error e)) := by
  unfold State.abort
  split
  · exact absurd rfl he
  · rfl

/-! ## One turn -/

section Turns

variable {x : Bool → Side} {r : Race} {b : Bool}

theorem after_other (b : Bool) (y : Side) (o : State × Option Returned) :
    (r.after b y o).stage (!b) = r.stage (!b) := by
  show Function.update r.stage b _ (!b) = r.stage (!b)
  rw [Function.update_of_ne (by cases b <;> decide)]

theorem after_self (b : Bool) (y : Side) (o : State × Option Returned) :
    (r.after b y o).stage b =
      match outcome y.task (o.1.calls y.pid) o.2 with
      | some result => .ended result
      | none => .running := by
  show Function.update r.stage b _ b = _
  rw [Function.update_self]

theorem after_running {y : Side} {o : State × Option Returned} (h : InFlight (o.1.calls y.pid)) :
    (r.after b y o).stage b = .running := by
  rw [after_self, outcome_inFlight _ h]

/-- The turn of a request that has begun. -/
theorem step_running (hstage : r.stage b = .running) :
    step x r b = r.after b (x b) (exec r.state ((x b).next (r.state.calls (x b).pid))) := by
  unfold step
  rw [hstage]

/-- A request that has moved on inside its call. -/
theorem after_moved {y : Side} {s : State} {c : Call} (hcall : s.calls y.pid = c) (hc : InFlight c) :
    (r.after b y (s, none)).stage b = .running ∧
      (r.after b y (s, none)).state.calls y.pid = c :=
  ⟨after_running (by rwa [hcall]), hcall⟩

/-- A settled request has ended. -/
theorem after_finish {y : Side} {s : State} (ht : HasTarget y.task) (b : Bool)
    (outcome : Except Err (Message × Bool)) :
    (r.after b y (s.finish y.pid (y.task.settle outcome))).stage b =
      match outcome with
      | .ok (m, _) => .ended (.succeeded m.id)
      | .error _ => .ended .failed := by
  have hcall : (s.finish y.pid (y.task.settle outcome)).1.calls y.pid = (y.task.settle outcome).1 :=
    leave_self _ _ _
  rw [after_self, hcall]
  cases outcome with
  | ok o =>
      obtain ⟨m, created⟩ := o
      have hend := outcome_ok ht m created
      simp only [State.finish, hend]
  | error e =>
      have hend := outcome_error ht e
      simp only [State.finish, hend]

/-- After its turn a request has begun. -/
theorem step_begun : (step x r b).stage b ≠ .waiting := by
  have hafter : ∀ e : State × Option Returned, (r.after b (x b) e).stage b ≠ .waiting := by
    intro e
    rw [after_self]
    split <;> simp
  unfold step
  cases hstage : r.stage b with
  | waiting => exact hafter _
  | running => exact hafter _
  | ended o =>
      rw [hstage]
      simp

theorem inv_turn (h : Inv False r.state) (b : Bool) : Inv False (step x r b).state := by
  unfold step
  split
  · exact (step_ok h _ False.elim).inv
  · exact (step_ok h _ False.elim).inv
  · exact h

/-- A call that ends a request is idle, or between two targets. -/
theorem outcome_some {t : Task} {c : Call} {returned : Option Returned} {o : Outcome}
    (h : outcome t c returned = some o) : c = .idle ∨ ∃ f, c = .forwarding f := by
  unfold outcome at h
  split at h
  · exact Or.inl rfl
  · exact Or.inl rfl
  · exact Or.inr ⟨_, rfl⟩
  · cases h

theorem step_ended_call {o : Outcome} (hbefore : ∀ o, r.stage b ≠ .ended o)
    (h : (step x r b).stage b = .ended o) : (step x r b).state.calls (x b).pid = .idle ∨
      ∃ f, (step x r b).state.calls (x b).pid = .forwarding f := by
  have hafter : ∀ e : State × Option Returned, (r.after b (x b) e).stage b = .ended o →
      e.1.calls (x b).pid = .idle ∨ ∃ f, e.1.calls (x b).pid = .forwarding f := by
    intro e he
    rw [after_self] at he
    split at he
    · rename_i o' ho
      exact outcome_some ho
    · cases he
  unfold step at h ⊢
  cases hstage : r.stage b with
  | waiting =>
      rw [hstage] at h
      exact hafter _ h
  | running =>
      rw [hstage] at h
      exact hafter _ h
  | ended o' => exact absurd hstage (hbefore o')

/-- The turn of one call. -/
theorem step_steps (hready : r.stage b = .waiting → Ready (r.state.calls (x b).pid) (x b).task) :
    Steps (x b).pid r.state (step x r b).state ∧ (step x r b).stage (!b) = r.stage (!b) := by
  unfold step
  cases hstage : r.stage b with
  | waiting =>
      refine ⟨?_, after_other b _ _⟩
      show Steps (x b).pid r.state (exec r.state (x b).enter).1
      rw [exec_enter (hready hstage)]
      exact steps_enter _ _ _
  | running => exact ⟨steps_next _ _, after_other b _ _⟩
  | ended o => exact ⟨steps_refl _ _, rfl⟩

/-- Where the first look-ups lead. -/
theorem step_waiting (hstage : r.stage b = .waiting)
    (hready : Ready (r.state.calls (x b).pid) (x b).task) :
    (step x r b).state.db = r.state.db ∧
    ((Opens (x b).task r.state.db ∧ (step x r b).stage b = .running ∧
        (step x r b).state.calls (x b).pid = .entered (x b).task) ∨
      (Admitted (x b).task r.state.db ∧
        ∃ m, findByKey (x b).task.senderDeviceId (x b).task.idempotencyKey r.state.db = some m ∧
          (step x r b).stage b = .ended (.succeeded m.id)) ∨
      (¬ Admitted (x b).task r.state.db ∧ (step x r b).stage b = .ended .failed)) := by
  have hstep : step x r b =
      r.after b (x b) (Transactions.enter r.state (x b).pid (x b).task) := by
    unfold step
    rw [hstage]
    dsimp only
    rw [exec_enter hready]
  rw [hstep]
  rcases enter_cases r.state (x b).pid (x b).task with
    ⟨g, ht, hmember, he⟩ | ⟨hmember, ⟨m, hm, he⟩ | ⟨hnone, he⟩⟩
  · rw [he]
    refine ⟨rfl, Or.inr (Or.inr ⟨?_, after_finish hready.hasTarget b _⟩)⟩
    intro hadmitted
    rw [hadmitted g ht] at hmember
    cases hmember
  · rw [he]
    refine ⟨rfl, Or.inr (Or.inl ⟨hmember, m, hm, ?_⟩)⟩
    rw [after_finish hready.hasTarget]
  · rw [he]
    exact ⟨rfl, Or.inl ⟨⟨hnone, hmember⟩, after_moved (set_self _ _ _) trivial⟩⟩

/-- The turn of an open request before its commit. -/
theorem step_open (hstage : r.stage b = .running) (ht : HasTarget (x b).task)
    (hnow : Established (x b) r.state.db (r.state.calls (x b).pid))
    (hholds : Holds (x b) r.state.locks (r.state.calls (x b).pid)) (hopen : ¬ Commits x r b) :
    (step x r b).state.db = r.state.db ∧
    (((step x r b).stage b = .running ∧
        Established (x b) r.state.db ((step x r b).state.calls (x b).pid) ∧
        Holds (x b) (step x r b).state.locks ((step x r b).state.calls (x b).pid)) ∨
      (¬ Passes (x b) r.state.db ∧ ((step x r b).stage b = .ended .failed ∨
        ((∃ d, (x b).task = .direct d) ∧ (step x r b).stage b = .running ∧
          (step x r b).state.calls (x b).pid = .recovering (x b).task)))) := by
  have hbefore : ∀ t n new w, r.state.calls (x b).pid ≠ .attached t n new w := by
    intro t n new w hcall
    rw [hcall] at hnow
    cases hnow
    exact hopen ⟨hstage, _, _, _, hcall⟩
  rw [step_running hstage]
  rcases established_step hnow hholds hbefore with ⟨_, hdb, hest, hlocks⟩ | ⟨e, ho, hno⟩
  · exact ⟨hdb, Or.inl ⟨after_running hest.inFlight, hest, hlocks⟩⟩
  · rw [ho]
    unfold State.abort
    split
    · rename_i d htask
      exact ⟨rfl, Or.inr ⟨hno, Or.inr ⟨⟨d, htask⟩, after_moved (leave_self _ _ _) trivial⟩⟩⟩
    · refine ⟨rfl, Or.inr ⟨hno, Or.inl ?_⟩⟩
      rw [after_finish ht]

/-- The turn that commits. -/
theorem step_commit (hstage : r.stage b = .running) (ht : HasTarget (x b).task) {n : Numbered}
    {new : NewMessage} {w : MediaWrites}
    (hcall : r.state.calls (x b).pid = .attached (x b).task n new w) :
    (step x r b).state.db = commitWrites n new w r.state.db ∧
    ((step x r b).stage b = .ended (.succeeded new.message.id) ∨
      ((∃ g, (x b).task = .group g) ∧ (step x r b).stage b = .running ∧
        (step x r b).state.calls (x b).pid = .enqueueing (x b).task new.message true)) := by
  rw [step_running hstage]
  simp only [hcall, Side.next, exec]
  cases htask : (x b).task with
  | direct d =>
      refine ⟨rfl, Or.inl ?_⟩
      have hend := after_finish (r := r) (s := { r.state with db := commitWrites n new w r.state.db })
        ht b (.ok (new.message, true))
      rw [htask] at hend
      exact hend
  | group g =>
      exact ⟨rfl, Or.inr ⟨⟨g, rfl⟩, after_moved (leave_self _ _ _) trivial⟩⟩

/-- The turn that adds the job of a committed message. -/
theorem step_enqueue (hstage : r.stage b = .running) (ht : HasTarget (x b).task) {m : Message}
    {created : Bool} (hcall : r.state.calls (x b).pid = .enqueueing (x b).task m created) :
    (step x r b).state.db = r.state.db ∧ (step x r b).stage b = .ended (.succeeded m.id) := by
  rw [step_running hstage]
  simp only [hcall, Side.next, exec]
  refine ⟨rfl, ?_⟩
  rw [after_finish ht]

/-- The turn that looks the key up again. -/
theorem step_recover (hstage : r.stage b = .running) (ht : HasTarget (x b).task)
    (hcall : r.state.calls (x b).pid = .recovering (x b).task) :
    (step x r b).state.db = r.state.db ∧
    (step x r b).stage b =
      match findByKey (x b).task.senderDeviceId (x b).task.idempotencyKey r.state.db with
      | some m => .ended (.succeeded m.id)
      | none => .ended .failed := by
  rw [step_running hstage]
  simp only [hcall, Side.next, exec]
  cases findByKey (x b).task.senderDeviceId (x b).task.idempotencyKey r.state.db with
  | some m =>
      refine ⟨rfl, ?_⟩
      rw [after_finish ht]
  | none =>
      refine ⟨rfl, ?_⟩
      rw [after_finish ht]

theorem step_ended {o : Outcome} (hstage : r.stage b = .ended o) : step x r b = r := by
  unfold step
  rw [hstage]

end Turns

/-! ## How much a request has before it -/

/-- The statements that a request has before it, if it never waits. -/
def statementsLeft : Call → Nat
  | .entered _ => 8
  | .checked _ _ => 7
  | .numbered _ _ => 6
  | .replied _ _ _ => 5
  | .owned _ _ _ => 4
  | .inserted _ _ _ => 3
  | .attached _ _ _ _ => 2
  | .recovering _ => 1
  | .enqueueing _ _ _ => 1
  | _ => 0

/-- The turns a request has before it, if it never waits. -/
def turnsLeft (x : Bool → Side) (r : Race) (b : Bool) : Nat :=
  match r.stage b with
  | .waiting => 9
  | .running => statementsLeft (r.state.calls (x b).pid)
  | .ended _ => 0

section Left

variable {x : Bool → Side} {r : Race} {b : Bool}

theorem turnsLeft_running (h : r.stage b = .running) :
    turnsLeft x r b = statementsLeft (r.state.calls (x b).pid) := by
  unfold turnsLeft
  rw [h]

theorem turnsLeft_ended {o : Outcome} (h : r.stage b = .ended o) :
    turnsLeft x r b = 0 := by
  unfold turnsLeft
  rw [h]

theorem lock_self {s : State} {pid : Nat} {ks : List Lock} {c : Call}
    (h : ∀ l ∈ ks, ∀ q, q ≠ pid → (l, q) ∉ s.locks) : (s.lock pid ks c).calls pid = c := by
  unfold State.lock
  rw [if_pos (Locks.free_of h)]
  exact Function.update_self _ _ _

theorem settle_left (t : Task) (o : Except Err (Message × Bool)) :
    statementsLeft (t.settle o).1 = 0 := by
  unfold Task.settle
  cases t.forwarding <;> cases o <;> rfl

theorem inv_run (db : Db) (acts : List Act) : Inv False (run Transactions.step (start db) acts) := by
  have hstart : Inv False (start db) := inv_idle False List.nodup_nil List.nodup_nil
  exact (run_ok acts hstart False.elim).1

theorem locked_turn (h : Locked r.state) (b : Bool) : Locked (step x r b).state := by
  unfold step
  split
  · exact locked_step h _
  · exact locked_step h _
  · exact h

theorem ready_locks {c : Call} {t : Task} (h : Ready c t) : c.locks = [] := by
  cases t with
  | direct d =>
      cases d with
      | send senderUserId dto =>
          rw [show c = .idle from h]
          rfl
      | forward f recipientUserId envelopes =>
          rw [h.1]
          rfl
  | group g =>
      cases g with
      | message senderUserId groupId dto =>
          rw [show c = .idle from h]
          rfl
      | forward f groupId ciphertext =>
          rw [h.1]
          rfl

/-- A request that ends gives all its locks back. -/
theorem rest_turn (hpid : (x !b).pid ≠ (x b).pid)
    (hsteps : Steps (x b).pid r.state (step x r b).state)
    (hstay : (step x r b).stage (!b) = r.stage (!b))
    (h : ∀ b o, r.stage b = .ended o → (r.state.calls (x b).pid).locks = []) (c : Bool)
    (o : Outcome) (hend : (step x r b).stage c = .ended o) :
    ((step x r b).state.calls (x c).pid).locks = [] := by
  by_cases hc : c = b
  · subst hc
    by_cases hbefore : ∃ o, r.stage c = .ended o
    · obtain ⟨o', ho'⟩ := hbefore
      rw [step_ended ho']
      exact h c o' ho'
    · rcases step_ended_call (not_exists.mp hbefore) hend with hcall | ⟨f, hcall⟩
      · rw [hcall]
        rfl
      · rw [hcall]
        rfl
  · obtain rfl := Bool.eq_not_iff.mpr hc
    rw [hsteps.calls _ hpid]
    exact h _ o (hstay.symm.trans hend)

end Left

end Birgap.Messaging.Transactions.Races
