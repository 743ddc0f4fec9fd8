import Birgap.Messaging.RetryRaces

/-!
# Both copies come to their end

A direct transaction has the pair of its thread from its number on, a group transaction the
key of its message from its insert on, and neither has any lock before that. Two copies ask
for the same pair or key, so at most one of them has locks and they never wait in a circle:
every schedule can be completed. One after the other they are answered alike.
-/
namespace Birgap.Messaging.Transactions.Races.Retries

set_option autoImplicit false

open Birgap.Lib Birgap.Lib.Run Birgap.Lib.Tx Birgap.Messages Birgap.Groups

/-! ## One statement -/

/-- Where the call of a request is, whatever its statements have found. -/
inductive Stands (y : Side) : Call → Prop where
  | idle : Stands y .idle
  | entered : Stands y (.entered y.task)
  | checked (ids : List Id) : Stands y (.checked y.task ids)
  | numbered (n : Numbered) : Stands y (.numbered y.task n)
  | replied (n : Numbered) (replyTo : Option Id) : Stands y (.replied y.task n replyTo)
  | owned (n : Numbered) (replyTo : Option Id) : Stands y (.owned y.task n replyTo)
  | inserted (n : Numbered) (replyTo : Option Id) :
      Stands y (.inserted y.task n (y.new n replyTo))
  | attached (n : Numbered) (replyTo : Option Id) (w : MediaWrites) :
      Stands y (.attached y.task n (y.new n replyTo) w)
  | recovering : Stands y (.recovering y.task)
  | enqueueing (m : Message) (created : Bool) : Stands y (.enqueueing y.task m created)

/-- What a statement of a request does to its call. Where nobody else has a lock it does not
wait. -/
structure Moves (y : Side) (s s' : State) : Prop where
  stands : Stands y (s'.calls y.pid)
  holds : Holds y s'.locks (s'.calls y.pid)
  less : (∀ l q, q ≠ y.pid → (l, q) ∉ s.locks) →
    statementsLeft (s'.calls y.pid) < statementsLeft (s.calls y.pid)

section Statements

variable {y : Side} {s : State} {c : Call}

theorem moves_set (hc : Stands y c) (hholds : Holds y s.locks c)
    (hless : statementsLeft c < statementsLeft (s.calls y.pid)) : Moves y s (s.set y.pid c) := by
  refine ⟨?_, ?_, fun _ => ?_⟩
  · rwa [set_self]
  · rwa [set_self]
  · rwa [set_self]

theorem moves_leave (db : Db) (hc : Stands y c) (hholds : ∀ locks, Holds y locks c)
    (hless : statementsLeft c < statementsLeft (s.calls y.pid)) :
    Moves y s ({ s with db := db }.leave y.pid c) := by
  refine ⟨?_, ?_, fun _ => ?_⟩
  · rwa [leave_self]
  · rw [leave_self]
    exact hholds _
  · rwa [leave_self]

theorem moves_lock {ks : List Lock} (hbefore : Stands y (s.calls y.pid))
    (hkept : Holds y s.locks (s.calls y.pid)) (hc : Stands y c)
    (hholds : Holds y (Locks.acquire s.locks y.pid ks) c)
    (hless : statementsLeft c < statementsLeft (s.calls y.pid)) :
    Moves y s (s.lock y.pid ks c) := by
  have hwait : (∀ l q, q ≠ y.pid → (l, q) ∉ s.locks) →
      statementsLeft ((s.lock y.pid ks c).calls y.pid) < statementsLeft (s.calls y.pid) := by
    intro hfree
    rw [lock_self fun l _ q hq => hfree l q hq]
    exact hless
  refine ⟨?_, ?_, hwait⟩ <;> unfold State.lock <;> split
  · show Stands y (Function.update s.calls y.pid c y.pid)
    rwa [Function.update_self]
  · exact hbefore
  · show Holds y _ (Function.update s.calls y.pid c y.pid)
    rwa [Function.update_self]
  · exact hkept

/-- A request that is no part of a forward leaves its call idle. -/
theorem settle_idle (hrequest : y.task.forwarding = none) (o : Except Err (Message × Bool)) :
    (y.task.settle o).1 = .idle := by
  unfold Task.settle
  rw [hrequest]
  cases o <;> rfl

theorem moves_finish (hrequest : y.task.forwarding = none) (db : Db)
    (o : Except Err (Message × Bool)) (hopen : 0 < statementsLeft (s.calls y.pid)) :
    Moves y s ({ s with db := db }.finish y.pid (y.task.settle o)).1 := by
  show Moves y s ({ s with db := db }.leave y.pid (y.task.settle o).1)
  rw [settle_idle hrequest]
  exact moves_leave db .idle (fun _ => trivial) hopen

theorem moves_abort (hrequest : y.task.forwarding = none) (e : Err)
    (hopen : 1 < statementsLeft (s.calls y.pid)) :
    Moves y s (s.abort y.pid y.task e).1 := by
  unfold State.abort
  split
  · exact moves_leave s.db .recovering (fun _ => trivial) hopen
  · exact moves_finish hrequest s.db _ (by omega)

/-- The statement after the look-up, case by case where the call stands. -/
theorem moves_next (hrequest : y.task.forwarding = none) (hstands : Stands y (s.calls y.pid))
    (hopen : InFlight (s.calls y.pid)) (hholds : Holds y s.locks (s.calls y.pid)) :
    Moves y s (exec s (y.next (s.calls y.pid))).1 := by
  have hhere := hstands
  have hkept := hholds
  generalize hcall : s.calls y.pid = c at hstands hholds hopen
  cases hstands with
  | idle => exact hopen.elim
  | entered =>
      simp only [Side.next, exec, hcall, checkTask]
      cases ht : y.task with
      | direct d =>
          dsimp only
          split
          · rw [← ht]
            exact moves_set (.checked _) trivial (by simp [hcall, statementsLeft])
          · rw [← ht]
            exact moves_abort hrequest _ (by simp [hcall, statementsLeft])
      | group g =>
          dsimp only
          split
          · rw [← ht]
            exact moves_leave s.db (.enqueueing _ _) (fun _ => trivial)
              (by simp [hcall, statementsLeft])
          · rw [← ht]
            exact moves_set (.checked _) trivial (by simp [hcall, statementsLeft])
  | checked ids =>
      simp only [Side.next, exec, hcall, numberTask]
      cases ht : y.task with
      | direct d =>
          dsimp only
          split
          · rw [← ht]
            refine moves_lock hhere hkept (.numbered _) ?_ (by simp [hcall, statementsLeft])
            intro d' hd'
            cases ht.symm.trans hd'
            exact Locks.mem_acquire.mpr (Or.inr ⟨List.mem_cons_self, rfl⟩)
          · rw [← ht]
            exact moves_abort hrequest _ (by simp [hcall, statementsLeft])
      | group g =>
          dsimp only
          rw [← ht]
          refine moves_set (.numbered _) ?_ (by simp [hcall, statementsLeft])
          intro d hd
          cases ht.symm.trans hd
  | numbered n =>
      simp only [Side.next, exec, hcall]
      split
      · exact moves_set (.replied _ _) hholds (by simp [hcall, statementsLeft])
      · exact moves_abort hrequest _ (by simp [hcall, statementsLeft])
  | replied n replyTo =>
      simp only [Side.next, exec, hcall]
      split
      · exact moves_set (.owned _ _) hholds (by simp [hcall, statementsLeft])
      · exact moves_abort hrequest _ (by simp [hcall, statementsLeft])
  | owned n replyTo =>
      simp only [Side.next, exec, hcall]
      split
      · refine moves_lock hhere hkept (.inserted n replyTo) ⟨?_, ?_⟩
          (by simp [hcall, statementsLeft])
        · exact fun d hd => Locks.mem_acquire.mpr (Or.inl (hholds d hd))
        · exact fun l hl => Locks.mem_acquire.mpr (Or.inr ⟨hl, rfl⟩)
      · exact moves_abort hrequest _ (by simp [hcall, statementsLeft])
  | inserted n replyTo =>
      simp only [Side.next, exec, hcall]
      split
      · refine moves_lock hhere hkept (.attached n replyTo _) ⟨?_, ?_⟩
          (by simp [hcall, statementsLeft])
        · exact fun d hd => Locks.mem_acquire.mpr (Or.inl (hholds.1 d hd))
        · exact fun l hl => Locks.mem_acquire.mpr (Or.inl (hholds.2 l hl))
      · exact moves_abort hrequest _ (by simp [hcall, statementsLeft])
  | attached n replyTo w =>
      simp only [Side.next, exec, hcall]
      split
      · exact moves_finish hrequest _ _ (by simp [hcall, statementsLeft])
      · exact moves_leave _ (.enqueueing _ _) (fun _ => trivial) (by simp [hcall, statementsLeft])
  | recovering =>
      simp only [Side.next, exec, hcall]
      split <;> exact moves_finish hrequest s.db _ (by simp [hcall, statementsLeft])
  | enqueueing m created =>
      simp only [Side.next, exec, hcall]
      exact moves_finish hrequest s.db _ (by simp [hcall, statementsLeft])

/-! ## The lock two copies share -/

/-- The pair of a direct message, the key of a group message. -/
def ownLock (t : Task) : Lock :=
  match t with
  | .direct d => .pair (DirectTask.pair d).1 (DirectTask.pair d).2
  | .group _ => .messageKey t.senderDeviceId t.idempotencyKey

/-- A call without its own lock has none. -/
theorem Stands.locks {locks : Locks.Table Lock} (h : Stands y c) (hholds : Holds y locks c) :
    c.locks = [] ∨ (ownLock y.task, y.pid) ∈ locks := by
  cases ht : y.task with
  | direct d =>
      cases h with
      | numbered n => exact Or.inr (hholds d ht)
      | replied n replyTo => exact Or.inr (hholds d ht)
      | owned n replyTo => exact Or.inr (hholds d ht)
      | inserted n replyTo => exact Or.inr (hholds.1 d ht)
      | attached n replyTo w => exact Or.inr (hholds.1 d ht)
      | _ => exact Or.inl rfl
  | group g =>
      have hkey : ∀ n replyTo, (∀ l ∈ (y.new n replyTo).locks, (l, y.pid) ∈ locks) →
          (ownLock (.group g), y.pid) ∈ locks := by
        intro n replyTo hall
        have hlock := hall _ (key_lock y n replyTo)
        rwa [ht] at hlock
      have hnumber : ∀ n, y.task.numberLocks n = [] := by
        intro n
        rw [ht]
        rfl
      cases h with
      | numbered n => exact Or.inl (hnumber n)
      | replied n replyTo => exact Or.inl (hnumber n)
      | owned n replyTo => exact Or.inl (hnumber n)
      | inserted n replyTo => exact Or.inr (hkey n replyTo hholds.2)
      | attached n replyTo w => exact Or.inr (hkey n replyTo hholds.2)
      | _ => exact Or.inl rfl

end Statements

/-! ## One turn -/

/-- What holds between the turns of two copies that nobody else keeps waiting. -/
structure Turning (x : Bool → Side) (r : Race) : Prop where
  inv : Inv False r.state
  locked : Locked r.state
  ready : ∀ b, r.stage b = .waiting → Ready (r.state.calls (x b).pid) (x b).task
  running : ∀ b, r.stage b = .running → Stands (x b) (r.state.calls (x b).pid) ∧
    InFlight (r.state.calls (x b).pid) ∧ Holds (x b) r.state.locks (r.state.calls (x b).pid)
  rest : ∀ b o, r.stage b = .ended o → (r.state.calls (x b).pid).locks = []
  others : ∀ l q, (l, q) ∈ r.state.locks → ∃ b, q = (x b).pid

variable {x : Bool → Side} {r : Race} {s : State}

theorem turning_waiting (hinv : Inv False s) (hlocked : Locked s) (hquiet : s.locks = [])
    (hready : ∀ b, Ready (s.calls (x b).pid) (x b).task) : Turning x (waiting s) where
  inv := hinv
  locked := hlocked
  ready b _ := hready b
  running b h := by cases h
  rest b o h := by cases h
  others l q hl := by
    rw [show (waiting s).state.locks = [] from hquiet] at hl
    cases hl

/-- A call that has come back has ended its request. -/
theorem inFlight_of_running {y : Side} {b : Bool} {o : State × Option Returned}
    (hrequest : y.task.forwarding = none) (hstands : Stands y (o.1.calls y.pid))
    (h : (r.after b y o).stage b = .running) : InFlight (o.1.calls y.pid) := by
  rw [after_self] at h
  generalize o.1.calls y.pid = c at hstands h
  cases hstands with
  | idle =>
      cases hout : outcome y.task .idle o.2 with
      | some e =>
          rw [hout] at h
          cases h
      | none =>
          unfold outcome at hout
          rw [hrequest] at hout
          cases hret : o.2 with
          | none =>
              rw [hret] at hout
              cases hout
          | some returned =>
              rw [hret] at hout
              cases returned <;> cases hout
  | _ => trivial

theorem turning_step (hx : Copies x) (h : Turning x r) (b : Bool) : Turning x (step x r b) := by
  obtain ⟨hcopy, hpid⟩ := hx.other b
  obtain ⟨hsteps, hstay⟩ := step_steps (h.ready b)
  have hself : (step x r b).stage b = .running →
      Stands (x b) ((step x r b).state.calls (x b).pid) ∧
        InFlight ((step x r b).state.calls (x b).pid) ∧
        Holds (x b) (step x r b).state.locks ((step x r b).state.calls (x b).pid) := by
    intro hrun
    cases hstage : r.stage b with
    | waiting =>
        rcases (step_waiting hstage (h.ready b hstage)).2 with
          ⟨_, _, hcall⟩ | ⟨_, m, _, hend⟩ | ⟨_, hend⟩
        · rw [hcall]
          exact ⟨.entered, trivial, trivial⟩
        · cases hend.symm.trans hrun
        · cases hend.symm.trans hrun
    | running =>
        obtain ⟨hstands, hopen, hholds⟩ := h.running b hstage
        have hmoves := moves_next hcopy.request hstands hopen hholds
        rw [step_running hstage] at hrun ⊢
        exact ⟨hmoves.stands, inFlight_of_running hcopy.request hmoves.stands hrun, hmoves.holds⟩
    | ended o =>
        rw [step_ended hstage] at hrun
        cases hstage.symm.trans hrun
  refine ⟨inv_turn h.inv b, locked_turn h.locked b, ?_, ?_, rest_turn hpid hsteps hstay h.rest, ?_⟩
  · rw [Bool.forall_bool' b, hstay, hsteps.calls _ hpid]
    exact ⟨fun hwaiting => absurd hwaiting step_begun, h.ready !b⟩
  · rw [Bool.forall_bool' b, hstay, hsteps.calls _ hpid]
    refine ⟨hself, fun hrun => ?_⟩
    obtain ⟨hstands, hopen, hholds⟩ := h.running (!b) hrun
    exact ⟨hstands, hopen, hholds.mono fun l hl => (hsteps.locks l _ hpid).mpr hl⟩
  · intro l q hl
    by_cases hq : q = (x b).pid
    · exact ⟨b, hq⟩
    · exact h.others l q ((hsteps.locks l q hq).mp hl)

/-- A turn of a copy that has not ended, beside one without locks. -/
theorem turning_left (hx : Copies x) (h : Turning x r) {b : Bool}
    (hother : (r.state.calls (x !b).pid).locks = []) (hopen : ∀ o, r.stage b ≠ .ended o) :
    turnsLeft x (step x r b) b < turnsLeft x r b := by
  obtain ⟨hcopy, _⟩ := hx.other b
  have hfree : ∀ l q, q ≠ (x b).pid → (l, q) ∉ r.state.locks := by
    intro l q hq hl
    obtain ⟨c, rfl⟩ := h.others l q hl
    have hc : c = !b := Bool.eq_not_iff.mpr fun hc => hq (by rw [hc])
    have hmem := h.locked.held l _ hl
    rw [hc, hother] at hmem
    cases hmem
  cases hstage : r.stage b with
  | waiting =>
      have hnine : turnsLeft x r b = 9 := by
        unfold turnsLeft
        rw [hstage]
      rcases (step_waiting hstage (h.ready b hstage)).2 with
        ⟨_, hrun, hcall⟩ | ⟨_, m, _, hend⟩ | ⟨_, hend⟩
      · rw [hnine, turnsLeft_running hrun, hcall]
        simp [statementsLeft]
      · rw [hnine, turnsLeft_ended hend]
        omega
      · rw [hnine, turnsLeft_ended hend]
        omega
  | running =>
      obtain ⟨hstands, hflight, hholds⟩ := h.running b hstage
      have hless := (moves_next hcopy.request hstands hflight hholds).less hfree
      rw [turnsLeft_running hstage]
      cases hnext : (step x r b).stage b with
      | waiting => exact absurd hnext step_begun
      | running =>
          rw [turnsLeft_running hnext, step_running hstage]
          exact hless
      | ended o =>
          rw [turnsLeft_ended hnext]
          omega
  | ended o => exact absurd hstage (hopen o)

theorem turning_locks (h : Turning x r) (b : Bool) :
    (r.state.calls (x b).pid).locks = [] ∨
      (ownLock (x b).task, (x b).pid) ∈ r.state.locks := by
  cases hstage : r.stage b with
  | waiting => exact Or.inl (ready_locks (h.ready b hstage))
  | running =>
      obtain ⟨hstands, _, hholds⟩ := h.running b hstage
      exact hstands.locks hholds
  | ended o => exact Or.inl (h.rest b o hstage)

theorem one_copy_without_locks (hx : Copies x) (h : Turning x r) :
    ∃ b, (r.state.calls (x !b).pid).locks = [] := by
  rcases turning_locks h true with htrue | htrue
  · exact ⟨false, htrue⟩
  · rcases turning_locks h false with hfalse | hfalse
    · exact ⟨true, hfalse⟩
    · rw [hx.copy.task] at hfalse
      exact absurd (h.inv.exclusive _ _ _ htrue hfalse) hx.pids

/-! ## The end of both -/

theorem copy_ends_alone (hx : Copies x) (b : Bool) (h : Turning x r)
    (hother : (r.state.calls (x !b).pid).locks = []) :
    ∃ n, Turning x (run (step x) r (List.replicate n b)) ∧
      ∃ o, (run (step x) r (List.replicate n b)).stage b = .ended o := by
  have hturn : ∀ r', (Turning x r' ∧ (r'.state.calls (x !b).pid).locks = []) →
      (¬ ∃ o, r'.stage b = .ended o) →
      (Turning x (step x r' b) ∧ ((step x r' b).state.calls (x !b).pid).locks = []) ∧
        turnsLeft x (step x r' b) b < turnsLeft x r' b := by
    rintro r' ⟨h', hother'⟩ hopen
    have hsteps := (step_steps (h'.ready b)).1
    refine ⟨⟨turning_step hx h' b, ?_⟩, turning_left hx h' hother' (not_exists.mp hopen)⟩
    rw [hsteps.calls _ (hx.other b).2]
    exact hother'
  obtain ⟨n, ⟨hn, _⟩, hend⟩ := exists_replicate (step x) b _ _ (fun r' => turnsLeft x r' b) hturn
    _ ⟨h, hother⟩ le_rfl
  exact ⟨n, hn, hend⟩

/-- The turns of one copy alone leave the other where it is. -/
theorem stage_alone (hx : Copies x) (b : Bool) (n : Nat) : ∀ {r : Race}, Turning x r →
    (run (step x) r (List.replicate n b)).stage (!b) = r.stage !b := by
  induction n with
  | zero => intro r _; rfl
  | succ n ih =>
      intro r h
      have hstay := (step_steps (h.ready b)).2
      exact (ih (turning_step hx h b)).trans hstay

/-- First the one, then the other. -/
theorem copies_end_in_turn (hx : Copies x) (h : Turning x r) {b : Bool}
    (hother : (r.state.calls (x !b).pid).locks = []) :
    ∃ n m, Turning x (run (step x) r (List.replicate n b)) ∧
      (∃ o, (run (step x) r (List.replicate n b)).stage b = .ended o) ∧
      ∀ c, ∃ o, (run (step x) r (List.replicate n b ++ List.replicate m !b)).stage c =
        .ended o := by
  obtain ⟨n, hn, o, ho⟩ := copy_ends_alone hx b h hother
  have hrest : ((run (step x) r (List.replicate n b)).state.calls (x !(!b)).pid).locks = [] := by
    rw [Bool.not_not]
    exact hn.rest b o ho
  obtain ⟨m, hm, hend⟩ := copy_ends_alone hx (!b) hn hrest
  have hstay := stage_alone hx (!b) m hn
  rw [Bool.not_not] at hstay
  refine ⟨n, m, hn, ⟨o, ho⟩, ?_⟩
  rw [run_append, Bool.forall_bool' b]
  exact ⟨⟨o, hstay.trans ho⟩, hend⟩

/-- Beside a copy that has not begun or has ended, a copy never commits too early. -/
theorem looks_again_alone (hx : Copies x) (b : Bool) (n : Nat) : ∀ {r : Race}, Turning x r →
    r.stage (!b) ≠ .running → Along (step x) (LooksAgain x) r (List.replicate n b) := by
  induction n with
  | zero => intro r _ _; exact along_nil _ _ _
  | succ n ih =>
      intro r h hother
      refine (along_cons _ _ _ _ _).mpr ⟨fun _ hrun => absurd hrun hother, ?_⟩
      refine ih (turning_step hx h b) ?_
      rwa [(step_steps (h.ready b)).2]

/-- Where no transaction is open, every schedule of two copies can be completed: neither
waits for ever. -/
theorem copies_end (hx : Copies x) (hinv : Inv False s) (hlocked : Locked s)
    (hquiet : s.locks = []) (hready : ∀ b, Ready (s.calls (x b).pid) (x b).task)
    (schedule : List Bool) :
    ∃ more, ∀ b, ∃ o, (run (step x) (waiting s) (schedule ++ more)).stage b = .ended o := by
  have hend := run_invariant (I := Turning x) (fun _ b h => turning_step hx h b) schedule _
    (turning_waiting hinv hlocked hquiet hready)
  obtain ⟨b, hother⟩ := one_copy_without_locks hx hend
  obtain ⟨n, m, _, _, hboth⟩ := copies_end_in_turn hx hend hother
  refine ⟨List.replicate n b ++ List.replicate m !b, ?_⟩
  rw [run_append]
  exact hboth

/-- One after the other, in either order, the copies end and are answered alike. -/
theorem serial_copies_alike (hx : Copies x) (hinv : Inv False s) (hlocked : Locked s)
    (hquiet : s.locks = []) (hfresh : ∀ b, Fresh (x b).ctx s.db)
    (hready : ∀ b, Ready (s.calls (x b).pid) (x b).task) (b : Bool) :
    ∃ n m, (∀ c, ∃ o, (run (step x) (waiting s)
        (List.replicate n b ++ List.replicate m !b)).stage c = .ended o) ∧
      ∀ c id, (run (step x) (waiting s) (List.replicate n b ++ List.replicate m !b)).stage c =
          .ended (.succeeded id) →
        (run (step x) (waiting s) (List.replicate n b ++ List.replicate m !b)).stage (!c) =
          .ended (.succeeded id) := by
  have hbegin := turning_waiting hinv hlocked hquiet hready
  obtain ⟨n, m, hn, ⟨o, ho⟩, hboth⟩ := copies_end_in_turn hx hbegin (ready_locks (hready !b))
  refine ⟨n, m, hboth, (answered_alike_iff hx hinv hfresh hready hboth).mpr ?_⟩
  refine (along_append _ _ _ _ _).mpr
    ⟨looks_again_alone hx b n hbegin ?_, looks_again_alone hx (!b) m hn ?_⟩
  · show Stage.waiting ≠ .running
    simp
  · rw [Bool.not_not, ho]
    simp

end Birgap.Messaging.Transactions.Races.Retries
