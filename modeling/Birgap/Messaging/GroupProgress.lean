import Birgap.Messaging.GroupRaces

/-!
# Both messages come to their end

A group transaction waits only at its insert and at its attachments, and only for a
transaction that is past its own insert. Of two requests with one group at most one is, so
the other never waits for it in a circle: every schedule can be completed, and one after the
other both succeed.
-/
namespace Birgap.Messaging.Transactions.Races.GroupSends

set_option autoImplicit false

open Birgap.Lib Birgap.Lib.Run Birgap.Lib.Tx Birgap.Messages Birgap.Groups

/-! ## One statement less -/

section Statements

variable {y : Side} {g : GroupTask} {s : State}

theorem abort_left (hg : y.task = .group g) (e : Err) {k : Nat} (hk : 0 < k) :
    statementsLeft ((s.abort y.pid y.task e).1.calls y.pid) < k := by
  rw [abort_group hg]
  show statementsLeft ((s.leave y.pid _).calls y.pid) < k
  rw [leave_self, settle_left]
  exact hk

/-- A statement that need not wait brings the request on. -/
theorem left_next (hg : y.task = .group g) (hunlocked : Unlocked s.locks y s.db)
    (hnow : Established y s.db (s.calls y.pid)) :
    statementsLeft ((exec s (y.next (s.calls y.pid))).1.calls y.pid) <
      statementsLeft (s.calls y.pid) := by
  generalize hcall : s.calls y.pid = c at hnow
  cases hnow with
  | entered hopens =>
      have hnone := hopens.1
      rw [hg] at hnone
      simp only [Side.next, exec, hcall, checkTask, hg, hnone, set_self]
      simp [statementsLeft]
  | checked _ _ =>
      simp only [Side.next, exec, hcall, numberTask, hg, set_self]
      simp [statementsLeft]
  | numbered _ _ _ =>
      simp only [Side.next, exec, hcall]
      split
      · rw [set_self]
        simp [statementsLeft]
      · exact abort_left hg _ (by simp [statementsLeft])
  | replied _ _ _ _ =>
      simp only [Side.next, exec, hcall]
      split
      · rw [set_self]
        simp [statementsLeft]
      · exact abort_left hg _ (by simp [statementsLeft])
  | @owned _ n replyTo hreads =>
      simp only [Side.next, exec, hcall]
      split
      · rw [lock_self]
        · simp [statementsLeft]
        · refine hunlocked.insert n replyTo ?_
          intro g' hg'
          exact numbers_group hg' hreads.numbers
      · exact abort_left hg _ (by simp [statementsLeft])
  | @inserted _ n replyTo _ _ =>
      simp only [Side.next, exec, hcall]
      split
      · rename_i w hwrites
        rw [(new_row y n replyTo).id] at hwrites
        rw [lock_self (hunlocked.attach w hwrites)]
        simp [statementsLeft]
      · exact abort_left hg _ (by simp [statementsLeft])
  | attached _ _ _ =>
      simp only [Side.next, exec, hcall, hg, leave_self]
      simp [statementsLeft]

end Statements

/-! ## One turn less -/

variable {x : Bool → Side} {groupId : Id} {table : Locks.Table Lock} {r : Race} {d : Bool → Bool}

/-- Beside a request without locks, nobody holds what the other will ask for. -/
theorem Racing.unlocked (h : Racing groupId table x r d) {b : Bool}
    (hother : (r.state.calls (x !b).pid).locks = [])
    (hclears : Clears table (x b) r.state.db) : Unlocked r.state.locks (x b) r.state.db := by
  have hheld : ∀ l q, q ≠ (x b).pid → (l, q) ∈ r.state.locks → (l, q) ∈ table := by
    intro l q hq hl
    refine h.others l q ?_ hl
    intro c
    by_cases hc : c = b
    · rwa [hc]
    · obtain rfl := Bool.eq_not_iff.mpr hc
      rintro rfl
      have hmem := h.locked.held l _ hl
      rw [hother] at hmem
      cases hmem
  refine ⟨?_, ?_⟩
  · intro n replyTo hn l hl q hq hin
    exact hclears.unlocked.insert n replyTo hn l hl q hq (hheld l q hq hin)
  · intro w hw l hl q hq hin
    exact hclears.unlocked.attach w hw l hl q hq (hheld l q hq hin)

/-- A turn of a request that has not ended, beside one without locks. -/
theorem turn_left (hx : Independent x groupId) (h : Racing groupId table x r d) {b : Bool}
    (hother : (r.state.calls (x !b).pid).locks = []) (hopen : ∀ o, r.stage b ≠ .ended o) :
    turnsLeft x (step x r b) b < turnsLeft x r b := by
  obtain ⟨g, hg, _⟩ := hx.toGroup b
  have htarget := h.target b
  have hphase := h.phase b
  generalize hd : d b = e at hphase
  generalize hstage : r.stage b = stage at hphase
  have hbefore : ∀ n, stage = .running → statementsLeft (r.state.calls (x b).pid) = n →
      turnsLeft x r b = n := by
    rintro n rfl hn
    rw [turnsLeft_running hstage, hn]
  cases hphase with
  | waiting hready _ =>
      have hnine : turnsLeft x r b = 9 := by
        unfold turnsLeft
        rw [hstage]
      rcases (step_waiting hstage hready).2 with ⟨_, hrun, hcall⟩ | ⟨_, m, _, hend⟩ | ⟨_, hend⟩
      · rw [hnine, turnsLeft_running hrun, hcall]
        simp [statementsLeft]
      · rw [hnine, turnsLeft_ended hend]
        simp
      · rw [hnine, turnsLeft_ended hend]
        simp
  | opened hclears hnow _ =>
      have hless := left_next hg (h.unlocked hother hclears) hnow
      rw [turnsLeft_running hstage]
      cases hnext : (step x r b).stage b with
      | waiting => exact absurd hnext step_begun
      | running =>
          rw [turnsLeft_running hnext, step_running hstage]
          exact hless
      | ended o =>
          rw [turnsLeft_ended hnext]
          omega
  | overtaken hnow =>
      rcases (overtaken_turn (hx.toGroup b) htarget hstage hnow).2 with ⟨hrun, _, hless⟩ | hend
      · rwa [turnsLeft_running hrun, turnsLeft_running hstage]
      · rw [turnsLeft_ended hend, turnsLeft_running hstage]
        generalize r.state.calls (x b).pid = c at hnow
        cases hnow <;> simp [statementsLeft]
  | committed hcall =>
      rw [turnsLeft_ended (step_enqueue hstage htarget hcall).2, turnsLeft_running hstage, hcall]
      simp [statementsLeft]
  | succeeded id => exact absurd hstage (hopen _)
  | failed => exact absurd hstage (hopen _)

/-! ## One of the two never waits -/

/-- A group request without locks, or one that has inserted the next number. -/
theorem phase_locks {y : Side} {s : State} {stage : Stage} {e : Bool} (hgroup : ToGroup groupId y)
    (hrest : ∀ o, stage = .ended o → (s.calls y.pid).locks = [])
    (h : Phase groupId table y s stage e) :
    (s.calls y.pid).locks = [] ∨ ∃ ids n replyTo, Numbers y.ctx s.db ids n y.task ∧
      ∀ l ∈ (y.new n replyTo).locks, (l, y.pid) ∈ s.locks := by
  obtain ⟨g, hg, _⟩ := hgroup
  have hnumber : ∀ n, y.task.numberLocks n = [] := by
    intro n
    rw [hg]
    rfl
  cases h with
  | waiting hready _ => exact Or.inl (ready_locks hready)
  | opened _ hnow hholds =>
      generalize s.calls y.pid = c at hnow hholds
      cases hnow with
      | entered _ => exact Or.inl rfl
      | checked _ _ => exact Or.inl rfl
      | numbered _ _ _ => exact Or.inl (hnumber _)
      | replied _ _ _ _ => exact Or.inl (hnumber _)
      | owned _ => exact Or.inl (hnumber _)
      | inserted hreads _ => exact Or.inr ⟨_, _, _, hreads.numbers, hholds.2⟩
      | attached hreads _ _ => exact Or.inr ⟨_, _, _, hreads.numbers, hholds.2⟩
  | overtaken hnow =>
      generalize s.calls y.pid = c at hnow
      cases hnow with
      | numbered _ => exact Or.inl (hnumber _)
      | replied _ => exact Or.inl (hnumber _)
      | owned _ => exact Or.inl (hnumber _)
  | committed hcall =>
      rw [hcall]
      exact Or.inl rfl
  | succeeded id => exact Or.inl (hrest _ rfl)
  | failed => exact Or.inl (hrest _ rfl)

theorem one_without_locks (hx : Independent x groupId) (h : Racing groupId table x r d) :
    ∃ b, (r.state.calls (x !b).pid).locks = [] := by
  rcases phase_locks (hx.toGroup true) (h.rest true) (h.phase true) with
    htrue | ⟨ids, n, replyTo, hn, hheld⟩
  · exact ⟨false, htrue⟩
  · rcases phase_locks (hx.toGroup false) (h.rest false) (h.phase false) with
      hfalse | ⟨ids', n', replyTo', hn', hheld'⟩
    · exact ⟨true, hfalse⟩
    · exact (one_insert (hx.toGroup true) (hx.toGroup false) hx.pids h.inv.exclusive hn hn' hheld
        hheld').elim

/-! ## The end of both -/

/-- Where turns of one request lead from `r`: the other stays as it is. -/
def Beside (groupId : Id) (table : Locks.Table Lock) (x : Bool → Side) (b : Bool) (r : Race)
    (d : Bool → Bool) (r' : Race) : Prop :=
  ∃ d', Racing groupId table x r' d' ∧ (r'.state.calls (x !b).pid).locks = [] ∧
    r'.stage (!b) = r.stage (!b) ∧
    (r.stage (!b) ≠ .running → (∀ c, d c = false) → ∀ c, d' c = false)

theorem beside_turn (hx : Independent x groupId) {b : Bool} {r' : Race}
    (h : Beside groupId table x b r d r') : Beside groupId table x b r d (step x r' b) := by
  obtain ⟨d', h', hother, hsame, hd'⟩ := h
  obtain ⟨d₁, h₁, hd₁⟩ := racing_step hx h' b
  obtain ⟨hsteps, hstay⟩ := h'.turn_steps b
  refine ⟨d₁, h₁, ?_, hstay.trans hsame, ?_⟩
  · rw [hsteps.calls _ (hx.other b).2]
    exact hother
  · intro hstage hd
    refine hd₁.mpr ⟨hd' hstage hd, ?_⟩
    intro _ hrun
    exact absurd (hsame.symm.trans hrun) hstage

/-- With the turns it has left, a request beside one without locks comes to its end. -/
theorem ends_alone (hx : Independent x groupId) (b : Bool) (h : Racing groupId table x r d)
    (hother : (r.state.calls (x !b).pid).locks = []) :
    ∃ turns d', Racing groupId table x (run (step x) r (List.replicate turns b)) d' ∧
      (∃ o, (run (step x) r (List.replicate turns b)).stage b = .ended o) ∧
      (run (step x) r (List.replicate turns b)).stage (!b) = r.stage (!b) ∧
      (r.stage (!b) ≠ .running → (∀ c, d c = false) → ∀ c, d' c = false) := by
  have hturn : ∀ r', Beside groupId table x b r d r' → (¬ ∃ o, r'.stage b = .ended o) →
      Beside groupId table x b r d (step x r' b) ∧
        turnsLeft x (step x r' b) b < turnsLeft x r' b := by
    intro r' hbeside hopen
    obtain ⟨_, h', hother', _⟩ := id hbeside
    exact ⟨beside_turn hx hbeside, turn_left hx h' hother' (not_exists.mp hopen)⟩
  obtain ⟨turns, ⟨d', h', _, hsame, hd'⟩, hend⟩ := exists_replicate (step x) b _ _
    (fun r' => turnsLeft x r' b) hturn _ ⟨d, h, hother, rfl, fun _ hd => hd⟩ le_rfl
  exact ⟨turns, d', h', hend, hsame, hd'⟩

/-- First the one, then the other. -/
theorem ends_in_turn (hx : Independent x groupId) (h : Racing groupId table x r d) {b : Bool}
    (hother : (r.state.calls (x !b).pid).locks = []) :
    ∃ n m d', Racing groupId table x
        (run (step x) r (List.replicate n b ++ List.replicate m !b)) d' ∧
      (∀ c, ∃ o, (run (step x) r (List.replicate n b ++ List.replicate m !b)).stage c = .ended o) ∧
      (r.stage (!b) ≠ .running → (∀ c, d c = false) → ∀ c, d' c = false) := by
  obtain ⟨n, d₁, h₁, ⟨o, ho⟩, hsame, hd₁⟩ := ends_alone hx b h hother
  have hrest : ((run (step x) r (List.replicate n b)).state.calls (x !(!b)).pid).locks = [] := by
    rw [Bool.not_not]
    exact h₁.rest b o ho
  obtain ⟨m, d₂, h₂, hend, hsame₂, hd₂⟩ := ends_alone hx (!b) h₁ hrest
  rw [Bool.not_not] at hsame₂ hd₂
  refine ⟨n, m, d₂, ?_, ?_, ?_⟩
  · rw [run_append]
    exact h₂
  · rw [run_append, Bool.forall_bool' b]
    exact ⟨⟨o, hsame₂.trans ho⟩, hend⟩
  · intro hstage hd
    refine hd₂ ?_ (hd₁ hstage hd)
    rw [ho]
    simp

section Reachable

/-- Every schedule of the two requests can be completed: neither waits for ever. -/
theorem sends_end {s : State} (hx : Independent x groupId) (hinv : Inv False s)
    (hlocked : Locked s) (hready : ∀ b, Ready (s.calls (x b).pid) (x b).task)
    (halone : ∀ b, SucceedsAlone x s b) (schedule : List Bool) :
    ∃ more, ∀ b, ∃ o, (run (step x) (waiting s) (schedule ++ more)).stage b = .ended o := by
  obtain ⟨d, hend, _⟩ := racing_run hx schedule (racing_start hx hinv hlocked hready halone)
  obtain ⟨b, hother⟩ := one_without_locks hx hend
  obtain ⟨n, m, _, _, hboth, _⟩ := ends_in_turn hx hend hother
  refine ⟨List.replicate n b ++ List.replicate m !b, ?_⟩
  rw [run_append]
  exact hboth

/-- One after the other, in either order, both succeed. -/
theorem serial_succeed {s : State} (hx : Independent x groupId) (hinv : Inv False s)
    (hlocked : Locked s) (hready : ∀ b, Ready (s.calls (x b).pid) (x b).task)
    (halone : ∀ b, SucceedsAlone x s b) (b : Bool) :
    ∃ n m, ∀ c, ∃ id, (run (step x) (waiting s)
      (List.replicate n b ++ List.replicate m !b)).stage c = .ended (.succeeded id) := by
  have hbegin := racing_start hx hinv hlocked hready halone
  obtain ⟨n, m, d, hend, hboth, hd⟩ := ends_in_turn hx hbegin (ready_locks (hready !b))
  refine ⟨n, m, fun c => (hend.succeeded_iff (hboth c)).mpr (hd ?_ (fun _ => rfl) c)⟩
  show Stage.waiting ≠ .running
  simp

variable {db : Db} {acts : List Act}

theorem independent_sends_end (hx : Independent x groupId)
    (hready : ∀ b, Ready ((run Transactions.step (start db) acts).calls (x b).pid) (x b).task)
    (halone : ∀ b, SucceedsAlone x (run Transactions.step (start db) acts) b)
    (schedule : List Bool) : ∃ more, ∀ b, ∃ o,
      (run (step x) (waiting (run Transactions.step (start db) acts)) (schedule ++ more)).stage b =
        .ended o :=
  sends_end hx (inv_run db acts) (locked_run db acts) hready halone schedule

theorem serial_sends_succeed (hx : Independent x groupId)
    (hready : ∀ b, Ready ((run Transactions.step (start db) acts).calls (x b).pid) (x b).task)
    (halone : ∀ b, SucceedsAlone x (run Transactions.step (start db) acts) b) (b : Bool) :
    ∃ n m, ∀ c, ∃ id, (run (step x) (waiting (run Transactions.step (start db) acts))
      (List.replicate n b ++ List.replicate m !b)).stage c = .ended (.succeeded id) :=
  serial_succeed hx (inv_run db acts) (locked_run db acts) hready halone b

end Reachable

end Birgap.Messaging.Transactions.Races.GroupSends
