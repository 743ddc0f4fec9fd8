import Birgap.Auth.Lockout
import Mathlib.Logic.Function.Basic

/-!
# Counting attempts under concurrent guesses

The statements of `verifyOtp` calls interleave: the sum of the attempts, the look-up of the
code, and the write. The write stores the attempts read by the look-up plus one, so a failed
comparison goes missing exactly when another one was written in between.
-/
namespace Birgap.Auth.Attempts

set_option autoImplicit false

open Birgap.Common Birgap.Lib Birgap.Lib.Run

/-- How far a call has come: below the limit, or with the code it will compare. -/
inductive Call where
  | idle
  | summed (phoneHash code : String)
  | fetched (code : String) (otp : Otp)

/-- The store, the calls, and the phone hash of every failed comparison so far. -/
structure State where
  db : Db
  calls : Nat → Call
  failed : List String

/-- One statement of the call with number `pid`. The comparison happens with the write that
depends on it; `fail` ends a call before it compares. -/
inductive Act where
  | sum (pid : Nat) (now : Time) (phone code : String)
  | fetch (pid : Nat) (now : Time)
  | write (pid : Nat)
  | fail (pid : Nat)

def State.set (s : State) (pid : Nat) (c : Call) : State :=
  { s with calls := Function.update s.calls pid c }

@[simp] theorem State.set_self (s : State) (pid : Nat) (c : Call) : (s.set pid c).calls pid = c := by
  simp [State.set]

theorem State.set_of_ne (s : State) {pid q : Nat} (c : Call) (h : q ≠ pid) :
    (s.set pid c).calls q = s.calls q := by
  simp [State.set, h]

@[simp] theorem State.set_db (s : State) (pid : Nat) (c : Call) : (s.set pid c).db = s.db := rfl

/-- The comparison of a call with the code it fetched. -/
def compares (code : String) (otp : Otp) : Except Err Bool :=
  timingSafeCompare (padStart code 6 '0') (padStart otp.code 6 '0')

def step (env : AuthEnv) (s : State) : Act → State
  | .sum pid now phone code =>
      match s.calls pid with
      | .idle =>
          if Lockout.maxAttempts env ≤
              totalAttempts (phoneHashOf env phone) (now - Lockout.lockoutMs env) s.db then s
          else s.set pid (.summed (phoneHashOf env phone) code)
      | _ => s
  | .fetch pid now =>
      match s.calls pid with
      | .summed phoneHash code =>
          match latestUnused phoneHash s.db with
          | none => s.set pid .idle
          | some otp => if otp.expiresAt ≤ now then s.set pid .idle else s.set pid (.fetched code otp)
      | _ => s
  | .write pid =>
      match s.calls pid with
      | .fetched code otp =>
          match compares code otp with
          | .error _ => s.set pid .idle
          | .ok false =>
              { s.set pid .idle with
                db := updateOtp otp.id (fun o => { o with attempts := otp.attempts + 1 }) s.db
                failed := s.failed ++ [otp.phoneHash] }
          | .ok true =>
              { s.set pid .idle with
                db := updateOtp otp.id (fun o => { o with status := .used }) s.db }
      | _ => s
  | .fail pid => s.set pid .idle

def start (db : Db) : State := { db, calls := fun _ => .idle, failed := [] }

/-- What a whole `verifyOtp` leaves in the store. -/
theorem otpVerify_db (env : AuthEnv) (now : Time) (phone code : String) (db : Db) :
    (otpVerify env now phone code db).2 =
      if Lockout.maxAttempts env ≤
          totalAttempts (phoneHashOf env phone) (now - Lockout.lockoutMs env) db then db
      else
        match latestUnused (phoneHashOf env phone) db with
        | none => db
        | some otp =>
            if otp.expiresAt ≤ now then db
            else
              match compares code otp with
              | .error _ => db
              | .ok false => updateOtp otp.id (fun o => { o with attempts := otp.attempts + 1 }) db
              | .ok true => updateOtp otp.id (fun o => { o with status := .used }) db := by
  unfold otpVerify Lockout.maxAttempts Lockout.lockoutMs totalAttempts latestUnused phoneHashOf compares
  dsimp only
  split
  · rfl
  · cases Rows.newest (·.createdAt) (db.otps.filter fun o =>
        o.phoneHash == env.hmacSha256 (normalizePhone phone) env.phoneHashPepper &&
          o.status == .unused) with
    | none => rfl
    | some otp =>
        dsimp only
        split
        · rfl
        · cases timingSafeCompare (padStart code 6 '0') (padStart otp.code 6 '0') with
          | error e => rfl
          | ok same =>
              cases same with
              | true => rfl
              | false =>
                  dsimp only
                  split <;> rfl

/-- One call that nothing interrupts does what `verifyOtp` does. -/
theorem uninterrupted_call (env : AuthEnv) (s : State) (pid : Nat) (now : Time)
    (phone code : String) (h : s.calls pid = .idle) :
    (run (step env) s [.sum pid now phone code, .fetch pid now, .write pid]).db =
      (otpVerify env now phone code s.db).2 := by
  rw [run_cons, run_cons, run_cons, run_nil, otpVerify_db]
  have hsum : step env s (.sum pid now phone code) =
      if Lockout.maxAttempts env ≤
          totalAttempts (phoneHashOf env phone) (now - Lockout.lockoutMs env) s.db then s
      else s.set pid (.summed (phoneHashOf env phone) code) := by simp only [step, h]
  rw [hsum]
  split
  · simp only [step, h]
  · have hfetch : step env (s.set pid (.summed (phoneHashOf env phone) code)) (.fetch pid now) =
        match latestUnused (phoneHashOf env phone) s.db with
        | none => (s.set pid (.summed (phoneHashOf env phone) code)).set pid .idle
        | some otp =>
            if otp.expiresAt ≤ now then
              (s.set pid (.summed (phoneHashOf env phone) code)).set pid .idle
            else (s.set pid (.summed (phoneHashOf env phone) code)).set pid (.fetched code otp) := by
      simp only [step, State.set_self, State.set_db]
    rw [hfetch]
    split
    · simp only [step, State.set_self, State.set_db]
    · split
      · simp only [step, State.set_self, State.set_db]
      · simp only [step, State.set_self]
        split <;> rfl

/-- The sum of the attempts on all codes of a phone. -/
def attemptSum (phoneHash : String) (db : Db) : Nat :=
  ((db.otps.filter (·.phoneHash == phoneHash)).map (·.attempts)).sum

/-- Since `db` the sum has grown by the number of failed comparisons. -/
def NoneLost (db : Db) (s : State) : Prop :=
  ∀ phoneHash, attemptSum phoneHash s.db = attemptSum phoneHash db + s.failed.count phoneHash

/-- A call that writes an attempt finds the number it read still stored. -/
def ReadStillStored (s : State) : Act → Prop
  | .write pid =>
      match s.calls pid with
      | .fetched code otp => compares code otp = .ok false →
          ∀ o ∈ s.db.otps, o.id = otp.id → o.attempts = otp.attempts
      | _ => True
  | _ => True

/-- The index of the table, and a stored row for every fetched code. -/
structure Wf (s : State) : Prop where
  ids : Rows.Unique (·.id) s.db.otps
  fetched : ∀ pid code otp, s.calls pid = .fetched code otp →
    ∃ o ∈ s.db.otps, o.id = otp.id ∧ o.phoneHash = otp.phoneHash

theorem start_wf {db : Db} (hk : Rows.Unique (·.id) db.otps) : Wf (start db) := by
  refine ⟨hk, ?_⟩
  intro pid code otp h
  cases h

/-- A call that moves without writing. -/
theorem Wf.set {s : State} (h : Wf s) (pid : Nat) {c : Call}
    (hc : ∀ code otp, c = .fetched code otp →
      ∃ o ∈ s.db.otps, o.id = otp.id ∧ o.phoneHash = otp.phoneHash) : Wf (s.set pid c) := by
  refine ⟨h.ids, ?_⟩
  intro q code otp hq
  by_cases he : q = pid
  · subst he
    rw [State.set_self] at hq
    exact hc code otp hq
  · rw [State.set_of_ne s c he] at hq
    exact h.fetched q code otp hq

/-- Rewriting a code without its id and its phone. -/
theorem Wf.update {s : State} (h : Wf s) (id : Id) {f : Otp → Otp} (failed : List String)
    (hid : ∀ o, (f o).id = o.id) (hphone : ∀ o, (f o).phoneHash = o.phoneHash) :
    Wf { s with db := updateOtp id f s.db, failed := failed } := by
  refine ⟨Rows.unique_updateMany hid h.ids, ?_⟩
  intro pid code otp hp
  obtain ⟨o, ho, hoid, hophone⟩ := h.fetched pid code otp hp
  obtain ⟨o', ho', hkey⟩ := Rows.updateMany_kept (p := (·.id == id)) (f := f)
    (k := fun o => (o.id, o.phoneHash)) (fun o => Prod.ext (hid o) (hphone o)) ho
  obtain ⟨hid', hphone'⟩ := Prod.mk.inj hkey
  exact ⟨o', ho', hid'.trans hoid, hphone'.trans hophone⟩

theorem step_wf (env : AuthEnv) (s : State) (a : Act) (h : Wf s) : Wf (step env s a) := by
  cases a with
  | sum pid now phone code =>
      simp only [step]
      split
      · split
        · exact h
        · exact h.set pid (by intro code otp he; cases he)
      · exact h
  | fetch pid now =>
      simp only [step]
      split
      · split
        · exact h.set pid (by intro code otp he; cases he)
        · rename_i otp hf
          split
          · exact h.set pid (by intro code otp he; cases he)
          · apply h.set pid
            intro code' otp' he
            obtain ⟨_, rfl⟩ := Call.fetched.inj he
            exact ⟨otp, (List.mem_filter.mp (Rows.newest_mem hf)).1, rfl, rfl⟩
      · exact h
  | write pid =>
      simp only [step]
      split
      · rename_i code otp _
        have hidle : Wf (s.set pid .idle) := h.set pid (by intro code otp he; cases he)
        split
        · exact hidle
        · exact hidle.update otp.id (f := fun o => { o with attempts := otp.attempts + 1 })
            (s.failed ++ [otp.phoneHash]) (fun _ => rfl) (fun _ => rfl)
        · exact hidle.update otp.id (f := fun o => { o with status := .used }) s.failed
            (fun _ => rfl) (fun _ => rfl)
      · exact h
  | fail pid => exact h.set pid (by intro code otp he; cases he)

/-- Marking a code as used does not touch the attempts. -/
theorem attemptSum_used (phoneHash : String) (db : Db) (id : Id) :
    attemptSum phoneHash (updateOtp id (fun o => { o with status := .used }) db) =
      attemptSum phoneHash db := by
  unfold attemptSum updateOtp
  dsimp only
  rw [Rows.filter_updateMany (f := fun o : Otp => { o with status := .used }) (fun _ => rfl),
    Rows.map_updateMany (f := fun o : Otp => { o with status := .used }) (fun _ => rfl)]

/-- Storing `n` attempts on a row replaces what the row had. -/
theorem attemptSum_stored (phoneHash : String) {db : Db} {o : Otp} (n : Nat)
    (hk : Rows.Unique (·.id) db.otps) (ho : o ∈ db.otps) :
    attemptSum phoneHash (updateOtp o.id (fun o => { o with attempts := n }) db) +
        (if o.phoneHash = phoneHash then o.attempts else 0) =
      attemptSum phoneHash db + (if o.phoneHash = phoneHash then n else 0) := by
  have hsum := hk.sum_updateMany ho (f := fun o => { o with attempts := n })
    (p := fun o => o.phoneHash == phoneHash) rfl (·.attempts)
  unfold attemptSum updateOtp
  simpa only [beq_iff_eq] using hsum

/-- Writing a failed attempt counts it exactly when the row still has the attempts that were
read. -/
theorem attempt_written_iff {db : Db} {s : State} {otp : Otp} {calls : Nat → Call}
    (hk : Rows.Unique (·.id) s.db.otps)
    (hrow : ∃ o ∈ s.db.otps, o.id = otp.id ∧ o.phoneHash = otp.phoneHash) (h : NoneLost db s) :
    NoneLost db
        { db := updateOtp otp.id (fun o => { o with attempts := otp.attempts + 1 }) s.db
          calls := calls, failed := s.failed ++ [otp.phoneHash] } ↔
      ∀ o ∈ s.db.otps, o.id = otp.id → o.attempts = otp.attempts := by
  obtain ⟨o, ho, hid, hphone⟩ := hrow
  rw [← hid]
  constructor
  · intro hkept o' ho' hid'
    obtain rfl := hk.eq ho' ho hid'
    have hnew := hkept otp.phoneHash
    have hold := h otp.phoneHash
    have hsum := attemptSum_stored otp.phoneHash (otp.attempts + 1) hk ho
    rw [if_pos hphone, if_pos hphone] at hsum
    dsimp only at hnew
    rw [List.count_append, List.count_singleton_self] at hnew
    omega
  · intro hstored phoneHash
    have hsame := hstored o ho rfl
    have hold := h phoneHash
    have hsum := attemptSum_stored phoneHash (otp.attempts + 1) hk ho
    dsimp only
    rw [List.count_append, List.count_singleton]
    rw [hphone] at hsum
    by_cases hp : otp.phoneHash = phoneHash
    · rw [if_pos hp, if_pos hp] at hsum
      rw [if_pos (beq_iff_eq.mpr hp)]
      omega
    · rw [if_neg hp, if_neg hp] at hsum
      rw [if_neg (fun he => hp (beq_iff_eq.mp he))]
      omega

/-- One step keeps the count exactly when it does not overwrite an attempt it has not read. -/
theorem step_noneLost_iff (env : AuthEnv) (db : Db) (s : State) (a : Act) (hw : Wf s)
    (h : NoneLost db s) : NoneLost db (step env s a) ↔ ReadStillStored s a := by
  cases a with
  | sum pid now phone code =>
      refine iff_of_true ?_ trivial
      simp only [step]
      split
      · split <;> exact h
      · exact h
  | fetch pid now =>
      refine iff_of_true ?_ trivial
      simp only [step]
      split
      · split
        · exact h
        · split <;> exact h
      · exact h
  | fail pid => exact iff_of_true h trivial
  | write pid =>
      simp only [step, ReadStillStored]
      split
      · rename_i code otp hp
        cases hcmp : compares code otp with
        | error e => exact iff_of_true h (fun he => by cases he)
        | ok same =>
            cases same with
            | true =>
                refine iff_of_true ?_ (fun he => by cases he)
                intro phoneHash
                dsimp only
                rw [attemptSum_used]
                exact h phoneHash
            | false =>
                rw [attempt_written_iff hw.ids (hw.fetched pid code otp hp) h]
                exact ⟨fun hstored _ => hstored, fun hstored => hstored rfl⟩
      · exact iff_of_true h trivial

/-- In every interleaving of guesses, the attempts stored on the codes of a phone grow by
the number of failed comparisons exactly when no call overwrites an attempt that was
written after it read the code. -/
theorem attempts_kept_iff (env : AuthEnv) (db : Db) (acts : List Act)
    (hk : Rows.Unique (·.id) db.otps) :
    Always (step env) (NoneLost db) (start db) acts ↔
      Along (step env) ReadStillStored (start db) acts :=
  always_iff_along (fun s a h => step_wf env s a h) (fun s a hw h => step_noneLost_iff env db s a hw h)
    acts (start db) (start_wf hk) (fun _ => rfl)

def sampleDb : Db :=
  { otps := [{ id := "o1", phoneHash := "hmac::+998901112233", code := "123456"
               expiresAt := 300000, createdAt := 0 }] }

def wrongSum (pid : Nat) : Act := .sum pid 1000 "+998901112233" "000000"

/-- Two wrong guesses that both read the code before either of them writes. -/
def overlapping : List Act :=
  [wrongSum 0, wrongSum 1, .fetch 0 1000, .fetch 1 1000, .write 0, .write 1]

/-- Two comparisons fail and one attempt is stored. -/
theorem overlapping_guesses_lose_attempt :
    ¬ ∀ (env : AuthEnv) (db : Db) (acts : List Act), Rows.Unique (·.id) db.otps →
      Always (step env) (NoneLost db) (start db) acts := by
  intro h
  have hrun := h Lockout.sampleEnv sampleDb overlapping (by decide)
  have hlast := hrun overlapping (List.prefix_refl _) "hmac::+998901112233"
  revert hlast
  decide

/-- The same guesses one after the other. -/
theorem guesses_in_turn_counted :
    Always (step Lockout.sampleEnv) (NoneLost sampleDb) (start sampleDb)
      [wrongSum 0, .fetch 0 1000, .write 0, wrongSum 1, .fetch 1 1000, .write 1] := by
  rw [attempts_kept_iff Lockout.sampleEnv sampleDb _ (by decide)]
  simp only [along_cons]
  refine ⟨trivial, trivial, ?_, trivial, trivial, ?_, along_nil _ _ _⟩
  · intro _ o ho _
    revert o
    decide
  · intro _ o ho _
    revert o
    decide

end Birgap.Auth.Attempts
