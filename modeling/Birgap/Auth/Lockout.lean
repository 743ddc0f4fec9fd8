import Birgap.Auth.Otp
import Birgap.Lib.Run

/-!
# The lockout after failed guesses

Failed comparisons are counted on the row of the code, and the lockout sums the rows created
within the window. A guess on an old row leaves the sum before the window is over, so the
number of failed comparisons in a window is bounded along every run in which no comparison
fails while a recent failure has dropped out that way.
-/
namespace Birgap.Auth.Lockout

set_option autoImplicit false

open Birgap.Common Birgap.Lib Birgap.Lib.Run

/-- A failed comparison: its time and when the compared code was created. -/
structure Failure where
  phoneHash : String
  time : Time
  createdAt : Time

/-- The store, and every failed comparison so far. -/
structure State where
  db : Db
  failures : List Failure

inductive Op where
  | requestOtp (phone : String) (d : OtpDraws)
  | verifyOtp (phone code : String)

structure TimedOp where
  now : Time
  op : Op

def step (env : AuthEnv) (s : State) (o : TimedOp) : State :=
  match o.op with
  | .requestOtp phone d => { s with db := (requestOtp env o.now phone d s.db).2 }
  | .verifyOtp phone code =>
      { db := (otpVerify env o.now phone code s.db).2
        failures := s.failures ++ (failedComparison env o.now phone code s.db).toList.map fun otp =>
          { phoneHash := phoneHashOf env phone, time := o.now, createdAt := otp.createdAt } }

def start (db : Db) : State := { db, failures := [] }

def maxAttempts (env : AuthEnv) : Nat := env.otpMaxAttempts.getD 5

def lockoutMs (env : AuthEnv) : Int := env.otpLockoutSeconds.getD 900 * 1000

def failuresWithin (phoneHash : String) (lo hi : Time) (failures : List Failure) : Nat :=
  failures.countP fun f => f.phoneHash == phoneHash && decide (lo ≤ f.time) && decide (f.time ≤ hi)

/-- No window of the length of the lockout, its ends included, holds more than the allowed
failures. -/
def GuessesBounded (env : AuthEnv) (s : State) : Prop :=
  ∀ phoneHash lo, failuresWithin phoneHash lo (lo + lockoutMs env) s.failures ≤ maxAttempts env

/-- When a comparison fails, every failure of the last window was on a code created within
that window, so that the sum still counts it. -/
def StillCounted (env : AuthEnv) (s : State) (o : TimedOp) : Prop :=
  match o.op with
  | .requestOtp _ _ => True
  | .verifyOtp phone code =>
      failedComparison env o.now phone code s.db ≠ none →
        ∀ f ∈ s.failures, f.phoneHash = phoneHashOf env phone →
          o.now - lockoutMs env ≤ f.time → o.now - lockoutMs env < f.createdAt

/-- The failures on codes created after `since`. -/
def failuresSince (phoneHash : String) (since : Time) (failures : List Failure) : Nat :=
  failures.countP fun f => f.phoneHash == phoneHash && decide (since < f.createdAt)

/-- The store counts every failure on the row of its code. -/
structure Recorded (s : State) : Prop where
  ids : Rows.Unique (·.id) s.db.otps
  counted : ∀ phoneHash since,
    failuresSince phoneHash since s.failures ≤ totalAttempts phoneHash since s.db

theorem totalAttempts_append (phoneHash : String) (since : Time) (db : Db) (otp : Otp) :
    totalAttempts phoneHash since db ≤
      totalAttempts phoneHash since { db with otps := db.otps ++ [otp] } := by
  unfold totalAttempts
  dsimp only
  rw [List.filter_append, List.map_append, List.sum_append]
  exact Nat.le_add_right _ _

theorem totalAttempts_used (phoneHash : String) (since : Time) (db : Db) (id : Id) :
    totalAttempts phoneHash since (updateOtp id (fun o => { o with status := .used }) db) =
      totalAttempts phoneHash since db := by
  unfold totalAttempts updateOtp
  dsimp only
  rw [Rows.filter_updateMany (f := fun o : Otp => { o with status := .used }) (fun _ => rfl),
    Rows.map_updateMany (f := fun o : Otp => { o with status := .used }) (fun _ => rfl)]

/-- Counting one more attempt on a stored row. -/
theorem totalAttempts_attempt (phoneHash : String) (since : Time) {db : Db} {otp : Otp}
    (hk : Rows.Unique (·.id) db.otps) (ho : otp ∈ db.otps) :
    totalAttempts phoneHash since
        (updateOtp otp.id (fun o => { o with attempts := otp.attempts + 1 }) db) =
      totalAttempts phoneHash since db +
        if otp.phoneHash = phoneHash ∧ since < otp.createdAt then 1 else 0 := by
  have hsum := hk.sum_updateMany ho (f := fun o => { o with attempts := otp.attempts + 1 })
    (p := fun o => o.phoneHash == phoneHash && decide (since < o.createdAt)) rfl (·.attempts)
  unfold totalAttempts updateOtp
  simp only [Bool.and_eq_true, beq_iff_eq, decide_eq_true_eq] at hsum
  dsimp only
  by_cases hsel : otp.phoneHash = phoneHash ∧ since < otp.createdAt
  · rw [if_pos hsel, if_pos hsel] at hsum
    rw [if_pos hsel]
    omega
  · rw [if_neg hsel, if_neg hsel] at hsum
    rw [if_neg hsel]
    omega

/-- The compared code is a stored code of the phone, below the limit. -/
theorem failedComparison_some {env : AuthEnv} {now : Time} {phone code : String} {db : Db} {otp : Otp}
    (h : failedComparison env now phone code db = some otp) :
    otp ∈ db.otps ∧ otp.phoneHash = phoneHashOf env phone ∧
      totalAttempts (phoneHashOf env phone) (now - lockoutMs env) db < maxAttempts env := by
  unfold failedComparison at h
  dsimp only at h
  split at h
  · cases h
  · rename_i hopen
    split at h
    · cases h
    · rename_i x hx
      have hmem := List.mem_filter.mp (Rows.newest_mem hx)
      simp only [Bool.and_eq_true, beq_iff_eq] at hmem
      split at h
      · cases h
      · split at h
        · obtain rfl := Option.some.inj h
          exact ⟨hmem.1, hmem.2.1, not_le.mp hopen⟩
        · cases h

theorem start_recorded {db : Db} (hk : Rows.Unique (·.id) db.otps) : Recorded (start db) :=
  ⟨hk, fun _ _ => Nat.zero_le _⟩

theorem start_bounded (env : AuthEnv) (db : Db) : GuessesBounded env (start db) :=
  fun _ _ => Nat.zero_le _

theorem step_recorded (env : AuthEnv) (s : State) (o : TimedOp) (h : Recorded s) :
    Recorded (step env s o) := by
  obtain ⟨now, op⟩ := o
  cases op with
  | requestOtp phone d =>
      simp only [step]
      rcases requestOtp_cases env now phone d s.db with he | ⟨hfree, he⟩
      · rw [he]
        exact h
      · rw [he]
        refine ⟨Rows.unique_append h.ids hfree, ?_⟩
        intro phoneHash since
        exact (h.counted phoneHash since).trans (totalAttempts_append phoneHash since s.db _)
  | verifyOtp phone code =>
      simp only [step]
      rcases otpVerify_otps env now phone code s.db with ⟨otp, hf, he⟩ | ⟨hf, he | ⟨id, he⟩⟩
      · obtain ⟨hotp, hphone, _⟩ := failedComparison_some hf
        rw [he, hf]
        refine ⟨Rows.unique_updateMany
          (f := fun o : Otp => { o with attempts := otp.attempts + 1 }) (fun _ => rfl) h.ids, ?_⟩
        intro phoneHash since
        have hold := h.counted phoneHash since
        rw [totalAttempts_attempt phoneHash since h.ids hotp]
        unfold failuresSince at hold ⊢
        rw [Option.toList_some, List.map_singleton, List.countP_append, List.countP_singleton, ← hphone]
        simp only [Bool.and_eq_true, beq_iff_eq, decide_eq_true_eq]
        omega
      · rw [he, hf]
        simpa using h
      · rw [he, hf]
        refine ⟨Rows.unique_updateMany (f := fun o : Otp => { o with status := .used })
          (fun _ => rfl) h.ids, ?_⟩
        intro phoneHash since
        rw [totalAttempts_used]
        simpa using h.counted phoneHash since

/-- A failure is within the limit for every window that holds it: what the window holds
besides was counted when the call looked at the sum. -/
theorem step_bounded (env : AuthEnv) (s : State) (o : TimedOp) (hr : Recorded s)
    (hb : GuessesBounded env s) (hc : StillCounted env s o) : GuessesBounded env (step env s o) := by
  obtain ⟨now, op⟩ := o
  cases op with
  | requestOtp phone d => exact hb
  | verifyOtp phone code =>
      simp only [step]
      cases hf : failedComparison env now phone code s.db with
      | none =>
          intro phoneHash lo
          simpa using hb phoneHash lo
      | some otp =>
          obtain ⟨_, _, hopen⟩ := failedComparison_some hf
          intro phoneHash lo
          unfold failuresWithin
          rw [Option.toList_some, List.map_singleton, List.countP_append, List.countP_singleton]
          have hold := hb phoneHash lo
          unfold failuresWithin at hold
          by_cases hin : (phoneHashOf env phone == phoneHash && decide (lo ≤ now) &&
              decide (now ≤ lo + lockoutMs env)) = true
          · rw [if_pos hin]
            simp only [Bool.and_eq_true, beq_iff_eq, decide_eq_true_eq] at hin
            obtain ⟨⟨rfl, hlo⟩, hhi⟩ := hin
            have hle : s.failures.countP (fun f => f.phoneHash == phoneHashOf env phone &&
                  decide (lo ≤ f.time) && decide (f.time ≤ lo + lockoutMs env)) ≤
                failuresSince (phoneHashOf env phone) (now - lockoutMs env) s.failures := by
              apply List.countP_mono_left
              intro f hfm hsel
              simp only [Bool.and_eq_true, beq_iff_eq, decide_eq_true_eq] at hsel ⊢
              obtain ⟨⟨hphone, hflo⟩, _⟩ := hsel
              have hrecent : now - lockoutMs env ≤ f.time :=
                (Int.sub_right_le_of_le_add hhi).trans hflo
              exact ⟨hphone, hc (by rw [hf]; simp) f hfm hphone hrecent⟩
            have hcount := hr.counted (phoneHashOf env phone) (now - lockoutMs env)
            omega
          · rw [if_neg hin]
            omega

/-- In every run of requests and guesses whose failed comparisons find the recent failures
still counted, no window of the length of the lockout holds more than `maxAttempts` failures. -/
theorem lockout_bounds_guesses (env : AuthEnv) (db : Db) (ops : List TimedOp)
    (hk : Rows.Unique (·.id) db.otps) (hc : Along (step env) (StillCounted env) (start db) ops) :
    Always (step env) (GuessesBounded env) (start db) ops := by
  have hinv : Always (step env) (fun s => Recorded s ∧ GuessesBounded env s) (start db) ops :=
    always_of_along (fun s o h hco => ⟨step_recorded env s o h.1, step_bounded env s o h.1 h.2 hco⟩)
      ops (start db) ⟨start_recorded hk, start_bounded env db⟩ hc
  exact hinv.mono fun s h => h.2

def sampleEnv : AuthEnv :=
  { sha256 := fun s => "sha256:" ++ s, hmacSha256 := fun s k => "hmac:" ++ k ++ ":" ++ s }

def sampleDb : Db :=
  { telegramLinks := [{ id := "l1", phoneHash := "hmac::+998901112233" }] }

def sampleRequest (now : Time) (otpId : Id) : TimedOp :=
  ⟨now, .requestOtp "+998901112233" { otpId, code := "123456" }⟩

def wrongGuess (now : Time) : TimedOp := ⟨now, .verifyOtp "+998901112233" "000000"⟩

/-- Five wrong guesses just before the first code expires, and one on a second code as soon as
the first is 900 seconds old. -/
def sixGuesses : List TimedOp :=
  sampleRequest 0 "o1" :: List.replicate 5 (wrongGuess 299000) ++
    [sampleRequest 900000 "o2", wrongGuess 900000]

/-- With the default configuration (five attempts, 900 seconds) six comparisons fail within
601 seconds. -/
theorem six_guesses_within_lockout :
    ¬ ∀ (env : AuthEnv) (db : Db) (ops : List TimedOp), Rows.Unique (·.id) db.otps →
      (ops.map (·.now)).Pairwise (· ≤ ·) →
      (∀ n, env.otpTtlSeconds = some n → 0 < n) → (∀ n, env.otpResendCooldownSeconds = some n → 0 < n) →
      0 < maxAttempts env → 0 < lockoutMs env →
      Always (step env) (GuessesBounded env) (start db) ops := by
  intro h
  have hrun := h sampleEnv sampleDb sixGuesses List.nodup_nil (by decide) (by intro n hn; cases hn)
    (by intro n hn; cases hn) (by decide) (by decide)
  have hlast := hrun sixGuesses (List.prefix_refl _) "hmac::+998901112233" 299000
  revert hlast
  decide

/-- Guesses on one code within the window of its creation stay bounded. -/
theorem guesses_on_one_code_bounded :
    Always (step sampleEnv) (GuessesBounded sampleEnv) (start sampleDb)
      [sampleRequest 0 "o1", wrongGuess 1000, wrongGuess 2000] := by
  apply lockout_bounds_guesses sampleEnv sampleDb _ List.nodup_nil
  simp only [along_cons]
  refine ⟨trivial, ?_, ?_, along_nil _ _ _⟩
  · intro _ f hf
    cases hf
  · intro _ f hf _ _
    revert f
    decide

end Birgap.Auth.Lockout
