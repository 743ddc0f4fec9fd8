import Birgap.Common.Crypto
import Birgap.Lib.Rows

/-!
# Requesting and verifying a login code

`OtpService.requestOtp` and `verifyOtp`. The failed comparison is counted in a statement of
its own, so a rejected call leaves its `attempts` update behind.
-/
namespace Birgap.Auth

set_option autoImplicit false

open Birgap.Common Birgap.Lib

/-- The configuration the authentication services read. -/
structure AuthConfig where
  phoneHashPepper : String := ""
  refreshTokenTtlDays : Option Int := none
  refreshReuseGraceSeconds : Option Int := none
  suspensionAppealUrl : Option String := none
  otpMaxAttempts : Option Nat := none
  otpLockoutSeconds : Option Int := none
  otpTtlSeconds : Option Int := none
  otpResendCooldownSeconds : Option Int := none
  otpMockCode : Option String := none
  nodeEnv : Option String := none
  telegramBotUsername : Option String := none

structure AuthEnv extends AuthConfig, Digests

def phoneHashOf (env : AuthEnv) (phone : String) : String :=
  env.hmacSha256 (normalizePhone phone) env.phoneHashPepper

/-- The attempts on codes of the phone created after `since`. -/
def totalAttempts (phoneHash : String) (since : Time) (db : Db) : Nat :=
  ((db.otps.filter fun o =>
    o.phoneHash == phoneHash && decide (since < o.createdAt)).map (·.attempts)).sum

/-- The code a guess is compared with: the newest that was not used. -/
def latestUnused (phoneHash : String) (db : Db) : Option Otp :=
  Rows.newest (·.createdAt) (db.otps.filter fun o => o.phoneHash == phoneHash && o.status == .unused)

/-- What `requestOtp` answers when it does not throw. -/
structure OtpRequested where
  message : String
  canResendAt : Option Time := none
  channel : Option String := none
  expiresInSeconds : Option Int := none
  deriving DecidableEq

/-- The random values of `requestOtp`, and what its insert and its queue throw, if they do. -/
structure OtpDraws where
  otpId : Id
  code : String
  createError : Option String := none
  queueError : Option String := none

def telegramLinkRequired (env : AuthEnv) : Err :=
  let name := ((env.telegramBotUsername.getD "").toList.dropWhile Char.isWhitespace).reverse
    |>.dropWhile Char.isWhitespace |>.reverse
  let botUsername := if name.head? = some '@' then name.drop 1 else name
  .telegramLinkRequired
    "Open the BirGap Telegram bot and share your phone number to receive login codes."
    (if botUsername.isEmpty then none
      else some ("https://t.me/" ++ String.ofList botUsername ++ "?start=link"))

/-- The row of a requested code; `generateOtpCode` prefers the configured mock code. -/
def newOtp (env : AuthEnv) (now : Time) (phoneHash : String) (d : OtpDraws) : Otp :=
  { id := d.otpId, phoneHash, code := (truthy env.otpMockCode).getD d.code
    expiresAt := now + env.otpTtlSeconds.getD 300 * 1000, createdAt := now }

/-- `OtpService.requestOtp`. The row stays when the queue refuses the delivery. -/
def requestOtp (env : AuthEnv) (now : Time) (phone : String) (d : OtpDraws) (db : Db) :
    Except Err OtpRequested × Db :=
  let phoneHash := phoneHashOf env phone
  let cooldownSeconds := env.otpResendCooldownSeconds.getD 120
  let linked := db.telegramLinks.any (·.phoneHash == phoneHash)
  let devBypassAllowed := (truthy env.otpMockCode).isSome && env.nodeEnv != some "production"
  if !linked && !devBypassAllowed then (.error (telegramLinkRequired env), db)
  else
    match Rows.newest (·.createdAt) (db.otps.filter fun o =>
      o.phoneHash == phoneHash && o.status == .unused &&
        decide (now - cooldownSeconds * 1000 ≤ o.createdAt)) with
    | some recentOtp =>
        (.ok { message := "OTP already sent. Please wait before requesting a new one."
               canResendAt := some (recentOtp.createdAt + cooldownSeconds * 1000) }, db)
    | none =>
        let sendFailed := fun reason => Err.badRequest ("Failed to send OTP: " ++ reason)
        match d.createError with
        | some reason => (.error (sendFailed reason), db)
        | none =>
            if db.otps.any (·.id == d.otpId) then
              (.error (sendFailed "Unique constraint failed"), db)
            else
              let db := { db with otps := db.otps ++ [newOtp env now phoneHash d] }
              match if linked then d.queueError else none with
              | some reason => (.error (sendFailed reason), db)
              | none =>
                  (.ok { message := "OTP sent successfully", channel := some "telegram"
                         expiresInSeconds := some (env.otpTtlSeconds.getD 300) }, db)

/-- Rejects unequal lengths first; `timingSafeEqual` itself throws when the UTF-8
encodings have different lengths. -/
def timingSafeCompare (a b : String) : Except Err Bool :=
  if utf16Length a ≠ utf16Length b then .ok false
  else if a.utf8ByteSize ≠ b.utf8ByteSize then
    .error (.failure "Input buffers must have the same byte length")
  else .ok (a == b)

def tooManyAttempts (lockoutSeconds : Int) : Err :=
  .badRequest ("Too many failed attempts. Please try again in " ++
    toString ((lockoutSeconds + 59) / 60) ++ " minutes.")

def invalidCode (remainingAttempts : Int) : Err :=
  .badRequest ("Invalid OTP code. " ++ toString remainingAttempts ++ " attempt" ++
    (if remainingAttempts ≠ 1 then "s" else "") ++ " remaining.")

def updateOtp (id : Id) (f : Otp → Otp) (db : Db) : Db :=
  { db with otps := Rows.updateMany (·.id == id) f db.otps }

/-- `OtpService.verifyOtp`. -/
def otpVerify (env : AuthEnv) (now : Time) (phone code : String) (db : Db) :
    Except Err Unit × Db :=
  let phoneHash := env.hmacSha256 (normalizePhone phone) env.phoneHashPepper
  let maxAttempts := env.otpMaxAttempts.getD 5
  let lockoutSeconds := env.otpLockoutSeconds.getD 900
  let lockoutThreshold := now - lockoutSeconds * 1000
  let totalAttempts := ((db.otps.filter fun o =>
    o.phoneHash == phoneHash && decide (lockoutThreshold < o.createdAt)).map (·.attempts)).sum
  if maxAttempts ≤ totalAttempts then (.error (tooManyAttempts lockoutSeconds), db)
  else
    match Rows.newest (·.createdAt) (db.otps.filter fun o =>
      o.phoneHash == phoneHash && o.status == .unused) with
    | none => (.error (.badRequest "No active OTP found. Please request a new code."), db)
    | some otp =>
        if otp.expiresAt ≤ now then
          (.error (.badRequest "OTP has expired. Please request a new code."), db)
        else
          match timingSafeCompare (padStart code 6 '0') (padStart otp.code 6 '0') with
          | .error e => (.error e, db)
          | .ok false =>
              let db := updateOtp otp.id (fun o => { o with attempts := otp.attempts + 1 }) db
              if maxAttempts ≤ totalAttempts + 1 then
                (.error (tooManyAttempts lockoutSeconds), db)
              else (.error (invalidCode ((maxAttempts : Int) - totalAttempts - 1)), db)
          | .ok true => (.ok (), updateOtp otp.id (fun o => { o with status := .used }) db)

/-- Whatever the outcome, only the OTP table can change. -/
theorem otpVerify_frame (env : AuthEnv) (now : Time) (phone code : String) (db : Db) :
    ∃ otps, (otpVerify env now phone code db).2 = { db with otps := otps } := by
  unfold otpVerify
  dsimp only
  split
  · exact ⟨db.otps, rfl⟩
  · split
    · exact ⟨db.otps, rfl⟩
    · split
      · exact ⟨db.otps, rfl⟩
      · split
        · exact ⟨db.otps, rfl⟩
        · split <;> exact ⟨_, rfl⟩
        · exact ⟨_, rfl⟩

/-- A request adds a code under an unused id, or nothing. -/
theorem requestOtp_cases (env : AuthEnv) (now : Time) (phone : String) (d : OtpDraws) (db : Db) :
    (requestOtp env now phone d db).2 = db ∨
    ((∀ o ∈ db.otps, o.id ≠ d.otpId) ∧ (requestOtp env now phone d db).2 =
      { db with otps := db.otps ++ [newOtp env now (phoneHashOf env phone) d] }) := by
  unfold requestOtp
  dsimp only
  split
  · exact Or.inl rfl
  · split
    · exact Or.inl rfl
    · split
      · exact Or.inl rfl
      · by_cases hused : db.otps.any (·.id == d.otpId) = true
        · rw [if_pos hused]
          exact Or.inl rfl
        · rw [if_neg hused]
          refine Or.inr ⟨?_, ?_⟩
          · intro o ho he
            exact hused (List.any_eq_true.mpr ⟨o, ho, by simp [he]⟩)
          · split <;> rfl

/-- The code a call compares and finds different, if it gets that far. -/
def failedComparison (env : AuthEnv) (now : Time) (phone code : String) (db : Db) : Option Otp :=
  let phoneHash := phoneHashOf env phone
  if env.otpMaxAttempts.getD 5 ≤
      totalAttempts phoneHash (now - env.otpLockoutSeconds.getD 900 * 1000) db then none
  else
    match latestUnused phoneHash db with
    | none => none
    | some otp =>
        if otp.expiresAt ≤ now then none
        else
          match timingSafeCompare (padStart code 6 '0') (padStart otp.code 6 '0') with
          | .ok false => some otp
          | _ => none

/-- A failed comparison adds one to the attempts of its code, and no other call changes the
attempts of any. -/
theorem otpVerify_otps (env : AuthEnv) (now : Time) (phone code : String) (db : Db) :
    (∃ otp, failedComparison env now phone code db = some otp ∧
      (otpVerify env now phone code db).2 =
        updateOtp otp.id (fun o => { o with attempts := otp.attempts + 1 }) db) ∨
    (failedComparison env now phone code db = none ∧
      ((otpVerify env now phone code db).2 = db ∨
        ∃ id, (otpVerify env now phone code db).2 =
          updateOtp id (fun o => { o with status := .used }) db)) := by
  unfold failedComparison otpVerify totalAttempts latestUnused phoneHashOf
  dsimp only
  split
  · exact Or.inr ⟨rfl, Or.inl rfl⟩
  · split
    · exact Or.inr ⟨rfl, Or.inl rfl⟩
    · rename_i otp _
      split
      · exact Or.inr ⟨rfl, Or.inl rfl⟩
      · cases timingSafeCompare (padStart code 6 '0') (padStart otp.code 6 '0') with
        | error e => exact Or.inr ⟨rfl, Or.inl rfl⟩
        | ok same =>
            cases same with
            | false =>
                refine Or.inl ⟨otp, rfl, ?_⟩
                dsimp only
                split <;> rfl
            | true => exact Or.inr ⟨rfl, Or.inr ⟨otp.id, rfl⟩⟩

end Birgap.Auth
