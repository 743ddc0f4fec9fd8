import Birgap.Auth.Lockout

/-!
# Requesting a code again

`requestOtp` stores the row of a code and then asks the queue to deliver it. A refusal of the
queue is reported as a failure and leaves the row, which the cooldown of the next request and
the look-up of `verifyOtp` take for a code that was sent.
-/
namespace Birgap.Auth.Resend

set_option autoImplicit false

open Birgap.Common Birgap.Lib

structure TelegramOtpJobData where
  phoneHash : String
  phone : String
  code : String
  deriving DecidableEq

/-- The code the resend cooldown finds. -/
def recentOtp (env : AuthEnv) (now : Time) (phoneHash : String) (db : Db) : Option Otp :=
  Rows.newest (·.createdAt) (db.otps.filter fun o =>
    o.phoneHash == phoneHash && o.status == .unused &&
      decide (now - env.otpResendCooldownSeconds.getD 120 * 1000 ≤ o.createdAt))

def linked (env : AuthEnv) (phone : String) (db : Db) : Bool :=
  db.telegramLinks.any (·.phoneHash == phoneHashOf env phone)

/-- The dev-only escape hatch of phones without a link. -/
def devBypassAllowed (env : AuthEnv) : Bool :=
  (truthy env.otpMockCode).isSome && env.nodeEnv != some "production"

/-- The insert of a code is reached and goes through. -/
def Inserts (env : AuthEnv) (now : Time) (phone : String) (d : OtpDraws) (db : Db) : Prop :=
  (linked env phone db = true ∨ devBypassAllowed env = true) ∧
    recentOtp env now (phoneHashOf env phone) db = none ∧
    d.createError = none ∧ ∀ o ∈ db.otps, o.id ≠ d.otpId

instance (env : AuthEnv) (now : Time) (phone : String) (d : OtpDraws) (db : Db) :
    Decidable (Inserts env now phone d db) := by
  unfold Inserts
  infer_instance

/-- The job `requestOtp` adds to the Telegram queue, behind a stored code of a linked phone. -/
def requestedJob (env : AuthEnv) (now : Time) (phone : String) (d : OtpDraws) (db : Db) :
    Option TelegramOtpJobData :=
  if Inserts env now phone d db ∧ linked env phone db = true ∧ d.queueError = none then
    some { phoneHash := phoneHashOf env phone, phone := normalizePhone phone
           code := (newOtp env now (phoneHashOf env phone) d).code }
  else none

/-- The queue is asked to deliver a code that was stored, and refuses. -/
def QueueRefuses (env : AuthEnv) (now : Time) (phone : String) (d : OtpDraws) (db : Db) : Prop :=
  Inserts env now phone d db ∧ linked env phone db = true ∧ d.queueError ≠ none

/-- A call that throws leaves the table alone, and a later call that meets no failure answers,
stores and enqueues what it would have without it. -/
structure Unblocked (env : AuthEnv) (now : Time) (phone : String) (d : OtpDraws) (db : Db) : Prop where
  unchanged : ∀ e, (requestOtp env now phone d db).1 = .error e →
    (requestOtp env now phone d db).2.otps = db.otps
  retry : ∀ e, (requestOtp env now phone d db).1 = .error e →
    ∀ now' d', d'.createError = none → d'.queueError = none →
      requestOtp env now' phone d' (requestOtp env now phone d db).2 =
        requestOtp env now' phone d' db ∧
      requestedJob env now' phone d' (requestOtp env now phone d db).2 =
        requestedJob env now' phone d' db

/-! ## What one call does -/

section Call

variable (env : AuthEnv) (now : Time) (phone : String) (d : OtpDraws) (db : Db)

/-- A call inserts a code and answers as the queue does, or stores nothing. -/
theorem requestOtp_inserts :
    (Inserts env now phone d db ∧
      (requestOtp env now phone d db).2 =
        { db with otps := db.otps ++ [newOtp env now (phoneHashOf env phone) d] } ∧
      ((∃ e, (requestOtp env now phone d db).1 = .error e) ↔
        linked env phone db = true ∧ d.queueError ≠ none)) ∨
    (¬ Inserts env now phone d db ∧ (requestOtp env now phone d db).2 = db) := by
  unfold requestOtp
  dsimp only
  by_cases hlink : (!linked env phone db && !devBypassAllowed env) = true
  · have hlink' := hlink
    unfold linked devBypassAllowed at hlink'
    rw [if_pos hlink']
    refine Or.inr ⟨?_, rfl⟩
    intro h
    rcases h.1 with hl | hdev
    · simp [hl] at hlink
    · simp [hdev] at hlink
  · have hlink' := hlink
    unfold linked devBypassAllowed at hlink'
    rw [if_neg hlink']
    cases hrecent : recentOtp env now (phoneHashOf env phone) db with
    | some o =>
        have hrecent' := hrecent
        unfold recentOtp at hrecent'
        rw [hrecent']
        refine Or.inr ⟨fun h => ?_, rfl⟩
        have hnone := h.2.1
        rw [hrecent] at hnone
        cases hnone
    | none =>
        have hrecent' := hrecent
        unfold recentOtp at hrecent'
        rw [hrecent']
        cases hcreate : d.createError with
        | some reason =>
            refine Or.inr ⟨fun h => ?_, rfl⟩
            have hnone := h.2.2.1
            rw [hcreate] at hnone
            cases hnone
        | none =>
            dsimp only
            by_cases hused : db.otps.any (·.id == d.otpId) = true
            · rw [if_pos hused]
              obtain ⟨o, ho, hid⟩ := List.any_eq_true.mp hused
              exact Or.inr ⟨fun h => h.2.2.2 o ho (beq_iff_eq.mp hid), rfl⟩
            · rw [if_neg hused]
              have hinserts : Inserts env now phone d db := by
                refine ⟨?_, hrecent, hcreate, ?_⟩
                · simpa [or_iff_not_imp_left] using hlink
                · intro o ho hid
                  exact hused (List.any_eq_true.mpr ⟨o, ho, beq_iff_eq.mpr hid⟩)
              refine Or.inl ⟨hinserts, ?_, ?_⟩
              · split <;> rfl
              · show _ ↔ db.telegramLinks.any (·.phoneHash == phoneHashOf env phone) = true ∧ _
                cases hl : db.telegramLinks.any (·.phoneHash == phoneHashOf env phone) with
                | false => simp
                | true => cases d.queueError <;> simp

end Call

/-- A failed request stays without consequence exactly when it is not the queue that refuses a
stored code. -/
theorem unblocked_iff (env : AuthEnv) (now : Time) (phone : String) (d : OtpDraws) (db : Db) :
    Unblocked env now phone d db ↔ ¬ QueueRefuses env now phone d db := by
  rcases requestOtp_inserts env now phone d db with ⟨hinserts, hdb, hthrows⟩ | ⟨hnot, hdb⟩
  · constructor
    · intro h hrefuses
      obtain ⟨e, he⟩ := hthrows.mpr hrefuses.2
      have hsame := congrArg List.length (h.unchanged e he)
      rw [hdb, List.length_append, List.length_singleton] at hsame
      omega
    · intro hfine
      have hok : ∀ e, (requestOtp env now phone d db).1 ≠ .error e :=
        fun e he => hfine ⟨hinserts, hthrows.mp ⟨e, he⟩⟩
      exact ⟨fun e he => absurd he (hok e), fun e he => absurd he (hok e)⟩
  · refine iff_of_true ?_ fun h => hnot h.1
    constructor
    · intro e _
      rw [hdb]
    · intro e _ now' d' _ _
      rw [hdb]
      exact ⟨rfl, rfl⟩

/-- Redis is unreachable when the code of a linked phone is to be delivered: the row stays. -/
theorem queue_failure_blocks :
    ¬ ∀ (env : AuthEnv) (now : Time) (phone : String) (d : OtpDraws) (db : Db),
      Unblocked env now phone d db := by
  intro h
  have hrefused := (h Lockout.sampleEnv 0 "+998901112233"
    { otpId := "o1", code := "123456", queueError := some "Redis connection refused" }
    Lockout.sampleDb).unchanged (.badRequest "Failed to send OTP: Redis connection refused")
  revert hrefused
  decide

/-- After such a refusal every request within the cooldown is told that a code was sent, and
nothing is sent. -/
theorem blocked_within_cooldown {env : AuthEnv} {now now' : Time} {phone : String} {d d' : OtpDraws}
    {db : Db} (h : QueueRefuses env now phone d db)
    (hcooldown : now' - env.otpResendCooldownSeconds.getD 120 * 1000 ≤ now) :
    (∃ at_, (requestOtp env now' phone d' (requestOtp env now phone d db).2).1 =
      .ok { message := "OTP already sent. Please wait before requesting a new one."
            canResendAt := some at_ }) ∧
    requestedJob env now' phone d' (requestOtp env now phone d db).2 = none := by
  rcases requestOtp_inserts env now phone d db with ⟨_, hdb, _⟩ | ⟨hnot, _⟩
  · rw [hdb]
    obtain ⟨o, ho⟩ : ∃ o, recentOtp env now' (phoneHashOf env phone)
        { db with otps := db.otps ++ [newOtp env now (phoneHashOf env phone) d] } = some o := by
      cases hrecent : recentOtp env now' (phoneHashOf env phone)
          { db with otps := db.otps ++ [newOtp env now (phoneHashOf env phone) d] } with
      | some o => exact ⟨o, rfl⟩
      | none =>
          have hmem : newOtp env now (phoneHashOf env phone) d ∈
              ((db.otps ++ [newOtp env now (phoneHashOf env phone) d]).filter fun o =>
                o.phoneHash == phoneHashOf env phone && o.status == .unused &&
                  decide (now' - env.otpResendCooldownSeconds.getD 120 * 1000 ≤ o.createdAt)) := by
            refine List.mem_filter.mpr ⟨List.mem_append_right _ List.mem_cons_self, ?_⟩
            have hrecent : decide (now' - env.otpResendCooldownSeconds.getD 120 * 1000 ≤ now) = true :=
              decide_eq_true hcooldown
            show (_ && _) = true
            rw [Bool.and_eq_true, Bool.and_eq_true]
            exact ⟨⟨beq_self_eq_true _, rfl⟩, hrecent⟩
          rw [Rows.newest_eq_none hrecent] at hmem
          cases hmem
    constructor
    · have hlink : (!db.telegramLinks.any (·.phoneHash == phoneHashOf env phone) &&
          !((truthy env.otpMockCode).isSome && env.nodeEnv != some "production")) = false := by
        have hl : db.telegramLinks.any (·.phoneHash == phoneHashOf env phone) = true := h.2.1
        rw [hl]
        rfl
      unfold recentOtp at ho
      unfold requestOtp
      dsimp only at ho ⊢
      rw [hlink, if_neg Bool.false_ne_true, ho]
      exact ⟨_, rfl⟩
    · unfold requestedJob
      rw [if_neg]
      intro hjob
      have hnone := hjob.1.2.1
      rw [ho] at hnone
      cases hnone
  · exact absurd h.1 hnot

end Birgap.Auth.Resend
