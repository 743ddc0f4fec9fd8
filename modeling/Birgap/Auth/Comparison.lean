import Birgap.Auth.Attempts
import Mathlib.Data.String.Basic

/-!
# Comparing a guess with the code

`timingSafeCompare` takes care of unequal `length`s, which count UTF-16 units, and leaves the
comparison of the encodings to `timingSafeEqual`, which throws when they differ in bytes. What
it throws leaves `verifyOtp` before the attempt is counted.
-/
namespace Birgap.Auth.Comparison

set_option autoImplicit false

open Birgap.Common Birgap.Lib

/-! ## The two lengths of a string -/

section Lengths

def Ascii (s : String) : Prop := ∀ c ∈ s.toList, c.toNat < 0x80

instance (s : String) : Decidable (Ascii s) :=
  List.decidableBAll (fun c : Char => c.toNat < 0x80) s.toList

/-- The UTF-16 units of a character. -/
def utf16Size (c : Char) : Nat := if 0x10000 ≤ c.toNat then 2 else 1

theorem utf8Size_eq (c : Char) :
    c.utf8Size =
      if c.toNat ≤ 0x7f then 1 else if c.toNat ≤ 0x7ff then 2 else if c.toNat ≤ 0xffff then 3 else 4 :=
  rfl

theorem utf16Size_le (c : Char) : utf16Size c ≤ c.utf8Size := by
  rw [utf8Size_eq]
  unfold utf16Size
  split_ifs <;> omega

theorem utf16Size_eq_iff (c : Char) : utf16Size c = c.utf8Size ↔ c.toNat < 0x80 := by
  rw [utf8Size_eq]
  unfold utf16Size
  split_ifs <;> omega

theorem utf16Length_eq (s : String) : utf16Length s = (s.toList.map utf16Size).sum := rfl

theorem utf16Length_append (s t : String) : utf16Length (s ++ t) = utf16Length s + utf16Length t := by
  rw [utf16Length_eq, String.toList_append, List.map_append, List.sum_append]
  rfl

theorem utf16Length_le_utf8Len (cs : List Char) : (cs.map utf16Size).sum ≤ String.utf8Len cs := by
  induction cs with
  | nil => exact Nat.le_refl 0
  | cons c cs ih =>
      have hc := utf16Size_le c
      rw [List.map_cons, List.sum_cons, String.utf8Len_cons]
      omega

theorem utf16Length_eq_utf8Len_iff (cs : List Char) :
    (cs.map utf16Size).sum = String.utf8Len cs ↔ ∀ c ∈ cs, c.toNat < 0x80 := by
  induction cs with
  | nil => simp
  | cons c cs ih =>
      have hc := utf16Size_le c
      have hcs := utf16Length_le_utf8Len cs
      rw [List.map_cons, List.sum_cons, String.utf8Len_cons, List.forall_mem_cons, ← ih,
        ← utf16Size_eq_iff]
      omega

/-- The encodings agree in length on the strings of ASCII characters. -/
theorem utf8ByteSize_eq_iff (s : String) : s.utf8ByteSize = utf16Length s ↔ Ascii s := by
  have hsize : s.utf8ByteSize = String.utf8Len s.toList := by
    rw [← String.utf8ByteSize_ofList, String.ofList_toList]
  rw [hsize, utf16Length_eq, eq_comm]
  exact utf16Length_eq_utf8Len_iff s.toList

theorem utf16Length_zeros (n : Nat) : utf16Length (String.ofList (List.replicate n '0')) = n := by
  rw [utf16Length_eq, String.toList_ofList, List.map_replicate, List.sum_replicate_nat]
  exact Nat.mul_one n

theorem utf16Length_padStart (s : String) (width : Nat) :
    utf16Length (padStart s width '0') = max width (utf16Length s) := by
  unfold padStart
  rw [utf16Length_append, utf16Length_zeros]
  omega

theorem ascii_padStart (s : String) (width : Nat) : Ascii (padStart s width '0') ↔ Ascii s := by
  unfold padStart Ascii
  rw [String.toList_append, String.toList_ofList]
  constructor
  · intro h c hc
    exact h c (List.mem_append_right _ hc)
  · intro h c hc
    rcases List.mem_append.mp hc with hzero | hc
    · rw [List.eq_of_mem_replicate hzero]
      decide
    · exact h c hc

theorem padStart_of_le {s : String} {width : Nat} (h : width ≤ utf16Length s) :
    padStart s width '0' = s := by
  unfold padStart
  rw [Nat.sub_eq_zero_of_le h]
  exact String.empty_append

end Lengths

/-! ## The comparison -/

def SixDigits (code : String) : Prop :=
  code.toList.length = 6 ∧ ∀ c ∈ code.toList, c.isDigit = true

instance (code : String) : Decidable (SixDigits code) :=
  have := List.decidableBAll (fun c : Char => c.isDigit = true) code.toList
  instDecidableAnd

theorem SixDigits.ascii {code : String} (h : SixDigits code) : Ascii code := by
  intro c hc
  have hdigit := h.2 c hc
  simp only [Char.isDigit, Bool.and_eq_true, decide_eq_true_eq] at hdigit
  have hle : c.toNat ≤ 57 := hdigit.2
  omega

theorem SixDigits.utf16Length {code : String} (h : SixDigits code) : utf16Length code = 6 := by
  have hunits : ∀ n ∈ code.toList.map utf16Size, n = 1 := by
    intro n hn
    obtain ⟨c, hc, rfl⟩ := List.mem_map.mp hn
    have hascii := h.ascii c hc
    unfold utf16Size
    rw [if_neg (by omega)]
  rw [utf16Length_eq, List.eq_replicate_of_mem hunits, List.length_map, h.1]
  rfl

/-- Where the comparison with a six-digit code ends. -/
theorem compares_eq {otp : Otp} (h : SixDigits otp.code) (code : String) :
    Attempts.compares code otp =
      if 6 < utf16Length code then .ok false
      else if Ascii code then .ok (padStart code 6 '0' == otp.code)
      else .error (.failure "Input buffers must have the same byte length") := by
  have hlen : utf16Length (padStart code 6 '0') = max 6 (utf16Length code) :=
    utf16Length_padStart code 6
  have hbytes : otp.code.utf8ByteSize = 6 := by
    rw [(utf8ByteSize_eq_iff otp.code).mpr h.ascii, h.utf16Length]
  unfold Attempts.compares timingSafeCompare
  rw [padStart_of_le (Nat.le_of_eq h.utf16Length.symm), h.utf16Length, hlen, hbytes]
  by_cases hlong : 6 < utf16Length code
  · rw [if_pos hlong, if_pos (by omega)]
  · rw [if_neg hlong, if_neg (by omega)]
    have hsix : utf16Length (padStart code 6 '0') = 6 := by omega
    have hsame : (padStart code 6 '0').utf8ByteSize = 6 ↔ Ascii code := by
      rw [← ascii_padStart code 6, ← utf8ByteSize_eq_iff, hsix]
    by_cases hascii : Ascii code
    · rw [if_neg (not_not_intro (hsame.mpr hascii)), if_pos hascii]
    · rw [if_pos (fun he => hascii (hsame.mp he)), if_neg hascii]

/-! ## One guess -/

/-- The phone is not locked out, and `otp` is its newest unused code and has not expired. -/
structure Guessable (env : AuthEnv) (now : Time) (phone : String) (db : Db) (otp : Otp) : Prop where
  unlocked : totalAttempts (phoneHashOf env phone) (now - Lockout.lockoutMs env) db <
    Lockout.maxAttempts env
  newest : latestUnused (phoneHashOf env phone) db = some otp
  unexpired : now < otp.expiresAt
  code : SixDigits otp.code

/-- A guess uses the code up or is counted on it, and the right guesses are the accepted ones. -/
structure AcceptedOrCounted (env : AuthEnv) (now : Time) (phone code : String) (db : Db)
    (otp : Otp) : Prop where
  outcome :
    ((otpVerify env now phone code db).1 = .ok () ∧
      (otpVerify env now phone code db).2 = updateOtp otp.id (fun o => { o with status := .used }) db) ∨
    ((∃ e, (otpVerify env now phone code db).1 = .error e) ∧
      (otpVerify env now phone code db).2 =
        updateOtp otp.id (fun o => { o with attempts := o.attempts + 1 }) db)
  accepted : (otpVerify env now phone code db).1 = .ok () ↔ padStart code 6 '0' = otp.code

section Guess

variable {env : AuthEnv} {now : Time} {phone : String} {db : Db} {otp : Otp}

theorem Guessable.mem (h : Guessable env now phone db otp) : otp ∈ db.otps :=
  (List.mem_filter.mp (Rows.newest_mem h.newest)).1

/-- The comparison decides what a guess answers and stores. -/
theorem guess_outcome (h : Guessable env now phone db otp) (code : String) :
    (∃ e, Attempts.compares code otp = .error e ∧ otpVerify env now phone code db = (.error e, db)) ∨
    (Attempts.compares code otp = .ok false ∧ ∃ e, otpVerify env now phone code db =
      (.error e, updateOtp otp.id (fun o => { o with attempts := otp.attempts + 1 }) db)) ∨
    (Attempts.compares code otp = .ok true ∧ otpVerify env now phone code db =
      (.ok (), updateOtp otp.id (fun o => { o with status := .used }) db)) := by
  have hunlocked := h.unlocked
  have hnewest := h.newest
  unfold totalAttempts phoneHashOf Lockout.maxAttempts Lockout.lockoutMs at hunlocked
  unfold latestUnused phoneHashOf at hnewest
  unfold Attempts.compares otpVerify
  dsimp only
  rw [if_neg (Nat.not_le.mpr hunlocked), hnewest]
  dsimp only
  rw [if_neg (Int.not_le.mpr h.unexpired)]
  cases timingSafeCompare (padStart code 6 '0') (padStart otp.code 6 '0') with
  | error e => exact Or.inl ⟨e, rfl, rfl⟩
  | ok same =>
      cases same with
      | true => exact Or.inr (Or.inr ⟨rfl, rfl⟩)
      | false =>
          refine Or.inr (Or.inl ⟨rfl, ?_⟩)
          dsimp only
          split
          · exact ⟨_, rfl⟩
          · exact ⟨_, rfl⟩

/-- The attempts that were read are those of the row. -/
theorem counted_once (hk : Rows.Unique (·.id) db.otps) (h : otp ∈ db.otps) :
    updateOtp otp.id (fun o => { o with attempts := otp.attempts + 1 }) db =
      updateOtp otp.id (fun o => { o with attempts := o.attempts + 1 }) db := by
  unfold updateOtp Rows.updateMany
  congr 1
  apply List.map_congr_left
  intro o ho
  by_cases hid : o.id = otp.id
  · rw [hk.eq ho h hid]
  · simp [hid]

/-- Counting a guess changes the table. -/
theorem counted_ne (h : otp ∈ db.otps) :
    updateOtp otp.id (fun o => { o with attempts := o.attempts + 1 }) db ≠ db := by
  intro hsame
  have hrows : db.otps.map (fun o => if o.id == otp.id then { o with attempts := o.attempts + 1 } else o) =
      db.otps.map id := by
    rw [List.map_id]
    exact congrArg Db.otps hsame
  have hrow := List.map_inj_left.mp hrows otp h
  rw [if_pos (beq_self_eq_true _)] at hrow
  have hattempts : otp.attempts + 1 = otp.attempts := congrArg Otp.attempts hrow
  omega

end Guess

/-- What each end of the comparison makes of a guess. -/
theorem accepted_or_counted_compares {env : AuthEnv} {now : Time} {phone : String} {db : Db} {otp : Otp}
    (hk : Rows.Unique (·.id) db.otps) (h : Guessable env now phone db otp) (code : String) :
    AcceptedOrCounted env now phone code db otp ↔
      Attempts.compares code otp = .ok (decide (padStart code 6 '0' = otp.code)) := by
  rcases guess_outcome h code with ⟨e, hcmp, hout⟩ | ⟨hcmp, e, hout⟩ | ⟨hcmp, hout⟩
  · refine iff_of_false ?_ (fun hok => by rw [hcmp] at hok; cases hok)
    intro hkept
    have houtcome := hkept.outcome
    rw [hout] at houtcome
    rcases houtcome with ⟨hok, _⟩ | ⟨_, hdb⟩
    · cases hok
    · exact counted_ne h.mem hdb.symm
  · rw [hcmp]
    constructor
    · intro hkept
      have hwrong : padStart code 6 '0' ≠ otp.code := by
        intro hsame
        have hok := hkept.accepted.mpr hsame
        rw [hout] at hok
        cases hok
      rw [decide_eq_false hwrong]
    · intro hsame
      have hwrong := of_decide_eq_false (Except.ok.inj hsame).symm
      constructor
      · rw [hout, counted_once hk h.mem]
        exact Or.inr ⟨⟨e, rfl⟩, rfl⟩
      · rw [hout]
        exact iff_of_false (fun hok => by cases hok) hwrong
  · rw [hcmp]
    constructor
    · intro hkept
      have hright : padStart code 6 '0' = otp.code := hkept.accepted.mp (by rw [hout])
      rw [decide_eq_true hright]
    · intro hsame
      have hright := of_decide_eq_true (Except.ok.inj hsame).symm
      constructor
      · rw [hout]
        exact Or.inl ⟨rfl, rfl⟩
      · rw [hout]
        exact iff_of_true rfl hright

/-- Every guess is accepted or counted, except the short ones with a character outside ASCII. -/
theorem accepted_or_counted_iff {env : AuthEnv} {now : Time} {phone : String} {db : Db} {otp : Otp}
    (hk : Rows.Unique (·.id) db.otps) (h : Guessable env now phone db otp) (code : String) :
    AcceptedOrCounted env now phone code db otp ↔ 6 < utf16Length code ∨ Ascii code := by
  rw [accepted_or_counted_compares hk h code, compares_eq h.code code]
  by_cases hlong : 6 < utf16Length code
  · have hwrong : padStart code 6 '0' ≠ otp.code := by
      intro hsame
      have hlen := congrArg utf16Length hsame
      rw [utf16Length_padStart, h.code.utf16Length] at hlen
      omega
    rw [if_pos hlong, decide_eq_false hwrong]
    exact iff_of_true rfl (Or.inl hlong)
  · rw [if_neg hlong]
    by_cases hascii : Ascii code
    · rw [if_pos hascii]
      exact iff_of_true rfl (Or.inr hascii)
    · rw [if_neg hascii]
      refine iff_of_false (fun hok => by cases hok) ?_
      intro hshort
      exact hshort.elim hlong hascii

theorem sampleGuessable :
    Guessable Lockout.sampleEnv 1000 "+998901112233" Attempts.sampleDb
      { id := "o1", phoneHash := "hmac::+998901112233", code := "123456"
        expiresAt := 300000, createdAt := 0 } :=
  ⟨by decide, by decide, by decide, by decide⟩

/-- A wrong code of digits is counted. -/
theorem wrong_digits_counted :
    AcceptedOrCounted Lockout.sampleEnv 1000 "+998901112233" "0000" Attempts.sampleDb
      { id := "o1", phoneHash := "hmac::+998901112233", code := "123456"
        expiresAt := 300000, createdAt := 0 } :=
  (accepted_or_counted_iff (by decide) sampleGuessable "0000").mpr (Or.inr (by decide))

/-- Six characters of which one is not ASCII. -/
theorem accented_guess_not_counted :
    ¬ ∀ (env : AuthEnv) (now : Time) (phone code : String) (db : Db) (otp : Otp),
      Rows.Unique (·.id) db.otps → Guessable env now phone db otp →
      4 ≤ code.length → code.length ≤ 8 → AcceptedOrCounted env now phone code db otp := by
  intro h
  have hkept := (h Lockout.sampleEnv 1000 "+998901112233" "12345é" Attempts.sampleDb _ (by decide)
    sampleGuessable (by decide) (by decide)).outcome
  rcases hkept with ⟨hok, _⟩ | ⟨_, hdb⟩
  · revert hok
    decide
  · have hotps := congrArg Db.otps hdb
    revert hotps
    decide

end Birgap.Auth.Comparison
