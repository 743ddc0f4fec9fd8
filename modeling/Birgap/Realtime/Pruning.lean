import Birgap.Realtime.Tickets
import Birgap.Auth.Lockout
import Birgap.Lib.Agree

/-!
# What pruning hides from authentication

A prune may come before, between and after the calls that log in, refresh and connect. The run
with the prunes is compared with the run of the same calls without them. The two stores differ
in rows that the first has deleted; no call can tell as long as those rows are dead, which is
decided by the time and by the row alone. `Agrees` says so of two stores, and every call keeps
it and answers the same on both.
-/
namespace Birgap.Realtime.Pruning

set_option autoImplicit false

open Birgap.Common Birgap.Lib Birgap.Lib.Run Birgap.Lib.Tx Birgap.Auth
open Birgap.Auth.Lockout (lockoutMs)
open Birgap.Moderation (updateUser)

/-- One call of the authentication services. -/
inductive Call where
  | requestOtp (phone : String) (d : OtpDraws)
  | verifyOtp (phone code : String) (sm : SessionMeta) (d : Draws)
  | refresh (refreshToken : String) (sm : SessionMeta) (d : Draws)
  | consumeSocketTicket (ticket socketId : String)

inductive Op where
  | call (c : Call)
  | prune (reportRetentionDays metricsRetentionDays : Int)

structure TimedOp where
  now : Time
  op : Op

/-- What a call answers: a value, or the error it is rejected with. -/
inductive Outcome where
  | requested (r : Except Err OtpRequested)
  | issued (r : Except Err TokenPair)
  | connected (r : Except Err SocketAuth)
  deriving DecidableEq

def answer (env : AuthEnv) (now : Time) (c : Call) (db : Db) : Outcome × Db :=
  match c with
  | .requestOtp phone d => (requestOtp env now phone d db).map .requested id
  | .verifyOtp phone code sm d => (verifyOtp env now phone code sm d db).map .issued id
  | .refresh t sm d => (refresh env now t sm d db).map .issued id
  | .consumeSocketTicket ticket socketId =>
      (consumeSocketTicket env { ticket, socketId, now } db).map .connected id

def step (env : AuthEnv) (db : Db) (o : TimedOp) : Db :=
  match o.op with
  | .call c => (answer env o.now c db).2
  | .prune reports metrics => prune o.now reports metrics db

/-- The answers of the calls of a run, in order. -/
def outcomes (env : AuthEnv) (db : Db) : List TimedOp → List Outcome
  | [] => []
  | o :: ops =>
      match o.op with
      | .call c => (answer env o.now c db).1 :: outcomes env (step env db o) ops
      | .prune _ _ => outcomes env (step env db o) ops

def TimedOp.isCall (o : TimedOp) : Bool :=
  match o.op with
  | .call _ => true
  | .prune _ _ => false

/-- The same calls at the same times, without the prunes. -/
def calls (ops : List TimedOp) : List TimedOp := ops.filter TimedOp.isCall

/-- Presenting the token to `refresh` can issue a pair. -/
def usable (env : AuthEnv) (now : Time) (refreshToken : String) (db : Db) : Bool :=
  match findToken (env.sha256 refreshToken) db with
  | none => false
  | some r =>
      r.revokedAt.all (fun revokedAt =>
        decide (now < r.expiresAt) && decide (now - revokedAt ≤ graceMs env)) &&
      (activeSuspension now r.userId db).isNone

/-- No call reads this token any more: `refresh` rejects it as it rejects an unknown one. -/
def deadToken (now : Time) (r : RefreshToken) : Bool := r.revokedAt.isSome && decide (r.expiresAt ≤ now)

def deadTicket (now : Time) (t : SocketTicket) : Bool :=
  t.consumedAt.isSome || decide (t.expiresAt ≤ now)

/-- A used code that adds nothing to the sum of the lockout. -/
def deadOtp (env : AuthEnv) (now : Time) (o : Otp) : Bool :=
  o.status == .used && (o.attempts == 0 || decide (o.createdAt ≤ now - lockoutMs env))

/-- A prune deletes no token that is unrevoked or unexpired, no code that is unused, and no
code with failed guesses that the lockout still counts. -/
def PrunesDead (env : AuthEnv) (db : Db) (o : TimedOp) : Prop :=
  match o.op with
  | .call _ => True
  | .prune _ _ =>
      (∀ r ∈ db.refreshTokens, (r.expiresAt < o.now ∨ r.revokedAt.isSome = true) →
        deadToken o.now r = true) ∧
      ∀ x ∈ db.otps, (x.expiresAt < o.now ∨ x.status = .used) → deadOtp env o.now x = true

/-- The random values of the call are not stored yet. -/
def FreshDraws (env : AuthEnv) (db : Db) (o : TimedOp) : Prop :=
  match o.op with
  | .call (.requestOtp _ d) => ∀ x ∈ db.otps, x.id ≠ d.otpId
  | .call (.verifyOtp _ _ _ d) => drawn env d db = false
  | .call (.refresh _ _ d) => drawn env d db = false
  | _ => True

/-- The unique indexes that the calls look rows up in. -/
structure Stored (db : Db) : Prop where
  hashes : TokenKeys db
  sessions : Rows.Unique (·.id) db.refreshTokens
  ticketIds : Rows.Unique (·.id) db.socketTickets
  ticketHashes : Rows.Unique (·.tokenHash) db.socketTickets
  otps : Rows.Unique (·.id) db.otps

/-- `db'` is `db` without some rows that are dead at `now`, as far as the calls can see. -/
structure Agrees (env : AuthEnv) (now : Time) (db db' : Db) : Prop where
  users : db'.users = db.users
  devices : db'.devices = db.devices
  links : db'.telegramLinks = db.telegramLinks
  suspensions : db'.userSuspensions = db.userSuspensions
  tokens : Rows.Agree (deadToken now) db.refreshTokens db'.refreshTokens
  tickets : Rows.Agree (deadTicket now) db.socketTickets db'.socketTickets
  otps : Rows.Agree (deadOtp env now) db.otps db'.otps

theorem Agrees.refl (env : AuthEnv) (now : Time) (db : Db) : Agrees env now db db :=
  ⟨rfl, rfl, rfl, rfl, Rows.Agree.refl _ _, Rows.Agree.refl _ _, Rows.Agree.refl _ _⟩

/-- What is dead stays dead. -/
theorem Agrees.later {env : AuthEnv} {now now' : Time} {db db' : Db} (h : Agrees env now db db')
    (hle : now ≤ now') : Agrees env now' db db' := by
  refine { h with tokens := h.tokens.mono ?_, tickets := h.tickets.mono ?_, otps := h.otps.mono ?_ }
  · intro r hr
    simp only [deadToken, Bool.and_eq_true, decide_eq_true_eq] at hr ⊢
    exact ⟨hr.1, hr.2.trans hle⟩
  · intro t ht
    simp only [deadTicket, Bool.or_eq_true, decide_eq_true_eq] at ht ⊢
    exact ht.imp_right fun hexp => hexp.trans hle
  · intro x hx
    simp only [deadOtp, Bool.and_eq_true, Bool.or_eq_true, decide_eq_true_eq] at hx ⊢
    exact ⟨hx.1, hx.2.imp_right fun hold => hold.trans (Int.sub_le_sub_right hle _)⟩

/-- The two runs of a call answer the same and leave stores that agree. -/
structure Same {α : Type} (env : AuthEnv) (now : Time) (x y : α × Db) : Prop where
  answer : x.1 = y.1
  agrees : Agrees env now x.2 y.2
  stored : Stored x.2

theorem Same.map {α β : Type} {env : AuthEnv} {now : Time} {x y : α × Db} (h : Same env now x y)
    (f : α → β) : Same env now (x.map f id) (y.map f id) :=
  ⟨congrArg f h.answer, h.agrees, h.stored⟩

theorem usable_iff (env : AuthEnv) (now : Time) (t : String) (sm : SessionMeta) (d : Draws) (db : Db)
    (hk : TokenKeys db) (hd : drawn env d db = false) :
    (∃ pair, (refresh env now t sm d db).1 = .ok pair) ↔ usable env now t db = true := by
  rw [refresh_eq env now t sm d db hk]
  unfold usable refreshRow
  cases findToken (env.sha256 t) db with
  | none => simp
  | some r =>
      dsimp only
      cases r.revokedAt with
      | none =>
          dsimp only
          rw [issueUnlessSuspended_ok, drawn_revokeWhere, hd]
          simp [activeSuspension, revokeWhere]
      | some revokedAt =>
          dsimp only [Option.all_some]
          by_cases hexp : r.expiresAt ≤ now
          · rw [if_pos hexp, decide_eq_false (Int.not_lt.mpr hexp)]
            simp
          · rw [if_neg hexp, decide_eq_true (Int.not_le.mp hexp)]
            by_cases hgrace : now - revokedAt ≤ graceMs env
            · rw [if_pos hgrace, decide_eq_true hgrace, issueUnlessSuspended_ok, hd]
              simp
            · rw [if_neg hgrace, decide_eq_false hgrace]
              simp

theorem revokeWhere_stored {db : Db} (hs : Stored db) (p : RefreshToken → Bool) (now : Time) :
    Stored (revokeWhere p now db) :=
  { hs with
    hashes := Rows.unique_updateMany (f := fun r : RefreshToken => { r with revokedAt := some now })
      (fun _ => rfl) hs.hashes
    sessions := Rows.unique_updateMany (f := fun r : RefreshToken => { r with revokedAt := some now })
      (fun _ => rfl) hs.sessions }

theorem findTicket_live {tokenHash : String} {now : Time} {db : Db} {t : SocketTicket}
    (h : findTicket tokenHash now db = .ok t) :
    t ∈ db.socketTickets ∧ deadTicket now t = false := by
  unfold findTicket at h
  cases hf : db.socketTickets.find? (·.tokenHash == tokenHash) with
  | none =>
      rw [hf] at h
      cases h
  | some x =>
      rw [hf] at h
      dsimp only at h
      split at h
      · cases h
      · rename_i hlive
        obtain rfl := Except.ok.inj h
        exact ⟨List.mem_of_find?_eq_some hf, by simpa [deadTicket] using hlive⟩

section Calls

variable {env : AuthEnv} {now : Time} {db db' : Db} (ha : Agrees env now db db') (hs : Stored db)
include ha

theorem drawn_false {d : Draws} (hd : drawn env d db = false) : drawn env d db' = false := by
  unfold drawn at hd ⊢
  rw [List.any_eq_false] at hd ⊢
  intro r hr
  exact hd r (ha.tokens.subset hr)

theorem activeSuspension_agrees (userId : Id) :
    activeSuspension now userId db' = activeSuspension now userId db := by
  unfold activeSuspension
  rw [ha.suspensions]

/-- A revocation stamps unrevoked rows only, which are live. -/
theorem revokeWhere_agrees (p : RefreshToken → Bool) :
    Agrees env now (revokeWhere p now db) (revokeWhere p now db') := by
  refine { ha with tokens := ?_ }
  apply ha.tokens.updateMany
  intro r _ hsel
  have hnone : r.revokedAt = none := by simpa using (Bool.and_eq_true_iff.mp hsel).2
  simp [deadToken, hnone]

include hs

theorem revokeWhere_same {α : Type} (a : α) (p : RefreshToken → Bool) :
    Same env now (a, revokeWhere p now db) (a, revokeWhere p now db') :=
  ⟨rfl, revokeWhere_agrees ha p, revokeWhere_stored hs p now⟩

theorem issueTokenPair_same (userId : Id) (sm : SessionMeta) {d : Draws} (familyId : Option String)
    (hd : drawn env d db = false) :
    Same env now (issueTokenPair env now userId sm d familyId db)
      (issueTokenPair env now userId sm d familyId db') := by
  have hd' := drawn_false ha hd
  have hnew : ∀ r ∈ db.refreshTokens, r.id ≠ d.sessionId ∧ r.tokenHash ≠ env.sha256 d.refreshToken := by
    intro r hr
    have hno := List.any_eq_false.mp hd r hr
    simpa using hno
  unfold issueTokenPair
  rw [hd, hd', if_neg Bool.false_ne_true, if_neg Bool.false_ne_true]
  refine ⟨rfl, { ha with tokens := ha.tokens.append _ }, ?_⟩
  exact { hs with
    hashes := Rows.unique_append hs.hashes fun r hr => (hnew r hr).2
    sessions := Rows.unique_append hs.sessions fun r hr => (hnew r hr).1 }

theorem issueUnlessSuspended_same (userId : Id) (sm : SessionMeta) {d : Draws}
    (familyId : Option String) (hd : drawn env d db = false) :
    Same env now (issueUnlessSuspended env now userId sm d familyId db)
      (issueUnlessSuspended env now userId sm d familyId db') := by
  unfold issueUnlessSuspended throwIfSuspended
  rw [activeSuspension_agrees ha userId]
  cases activeSuspension now userId db with
  | none => exact issueTokenPair_same ha hs userId sm familyId hd
  | some s => exact ⟨rfl, ha, hs⟩

theorem refreshRow_same (t : String) (r : RefreshToken) (sm : SessionMeta) {d : Draws}
    (hd : drawn env d db = false) :
    Same env now (refreshRow env now (env.sha256 t) sm d (some r) db)
      (refreshRow env now (env.sha256 t) sm d (some r) db') := by
  unfold refreshRow
  dsimp only
  cases r.revokedAt with
  | none =>
      apply issueUnlessSuspended_same (revokeWhere_agrees ha _) (revokeWhere_stored hs _ now)
      rw [drawn_revokeWhere, hd]
  | some revokedAt =>
      dsimp only
      by_cases hexp : r.expiresAt ≤ now
      · rw [if_pos hexp, if_pos hexp]
        exact ⟨rfl, ha, hs⟩
      · rw [if_neg hexp, if_neg hexp]
        by_cases hgrace : now - revokedAt ≤ graceMs env
        · rw [if_pos hgrace, if_pos hgrace]
          exact issueUnlessSuspended_same ha hs _ _ _ hd
        · rw [if_neg hgrace, if_neg hgrace]
          exact revokeWhere_same ha hs _ _

/-- A row that is missing in one store is dead in the other, and a dead token is rejected as
an unknown one is. -/
theorem refresh_same (t : String) (sm : SessionMeta) {d : Draws} (hd : drawn env d db = false) :
    Same env now (refresh env now t sm d db) (refresh env now t sm d db') := by
  rw [refresh_eq env now t sm d db hs.hashes,
    refresh_eq env now t sm d db' (ha.tokens.unique hs.hashes)]
  unfold findToken
  rcases ha.tokens.find?_cases hs.hashes (env.sha256 t) with he | ⟨r, hr, hdead, hnone⟩
  · rw [he]
    cases db.refreshTokens.find? (·.tokenHash == env.sha256 t) with
    | none => exact ⟨rfl, ha, hs⟩
    | some r => exact refreshRow_same ha hs t r sm hd
  · rw [hr, hnone]
    unfold deadToken at hdead
    simp only [Bool.and_eq_true, Option.isSome_iff_exists, decide_eq_true_eq] at hdead
    obtain ⟨⟨revokedAt, hrev⟩, hexp⟩ := hdead
    simp only [refreshRow, hrev, if_pos hexp]
    exact ⟨rfl, ha, hs⟩

omit hs in
/-- A query for unused codes. -/
theorem unused_agrees (q : Otp → Bool) (hq : ∀ x, q x = true → x.status = .unused) :
    db'.otps.filter q = db.otps.filter q := by
  symm
  apply ha.otps.filter_eq
  intro x _ hx
  simp [deadOtp, hq x hx]

omit hs in
/-- A dead code without failed guesses adds nothing, and one with some is out of the window. -/
theorem totalAttempts_agrees (phoneHash : String) :
    totalAttempts phoneHash (now - lockoutMs env) db' =
      totalAttempts phoneHash (now - lockoutMs env) db := by
  symm
  apply ha.otps.sum_eq
  intro x _ hsel hdead
  simp only [Bool.and_eq_true, decide_eq_true_eq] at hsel
  simp only [deadOtp, Bool.and_eq_true, Bool.or_eq_true, beq_iff_eq, decide_eq_true_eq] at hdead
  rcases hdead.2 with hzero | hold
  · exact hzero
  · exact absurd hsel.2 (Int.not_lt.mpr hold)

/-- An update of an unused code by its id. -/
theorem updateOtp_same {α : Type} (a : α) {otp : Otp} (ho : otp ∈ db.otps) (hu : otp.status = .unused)
    {f : Otp → Otp} (hf : ∀ x, (f x).id = x.id) :
    Same env now (a, updateOtp otp.id f db) (a, updateOtp otp.id f db') := by
  refine ⟨rfl, { ha with otps := ?_ }, { hs with otps := Rows.unique_updateMany hf hs.otps }⟩
  apply ha.otps.updateMany
  intro x hx hid
  rw [hs.otps.eq hx ho (beq_iff_eq.mp hid)]
  simp [deadOtp, hu]

theorem otpVerify_same (phone code : String) :
    Same env now (otpVerify env now phone code db) (otpVerify env now phone code db') := by
  have hunused := unused_agrees ha
    (fun o => o.phoneHash == env.hmacSha256 (normalizePhone phone) env.phoneHashPepper &&
      o.status == .unused) (fun x hx => by simpa using (Bool.and_eq_true_iff.mp hx).2)
  have hsum := totalAttempts_agrees ha (env.hmacSha256 (normalizePhone phone) env.phoneHashPepper)
  unfold totalAttempts lockoutMs at hsum
  unfold otpVerify
  dsimp only
  rw [hsum, hunused]
  generalize (List.sum _ : Nat) = total
  by_cases hlocked : env.otpMaxAttempts.getD 5 ≤ total
  · rw [if_pos hlocked, if_pos hlocked]
    exact ⟨rfl, ha, hs⟩
  · rw [if_neg hlocked, if_neg hlocked]
    cases hnew : Rows.newest (·.createdAt) (db.otps.filter fun o =>
        o.phoneHash == env.hmacSha256 (normalizePhone phone) env.phoneHashPepper &&
          o.status == .unused) with
    | none => exact ⟨rfl, ha, hs⟩
    | some otp =>
        have hmem := List.mem_filter.mp (Rows.newest_mem hnew)
        have hu : otp.status = .unused := by simpa using (Bool.and_eq_true_iff.mp hmem.2).2
        dsimp only
        by_cases hexp : otp.expiresAt ≤ now
        · rw [if_pos hexp, if_pos hexp]
          exact ⟨rfl, ha, hs⟩
        · rw [if_neg hexp, if_neg hexp]
          cases timingSafeCompare (padStart code 6 '0') (padStart otp.code 6 '0') with
          | error e => exact ⟨rfl, ha, hs⟩
          | ok same =>
              cases same with
              | true => exact updateOtp_same ha hs _ hmem.1 hu fun _ => rfl
              | false =>
                  dsimp only
                  split
                  · exact updateOtp_same ha hs _ hmem.1 hu fun _ => rfl
                  · exact updateOtp_same ha hs _ hmem.1 hu fun _ => rfl

theorem findOrCreateUser_same (phone phoneHash : String) (d : Draws) :
    Same env now (findOrCreateUser env phone phoneHash d db)
      (findOrCreateUser env phone phoneHash d db') := by
  unfold findOrCreateUser updateUser
  rw [ha.users]
  cases db.users.find? (·.phoneHash == phoneHash) with
  | some existing => exact ⟨rfl, ha, hs⟩
  | none =>
      cases db.users.find? (·.phoneHash == env.sha256 phone) with
      | some legacy => exact ⟨rfl, { ha with users := rfl }, { hs with }⟩
      | none =>
          dsimp only
          by_cases hused : db.users.any (·.id == d.userId) = true
          · rw [if_pos hused, if_pos hused]
            exact ⟨rfl, ha, hs⟩
          · rw [if_neg hused, if_neg hused]
            exact ⟨rfl, { ha with users := rfl }, { hs with }⟩

theorem verifyOtp_same (phone code : String) (sm : SessionMeta) {d : Draws}
    (hd : drawn env d db = false) :
    Same env now (verifyOtp env now phone code sm d db) (verifyOtp env now phone code sm d db') := by
  have hotp := otpVerify_same ha hs (normalizePhone phone) code
  obtain ⟨otps, hframe⟩ := otpVerify_frame env now (normalizePhone phone) code db
  unfold verifyOtp
  dsimp only
  rcases hx : otpVerify env now (normalizePhone phone) code db with ⟨a, db₁⟩
  rcases hy : otpVerify env now (normalizePhone phone) code db' with ⟨b, db₁'⟩
  rw [hx, hy] at hotp
  rw [hx] at hframe
  obtain ⟨rfl, ha₁, hs₁⟩ := hotp
  cases a with
  | error e => exact ⟨rfl, ha₁, hs₁⟩
  | ok u =>
      have huser := findOrCreateUser_same ha₁ hs₁ (normalizePhone phone)
        (env.hmacSha256 (normalizePhone phone) env.phoneHashPepper) d
      have htokens := findOrCreateUser_tokens env (normalizePhone phone)
        (env.hmacSha256 (normalizePhone phone) env.phoneHashPepper) d db₁
      dsimp only at ha₁ hs₁ hframe huser htokens ⊢
      rcases hx₂ : findOrCreateUser env (normalizePhone phone)
        (env.hmacSha256 (normalizePhone phone) env.phoneHashPepper) d db₁ with ⟨a₂, db₂⟩
      rcases hy₂ : findOrCreateUser env (normalizePhone phone)
        (env.hmacSha256 (normalizePhone phone) env.phoneHashPepper) d db₁' with ⟨b₂, db₂'⟩
      rw [hx₂, hy₂] at huser
      rw [hx₂] at htokens
      obtain ⟨rfl, ha₂, hs₂⟩ := huser
      cases a₂ with
      | error e => exact ⟨rfl, ha₂, hs₂⟩
      | ok userId =>
          apply issueUnlessSuspended_same ha₂ hs₂
          -- neither the code nor the user is in the token table
          have hrows : db₂.refreshTokens = db.refreshTokens := by
            rw [hframe] at htokens
            exact htokens
          unfold drawn at hd ⊢
          rw [hrows, hd]

theorem requestOtp_same (phone : String) {d : OtpDraws} (hd : ∀ x ∈ db.otps, x.id ≠ d.otpId) :
    Same env now (requestOtp env now phone d db) (requestOtp env now phone d db') := by
  have hrecent := unused_agrees ha
    (fun o => o.phoneHash == phoneHashOf env phone && o.status == .unused &&
      decide (now - env.otpResendCooldownSeconds.getD 120 * 1000 ≤ o.createdAt))
    (fun x hx => by simp only [Bool.and_eq_true, beq_iff_eq] at hx; exact hx.1.2)
  have hnew : ¬ db.otps.any (·.id == d.otpId) = true := by
    simpa using hd
  have hnew' : ¬ db'.otps.any (·.id == d.otpId) = true := by
    simpa using fun x hx => hd x (ha.otps.subset hx)
  have hadded : ∀ answer : Except Err OtpRequested, Same env now
      (answer, { db with otps := db.otps ++ [newOtp env now (phoneHashOf env phone) d] })
      (answer, { db' with otps := db'.otps ++ [newOtp env now (phoneHashOf env phone) d] }) :=
    fun _ => ⟨rfl, { ha with otps := ha.otps.append _ },
      { hs with otps := Rows.unique_append hs.otps hd }⟩
  have hlinked : db'.telegramLinks.any (·.phoneHash == phoneHashOf env phone) =
      db.telegramLinks.any (·.phoneHash == phoneHashOf env phone) := by rw [ha.links]
  unfold requestOtp
  dsimp only
  rw [hlinked, hrecent]
  generalize db.telegramLinks.any (·.phoneHash == phoneHashOf env phone) = linked
  by_cases hunlinked : (!linked && !((truthy env.otpMockCode).isSome &&
      env.nodeEnv != some "production")) = true
  · rw [if_pos hunlinked, if_pos hunlinked]
    exact ⟨rfl, ha, hs⟩
  · rw [if_neg hunlinked, if_neg hunlinked]
    cases Rows.newest (·.createdAt) (db.otps.filter fun o =>
        o.phoneHash == phoneHashOf env phone && o.status == .unused &&
          decide (now - env.otpResendCooldownSeconds.getD 120 * 1000 ≤ o.createdAt)) with
    | some recent => exact ⟨rfl, ha, hs⟩
    | none =>
        cases d.createError with
        | some reason => exact ⟨rfl, ha, hs⟩
        | none =>
            dsimp only
            rw [if_neg hnew, if_neg hnew']
            cases (if linked = true then d.queueError else none) with
            | some reason => exact hadded _
            | none => exact hadded _

/-- A consumed or expired ticket is as invalid as an unknown one. -/
theorem findTicket_agrees (tokenHash : String) :
    findTicket tokenHash now db' = findTicket tokenHash now db := by
  unfold findTicket
  rcases ha.tickets.find?_cases hs.ticketHashes tokenHash with he | ⟨t, ht, hdead, hnone⟩
  · rw [he]
  · rw [ht, hnone]
    unfold deadTicket at hdead
    dsimp only
    rw [if_pos hdead]

/-- A session that is revoked or expired is as inactive as a missing one. -/
theorem checkSession_agrees (t : SocketTicket) : checkSession t now db' = checkSession t now db := by
  unfold checkSession
  rcases ha.tokens.find?_cases hs.sessions t.sessionId with he | ⟨r, hr, hdead, hnone⟩
  · rw [he]
  · rw [hr, hnone]
    have hrev : r.revokedAt.isSome = true := (Bool.and_eq_true_iff.mp hdead).1
    simp [ensure, hrev]

/-- The marked row is the live one that was found. -/
theorem consumeWrites_same {α : Type} (a : α) (c : Consume) {t : SocketTicket}
    (ht : t ∈ db.socketTickets) (hlive : deadTicket now t = false) (deviceId : Id) :
    Same env now (a, consumeWrites c t.id deviceId db) (a, consumeWrites c t.id deviceId db') := by
  refine ⟨rfl, { ha with devices := ?_, tickets := ?_ }, ?_⟩
  · simp only [consumeWrites, ha.devices]
  · apply ha.tickets.updateMany
    intro x hx hid
    rw [hs.ticketIds.eq hx ht (beq_iff_eq.mp hid)]
    exact hlive
  · exact { hs with
      ticketIds := Rows.unique_updateMany (f := markTicket c) (fun _ => rfl) hs.ticketIds
      ticketHashes := Rows.unique_updateMany (f := markTicket c) (fun _ => rfl) hs.ticketHashes }

theorem consumeSocketTicket_same (ticket socketId : String) :
    Same env now (consumeSocketTicket env { ticket, socketId, now } db)
      (consumeSocketTicket env { ticket, socketId, now } db') := by
  have hdevice : ∀ t, findDevice t db' = findDevice t db := by
    intro t
    unfold findDevice
    rw [ha.devices]
  unfold consumeSocketTicket atomically
  dsimp only
  rw [findTicket_agrees ha hs]
  cases hf : findTicket (env.sha256 ticket) now db with
  | error e => exact ⟨rfl, ha, hs⟩
  | ok t =>
      simp only [bind, Except.bind, checkSession_agrees ha hs, hdevice]
      cases checkSession t now db with
      | error e => exact ⟨rfl, ha, hs⟩
      | ok u =>
          cases findDevice t db with
          | error e => exact ⟨rfl, ha, hs⟩
          | ok device =>
              obtain ⟨hmem, hlive⟩ := findTicket_live hf
              exact consumeWrites_same ha hs _ _ hmem hlive _

/-- A call answers the same on both stores, and leaves them in agreement. -/
theorem answer_same (c : Call) (hd : FreshDraws env db ⟨now, .call c⟩) :
    Same env now (answer env now c db) (answer env now c db') := by
  cases c with
  | requestOtp phone d => exact (requestOtp_same ha hs phone hd).map Outcome.requested
  | verifyOtp phone code sm d => exact (verifyOtp_same ha hs phone code sm hd).map Outcome.issued
  | refresh t sm d => exact (refresh_same ha hs t sm hd).map Outcome.issued
  | consumeSocketTicket ticket socketId =>
      exact (consumeSocketTicket_same ha hs ticket socketId).map Outcome.connected

omit hs in
/-- A prune of dead rows. Its tickets are dead whatever it finds. -/
theorem prune_agrees (reports metrics : Int) (hp : PrunesDead env db' ⟨now, .prune reports metrics⟩) :
    Agrees env now db (prune now reports metrics db') := by
  obtain ⟨htokens, hotps⟩ := hp
  refine { ha with tokens := ha.tokens.thin ?_, tickets := ha.tickets.thin ?_
                   otps := ha.otps.thin ?_ }
  · intro r hr hgone
    apply htokens r hr
    simpa only [Bool.not_eq_false', Bool.or_eq_true, decide_eq_true_eq] using hgone
  · intro t _ hgone
    simp only [Bool.not_eq_false', Bool.or_eq_true, decide_eq_true_eq] at hgone
    simp only [deadTicket, Bool.or_eq_true, decide_eq_true_eq]
    exact hgone.symm.imp_right Int.le_of_lt
  · intro x hx hgone
    apply hotps x hx
    simpa only [Bool.not_eq_false', Bool.or_eq_true, decide_eq_true_eq, beq_iff_eq] using hgone

theorem usable_agrees (refreshToken : String) :
    usable env now refreshToken db' = usable env now refreshToken db := by
  unfold usable findToken
  rcases ha.tokens.find?_cases hs.hashes (env.sha256 refreshToken) with he | ⟨r, hr, hdead, hnone⟩
  · rw [he]
    simp only [activeSuspension_agrees ha]
  · rw [hr, hnone]
    unfold deadToken at hdead
    simp only [Bool.and_eq_true, Option.isSome_iff_exists, decide_eq_true_eq] at hdead
    obtain ⟨⟨revokedAt, hrev⟩, hexp⟩ := hdead
    simp [hrev, Int.not_lt.mpr hexp]

end Calls

/-- The calls are answered as they are without the prunes, and at any time after the run the
same refresh tokens are usable. -/
def PruningInvisible (env : AuthEnv) (db : Db) (ops : List TimedOp) : Prop :=
  outcomes env db ops = outcomes env db (calls ops) ∧
  ∀ now, (∀ o ∈ ops, o.now ≤ now) → ∀ refreshToken,
    usable env now refreshToken (run (step env) db ops) =
      usable env now refreshToken (run (step env) db (calls ops))

/-- The run with the prunes follows the run without them. -/
theorem run_same (env : AuthEnv) (ops : List TimedOp) :
    ∀ (start : Time) (db db' : Db), Agrees env start db db' → Stored db →
      (∀ o ∈ ops, start ≤ o.now) → (ops.map (·.now)).Pairwise (· ≤ ·) →
      Along (step env) (PrunesDead env) db' ops → Along (step env) (FreshDraws env) db (calls ops) →
      outcomes env db' ops = outcomes env db (calls ops) ∧
      Stored (run (step env) db (calls ops)) ∧
      ∀ now, start ≤ now → (∀ o ∈ ops, o.now ≤ now) →
        Agrees env now (run (step env) db (calls ops)) (run (step env) db' ops) := by
  induction ops with
  | nil =>
      intro start db db' ha hs _ _ _ _
      exact ⟨rfl, hs, fun now hle _ => ha.later hle⟩
  | cons o ops ih =>
      intro start db db' ha hs hstart htimes hp hf
      obtain ⟨now₀, op⟩ := o
      have ha₀ := ha.later (hstart _ List.mem_cons_self)
      rw [List.map_cons, List.pairwise_cons] at htimes
      have hrest : ∀ a ∈ ops, now₀ ≤ a.now := fun a hin => htimes.1 _ (List.mem_map_of_mem hin)
      obtain ⟨hp₀, hp⟩ := (along_cons _ _ _ _ _).mp hp
      cases op with
      | prune reports metrics =>
          -- the other run does not take this step
          have hagree := prune_agrees ha₀ reports metrics hp₀
          obtain ⟨hout, hstored, hafter⟩ := ih now₀ db _ hagree hs hrest htimes.2 hp hf
          refine ⟨hout, hstored, ?_⟩
          intro now _ hlast
          exact hafter now (hlast _ List.mem_cons_self) fun a hin => hlast a (List.mem_cons_of_mem _ hin)
      | call c =>
          obtain ⟨hf₀, hf⟩ := (along_cons _ _ _ _ _).mp hf
          have hsame := answer_same ha₀ hs c hf₀
          obtain ⟨hout, hstored, hafter⟩ :=
            ih now₀ _ _ hsame.agrees hsame.stored hrest htimes.2 hp hf
          refine ⟨?_, hstored, ?_⟩
          · show (answer env now₀ c db').1 :: _ = (answer env now₀ c db).1 :: _
            rw [← hsame.answer]
            exact congrArg _ hout
          · intro now _ hlast
            exact hafter now (hlast _ List.mem_cons_self)
              fun a hin => hlast a (List.mem_cons_of_mem _ hin)

/-- In every run whose prunes delete dead rows only, the pruning is invisible. -/
theorem pruning_invisible (env : AuthEnv) (db : Db) (ops : List TimedOp) (hs : Stored db)
    (htimes : (ops.map (·.now)).Pairwise (· ≤ ·))
    (hf : Along (step env) (FreshDraws env) db (calls ops))
    (hp : Along (step env) (PrunesDead env) db ops) : PruningInvisible env db ops := by
  cases ops with
  | nil => exact ⟨rfl, fun _ _ _ => rfl⟩
  | cons o ops =>
      have hstart : ∀ a ∈ o :: ops, o.now ≤ a.now := by
        intro a hin
        rcases List.mem_cons.mp hin with rfl | hin
        · exact Int.le_refl _
        · rw [List.map_cons, List.pairwise_cons] at htimes
          exact htimes.1 _ (List.mem_map_of_mem hin)
      obtain ⟨hout, hstored, hafter⟩ :=
        run_same env (o :: ops) o.now db db (Agrees.refl env o.now db) hs hstart htimes hp hf
      refine ⟨hout, ?_⟩
      intro now hlast refreshToken
      exact usable_agrees (hafter now (hlast o List.mem_cons_self) hlast) hstored refreshToken

def laterDraws : Draws :=
  { refreshToken := "refresh-token-of-alice-3", familyId := "f3", sessionId := "s3", userId := "u3" }

/-- Alice refreshes, and a minute later somebody presents the token she has replaced. -/
def replayAfterPrune : List TimedOp :=
  [⟨1000, .call (.refresh sampleToken {} sampleDraws)⟩, ⟨60000, .prune 365 365⟩,
   ⟨61000, .call (.refresh sampleToken {} laterDraws)⟩]

/-- Without the prune the reuse is detected and the family revoked; with it the replaced token
is unknown, and the family lives on. -/
theorem pruned_reuse_undetected :
    ¬ ∀ (env : AuthEnv) (db : Db) (ops : List TimedOp), Stored db →
      (ops.map (·.now)).Pairwise (· ≤ ·) → Along (step env) (FreshDraws env) db (calls ops) →
      PruningInvisible env db ops := by
  intro h
  have hfresh : Along (step sampleEnv) (FreshDraws sampleEnv) sampleDb (calls replayAfterPrune) := by
    simp only [calls, replayAfterPrune, TimedOp.isCall, List.filter_cons, List.filter_nil, ↓reduceIte,
      Bool.false_eq_true, along_cons]
    refine ⟨?_, ?_, along_nil _ _ _⟩
    · show drawn sampleEnv sampleDraws _ = false
      decide
    · show drawn sampleEnv laterDraws _ = false
      decide
  have hrun := h sampleEnv sampleDb replayAfterPrune ⟨by decide, by decide, by decide, by decide, by decide⟩
    (by decide) hfresh
  have hanswers := hrun.1
  revert hanswers
  decide

/-- Alice refreshes, and her first token is pruned once it has expired as well. -/
def expiredPruned : List TimedOp :=
  [⟨1000, .call (.refresh sampleToken {} sampleDraws)⟩, ⟨2592000001, .prune 365 365⟩,
   ⟨2592000500, .call (.refresh sampleToken {} laterDraws)⟩]

theorem expired_prune_invisible :
    findToken (sampleEnv.sha256 sampleToken) (run (step sampleEnv) sampleDb expiredPruned) = none ∧
      PruningInvisible sampleEnv sampleDb expiredPruned := by
  refine ⟨by decide, ?_⟩
  apply pruning_invisible sampleEnv sampleDb _ ⟨by decide, by decide, by decide, by decide, by decide⟩
    (by decide)
  · simp only [calls, expiredPruned, TimedOp.isCall, List.filter_cons, List.filter_nil, ↓reduceIte,
      Bool.false_eq_true, along_cons]
    refine ⟨?_, ?_, along_nil _ _ _⟩
    · show drawn sampleEnv sampleDraws _ = false
      decide
    · show drawn sampleEnv laterDraws _ = false
      decide
  · simp only [expiredPruned, along_cons]
    exact ⟨trivial, ⟨by decide, by decide⟩, trivial, along_nil _ _ _⟩

end Birgap.Realtime.Pruning
