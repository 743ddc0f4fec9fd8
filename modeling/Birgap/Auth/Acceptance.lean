import Birgap.Auth.Attempts

/-!
# A login code is accepted once

The statements of `requestOtp` and `verifyOtp` calls interleave, on one clock. A successful
call marks the code it accepted and no other, by an update that does not look at the stored
status. So a code issued before a success can be accepted afterwards: an older one that was
never marked, or one that another call has fetched already. Along every run in which a success
leaves neither behind, it is not.
-/
namespace Birgap.Auth.Acceptance

set_option autoImplicit false

open Birgap.Common Birgap.Lib Birgap.Lib.Run Birgap.Auth.Attempts

/-- How far a call of `requestOtp` has come: past the look-up of the Telegram link, or past
the look-up of a recent code. -/
inductive Request where
  | idle
  | linked (phoneHash : String)
  | creating (phoneHash : String)

/-- The guesses with their store, the requests, the clock, and every code that was stored for
a phone when a guess for that phone succeeded. -/
structure State where
  guesses : Attempts.State
  requests : Nat → Request
  clock : Time
  superseded : List Id

/-- One statement of the call with number `pid`, or the passing of time. -/
inductive Act where
  | tick (ms : Nat)
  | findLink (pid : Nat) (phone : String)
  | findRecent (pid : Nat)
  | create (pid : Nat) (d : OtpDraws)
  | failRequest (pid : Nat)
  | sum (pid : Nat) (phone code : String)
  | fetch (pid : Nat)
  | write (pid : Nat)
  | fail (pid : Nat)

def State.db (s : State) : Db := s.guesses.db

def State.setRequest (s : State) (pid : Nat) (r : Request) : State :=
  { s with requests := Function.update s.requests pid r }

/-- A statement of a guess leaves the requests and the clock alone. -/
def State.guess (s : State) (env : AuthEnv) (a : Attempts.Act) : State :=
  { s with guesses := Attempts.step env s.guesses a }

/-- Whether a phone may request a code at all. -/
def mayRequest (env : AuthEnv) (phoneHash : String) (db : Db) : Bool :=
  db.telegramLinks.any (·.phoneHash == phoneHash) ||
    ((truthy env.otpMockCode).isSome && env.nodeEnv != some "production")

/-- The code that keeps a phone from requesting another one. -/
def recentOtp (env : AuthEnv) (now : Time) (phoneHash : String) (db : Db) : Option Otp :=
  Rows.newest (·.createdAt) (db.otps.filter fun o =>
    o.phoneHash == phoneHash && o.status == .unused &&
      decide (now - env.otpResendCooldownSeconds.getD 120 * 1000 ≤ o.createdAt))

/-- The insert of a code; what follows it only delivers the code. -/
def createOtp (env : AuthEnv) (now : Time) (phoneHash : String) (d : OtpDraws) (db : Db) : Db :=
  if d.createError.isSome || db.otps.any (·.id == d.otpId) then db
  else { db with otps := db.otps ++ [newOtp env now phoneHash d] }

/-- The code a call accepts in its write. -/
def accepted (s : State) : Act → Option Otp
  | .write pid =>
      match s.guesses.calls pid with
      | .fetched code otp =>
          match compares code otp with
          | .ok true => some otp
          | _ => none
      | _ => none
  | _ => none

/-- The codes stored for the phone of an accepted one, itself included. -/
def issuedFor (otp : Otp) (db : Db) : List Id :=
  (db.otps.filter (·.phoneHash == otp.phoneHash)).map (·.id)

def step (env : AuthEnv) (s : State) : Act → State
  | .tick ms => { s with clock := s.clock + ms }
  | .findLink pid phone =>
      match s.requests pid with
      | .idle =>
          if mayRequest env (phoneHashOf env phone) s.db then
            s.setRequest pid (.linked (phoneHashOf env phone))
          else s
      | _ => s
  | .findRecent pid =>
      match s.requests pid with
      | .linked phoneHash =>
          match recentOtp env s.clock phoneHash s.db with
          | some _ => s.setRequest pid .idle
          | none => s.setRequest pid (.creating phoneHash)
      | _ => s
  | .create pid d =>
      match s.requests pid with
      | .creating phoneHash =>
          { s.setRequest pid .idle with
            guesses := { s.guesses with db := createOtp env s.clock phoneHash d s.db } }
      | _ => s
  | .failRequest pid => s.setRequest pid .idle
  | .sum pid phone code => s.guess env (.sum pid s.clock phone code)
  | .fetch pid => s.guess env (.fetch pid s.clock)
  | .write pid =>
      { s.guess env (.write pid) with
        superseded := s.superseded ++
          match accepted s (.write pid) with
          | some otp => issuedFor otp s.db
          | none => [] }
  | .fail pid => s.guess env (.fail pid)

def start (db : Db) (clock : Time) : State :=
  { guesses := Attempts.start db, requests := fun _ => .idle, clock, superseded := [] }

@[simp] theorem State.setRequest_self (s : State) (pid : Nat) (r : Request) :
    (s.setRequest pid r).requests pid = r := by
  simp [State.setRequest]

@[simp] theorem State.setRequest_db (s : State) (pid : Nat) (r : Request) :
    (s.setRequest pid r).db = s.db := rfl

@[simp] theorem State.setRequest_clock (s : State) (pid : Nat) (r : Request) :
    (s.setRequest pid r).clock = s.clock := rfl

/-- What a whole `requestOtp` leaves in the store. -/
theorem requestOtp_db (env : AuthEnv) (now : Time) (phone : String) (d : OtpDraws) (db : Db) :
    (requestOtp env now phone d db).2 =
      if mayRequest env (phoneHashOf env phone) db then
        match recentOtp env now (phoneHashOf env phone) db with
        | some _ => db
        | none => createOtp env now (phoneHashOf env phone) d db
      else db := by
  have hmay : mayRequest env (phoneHashOf env phone) db =
      !(!db.telegramLinks.any (·.phoneHash == phoneHashOf env phone) &&
        !((truthy env.otpMockCode).isSome && env.nodeEnv != some "production")) := by
    unfold mayRequest
    rw [Bool.not_and, Bool.not_not, Bool.not_not]
  unfold requestOtp
  rw [hmay]
  dsimp only
  cases !db.telegramLinks.any (·.phoneHash == phoneHashOf env phone) &&
      !((truthy env.otpMockCode).isSome && env.nodeEnv != some "production") with
  | true => rfl
  | false =>
      simp only [Bool.false_eq_true, if_false, Bool.not_false, if_true]
      cases hr : recentOtp env now (phoneHashOf env phone) db with
      | some recent =>
          unfold recentOtp at hr
          rw [hr]
      | none =>
          unfold recentOtp at hr
          rw [hr]
          unfold createOtp
          cases d.createError with
          | some reason => rfl
          | none =>
              simp only [Option.isSome_none, Bool.false_or]
              by_cases hused : db.otps.any (·.id == d.otpId) = true
              · rw [if_pos hused, if_pos hused]
              · rw [if_neg hused, if_neg hused]
                split <;> rfl

/-- A request that nothing interrupts leaves what `requestOtp` leaves. -/
theorem uninterrupted_request (env : AuthEnv) (s : State) (pid : Nat) (phone : String)
    (d : OtpDraws) (h : s.requests pid = .idle) :
    (run (step env) s [.findLink pid phone, .findRecent pid, .create pid d]).db =
      (requestOtp env s.clock phone d s.db).2 := by
  rw [run_cons, run_cons, run_cons, run_nil, requestOtp_db]
  cases hmay : mayRequest env (phoneHashOf env phone) s.db with
  | false => simp only [step, h, hmay, Bool.false_eq_true, if_false]
  | true =>
      simp only [step, h, hmay, if_true, State.setRequest_self, State.setRequest_db,
        State.setRequest_clock]
      cases recentOtp env s.clock (phoneHashOf env phone) s.db with
      | some otp => simp only [State.setRequest_self, State.setRequest_db]
      | none =>
          simp only [State.setRequest_self, State.setRequest_db, State.setRequest_clock]
          rfl

/-- A success leaves nothing to accept behind: the other unused codes of the phone have
expired, and no other call has fetched a code of the phone that it would accept. -/
def LeavesNoCode (s : State) (a : Act) : Prop :=
  ∀ otp, accepted s a = some otp →
    (∀ o ∈ s.db.otps, o.phoneHash = otp.phoneHash → o.id ≠ otp.id → o.status = .unused →
      o.expiresAt ≤ s.clock) ∧
    ∀ pid code other, a ≠ .write pid → s.guesses.calls pid = .fetched code other →
      other.phoneHash = otp.phoneHash → compares code other ≠ .ok true

/-- An accepted code was issued after the last success of its phone. -/
def AcceptsFresh (s : State) (a : Act) : Prop :=
  ∀ otp, accepted s a = some otp → otp.id ∉ s.superseded

/-- A superseded code is marked or expired, and no call is about to accept it. -/
structure Inv (s : State) : Prop where
  wf : Wf s.guesses
  stored : ∀ id ∈ s.superseded, ∃ o ∈ s.db.otps, o.id = id ∧
    (o.status ≠ .unused ∨ o.expiresAt ≤ s.clock)
  held : ∀ pid code otp, s.guesses.calls pid = .fetched code otp → otp.id ∈ s.superseded →
    compares code otp ≠ .ok true

theorem start_inv {db : Db} (clock : Time) (hk : Rows.Unique (·.id) db.otps) :
    Inv (start db clock) := by
  refine ⟨start_wf hk, ?_, ?_⟩
  · intro id hid
    cases hid
  · intro pid code otp hp
    cases hp

/-- A call that moves without writing. -/
theorem Inv.set {s : State} (h : Inv s) (pid : Nat) {c : Call}
    (hc : ∀ code otp, c = .fetched code otp → otp ∈ s.db.otps ∧ otp.id ∉ s.superseded) :
    Inv { s with guesses := s.guesses.set pid c } := by
  refine ⟨h.wf.set pid ?_, h.stored, ?_⟩
  · intro code otp he
    exact ⟨otp, (hc code otp he).1, rfl, rfl⟩
  · intro q code otp hq hid
    by_cases he : q = pid
    · subst he
      rw [Attempts.State.set_self] at hq
      exact absurd hid (hc code otp hq).2
    · rw [Attempts.State.set_of_ne _ _ he] at hq
      exact h.held q code otp hq hid

theorem Inv.idle {s : State} (h : Inv s) (pid : Nat) :
    Inv { s with guesses := s.guesses.set pid .idle } :=
  h.set pid fun _ _ he => by cases he

/-- The code a look-up finds is unused, so a superseded one has expired. -/
theorem Inv.latestUnused_fresh {s : State} (h : Inv s) {phoneHash : String} {otp : Otp}
    (hf : latestUnused phoneHash s.db = some otp) (hexp : ¬ otp.expiresAt ≤ s.clock) :
    otp ∈ s.db.otps ∧ otp.id ∉ s.superseded := by
  obtain ⟨hmem, hsel⟩ := List.mem_filter.mp (Rows.newest_mem hf)
  simp only [Bool.and_eq_true, beq_iff_eq] at hsel
  refine ⟨hmem, ?_⟩
  intro hid
  obtain ⟨o, ho, hoid, hdead⟩ := h.stored otp.id hid
  obtain rfl := h.wf.ids.eq ho hmem hoid
  rcases hdead with hused | hlate
  · exact hused hsel.2
  · exact hexp hlate

/-- Rewriting one code without its id and its expiry, and never back to unused. -/
theorem Inv.stored_update {s : State} (h : Inv s) (id : Id) {f : Otp → Otp}
    (hkey : ∀ o, ((f o).id, (f o).expiresAt) = (o.id, o.expiresAt))
    (hstatus : ∀ o, (f o).status = .unused → o.status = .unused) :
    ∀ x ∈ s.superseded, ∃ o ∈ (updateOtp id f s.db).otps, o.id = x ∧
      (o.status ≠ .unused ∨ o.expiresAt ≤ s.clock) := by
  intro x hx
  obtain ⟨o, ho, hoid, hdead⟩ := h.stored x hx
  refine ⟨_, Rows.mem_updateMany.mpr ⟨o, ho, rfl⟩, ?_⟩
  obtain ⟨hid, hexp⟩ := Prod.mk.inj (hkey o)
  split
  · refine ⟨hid.trans hoid, ?_⟩
    rw [hexp]
    exact hdead.imp_left fun hne hu => hne (hstatus o hu)
  · exact ⟨hoid, hdead⟩

theorem createOtp_cases (env : AuthEnv) (now : Time) (phoneHash : String) (d : OtpDraws) (db : Db) :
    createOtp env now phoneHash d db = db ∨
    ((∀ o ∈ db.otps, o.id ≠ d.otpId) ∧
      createOtp env now phoneHash d db = { db with otps := db.otps ++ [newOtp env now phoneHash d] }) := by
  unfold createOtp
  split
  · exact Or.inl rfl
  · rename_i hfree
    refine Or.inr ⟨?_, rfl⟩
    intro o ho hid
    apply hfree
    rw [Bool.or_eq_true]
    exact Or.inr (List.any_eq_true.mpr ⟨o, ho, beq_iff_eq.mpr hid⟩)

/-- A new code is no superseded one and touches none. -/
theorem Inv.create {s : State} (h : Inv s) (env : AuthEnv) (phoneHash : String) (d : OtpDraws)
    (requests : Nat → Request) :
    Inv { s with
      requests, guesses := { s.guesses with db := createOtp env s.clock phoneHash d s.db } } := by
  rcases createOtp_cases env s.clock phoneHash d s.db with he | ⟨hfree, he⟩
  · rw [he]
    exact ⟨h.wf, h.stored, h.held⟩
  · rw [he]
    have hkept : ∀ o ∈ s.db.otps, o ∈ s.db.otps ++ [newOtp env s.clock phoneHash d] :=
      fun o ho => List.mem_append_left _ ho
    refine ⟨⟨Rows.unique_append h.wf.ids hfree, ?_⟩, ?_, h.held⟩
    · intro pid code otp hp
      obtain ⟨o, ho, hrest⟩ := h.wf.fetched pid code otp hp
      exact ⟨o, hkept o ho, hrest⟩
    · intro id hid
      obtain ⟨o, ho, hrest⟩ := h.stored id hid
      exact ⟨o, hkept o ho, hrest⟩

/-- The accepted code is marked, and whatever else was stored for the phone is dead already. -/
theorem Inv.accept {s : State} (h : Inv s) {env : AuthEnv} {pid : Nat} {code : String} {otp : Otp}
    (hp : s.guesses.calls pid = .fetched code otp) (hcmp : compares code otp = .ok true)
    (hc : LeavesNoCode s (.write pid)) : Inv (step env s (.write pid)) := by
  have hacc : accepted s (.write pid) = some otp := by simp only [accepted, hp, hcmp]
  obtain ⟨hothers, hcalls⟩ := hc otp hacc
  have hwf := step_wf env s.guesses (.write pid) h.wf
  have hstep : step env s (.write pid) =
      { s with
        guesses := Attempts.step env s.guesses (.write pid)
        superseded := s.superseded ++ issuedFor otp s.db } := by
    simp only [step, hacc, State.guess]
  have hdb : (Attempts.step env s.guesses (.write pid)).db =
      updateOtp otp.id (fun o => { o with status := .used }) s.db := by
    simp only [Attempts.step, hp, hcmp]
    rfl
  have hkeep := h.stored_update otp.id (f := fun o => { o with status := .used })
    (fun _ => rfl) (fun _ hu => by cases hu)
  rw [hstep]
  refine ⟨hwf, ?_, ?_⟩
  · intro id hid
    show ∃ o ∈ (Attempts.step env s.guesses (.write pid)).db.otps, _
    rw [hdb]
    rcases List.mem_append.mp hid with hold | hnew
    · exact hkeep id hold
    · obtain ⟨o, ho, rfl⟩ := List.mem_map.mp hnew
      obtain ⟨hmem, hphone⟩ := List.mem_filter.mp ho
      refine ⟨_, Rows.mem_updateMany.mpr ⟨o, hmem, rfl⟩, ?_⟩
      by_cases he : o.id = otp.id
      · rw [if_pos (beq_iff_eq.mpr he)]
        exact ⟨rfl, Or.inl (by intro hu; cases hu)⟩
      · rw [if_neg (fun hb => he (beq_iff_eq.mp hb))]
        refine ⟨rfl, ?_⟩
        by_cases hu : o.status = .unused
        · exact Or.inr (hothers o hmem (beq_iff_eq.mp hphone) he hu)
        · exact Or.inl hu
  · intro q code' other hq hid
    have hne : q ≠ pid := by
      rintro rfl
      simp [Attempts.step, hp, hcmp] at hq
    have hq' : s.guesses.calls q = .fetched code' other := by
      simpa [Attempts.step, hp, hcmp, Attempts.State.set, hne] using hq
    rcases List.mem_append.mp hid with hold | hnew
    · exact h.held q code' other hq' hold
    · obtain ⟨o, ho, hoid⟩ := List.mem_map.mp hnew
      obtain ⟨hmem, hphone⟩ := List.mem_filter.mp ho
      obtain ⟨o', ho', hid', hphone'⟩ := h.wf.fetched q code' other hq'
      obtain rfl := h.wf.ids.eq ho' hmem (hid'.trans hoid.symm)
      exact hcalls q code' other (fun he => hne (Act.write.inj he).symm) hq'
        (hphone'.symm.trans (beq_iff_eq.mp hphone))

/-- An accepted code is itself superseded, so accepting only fresh codes accepts none twice. -/
theorem Inv.accepted_superseded {s : State} (h : Inv s) {env : AuthEnv} {a : Act} {otp : Otp}
    (hacc : accepted s a = some otp) : otp.id ∈ (step env s a).superseded := by
  cases a with
  | write pid =>
      have hcall : ∃ code, s.guesses.calls pid = .fetched code otp := by
        simp only [accepted] at hacc
        split at hacc
        · rename_i code held hp
          split at hacc
          · obtain rfl := Option.some.inj hacc
            exact ⟨code, hp⟩
          · cases hacc
        · cases hacc
      obtain ⟨code, hp⟩ := hcall
      obtain ⟨o, ho, hid, hphone⟩ := h.wf.fetched pid code otp hp
      simp only [step, hacc]
      apply List.mem_append_right
      exact List.mem_map.mpr ⟨o, List.mem_filter.mpr ⟨ho, beq_iff_eq.mpr hphone⟩, hid⟩
  | _ => cases hacc

theorem step_inv (env : AuthEnv) (s : State) (a : Act) (h : Inv s) (hc : LeavesNoCode s a) :
    Inv (step env s a) := by
  cases a with
  | tick ms =>
      refine ⟨h.wf, ?_, h.held⟩
      intro id hid
      obtain ⟨o, ho, hoid, hdead⟩ := h.stored id hid
      refine ⟨o, ho, hoid, hdead.imp_right fun hlate => ?_⟩
      exact hlate.trans (Int.le_add_of_nonneg_right (Int.natCast_nonneg ms))
  | findLink pid phone =>
      simp only [step]
      split
      · split
        · exact ⟨h.wf, h.stored, h.held⟩
        · exact h
      · exact h
  | findRecent pid =>
      simp only [step]
      split
      · split <;> exact ⟨h.wf, h.stored, h.held⟩
      · exact h
  | create pid d =>
      simp only [step]
      split
      · rename_i phoneHash _
        exact h.create env phoneHash d _
      · exact h
  | failRequest pid => exact ⟨h.wf, h.stored, h.held⟩
  | sum pid phone code =>
      simp only [step, State.guess, Attempts.step]
      split
      · split
        · exact h
        · exact h.set pid fun _ _ he => by cases he
      · exact h
  | fetch pid =>
      simp only [step, State.guess, Attempts.step]
      split
      · split
        · exact h.idle pid
        · rename_i otp hf
          split
          · exact h.idle pid
          · rename_i hexp
            apply h.set pid
            intro code' otp' he
            obtain ⟨_, rfl⟩ := Call.fetched.inj he
            exact h.latestUnused_fresh hf hexp
      · exact h
  | fail pid => exact h.idle pid
  | write pid =>
      cases hp : s.guesses.calls pid with
      | idle =>
          simp only [step, State.guess, Attempts.step, accepted, hp, List.append_nil]
          exact h
      | summed phoneHash code =>
          simp only [step, State.guess, Attempts.step, accepted, hp, List.append_nil]
          exact h
      | fetched code otp =>
          cases hcmp : compares code otp with
          | error e =>
              simp only [step, State.guess, Attempts.step, accepted, hp, hcmp, List.append_nil]
              exact h.idle pid
          | ok same =>
              cases same with
              | true => exact h.accept hp hcmp hc
              | false =>
                  simp only [step, State.guess, Attempts.step, accepted, hp, hcmp, List.append_nil]
                  have hidle := h.idle pid
                  refine ⟨hidle.wf.update otp.id
                    (f := fun o => { o with attempts := otp.attempts + 1 }) _
                    (fun _ => rfl) (fun _ => rfl), ?_, hidle.held⟩
                  exact h.stored_update otp.id (f := fun o => { o with attempts := otp.attempts + 1 })
                    (fun _ => rfl) (fun _ hu => hu)

/-- Along every interleaving of requests and guesses in which a success leaves no code of its
phone to accept, no code issued before a success is accepted after it. -/
theorem codes_accepted_once (env : AuthEnv) (db : Db) (clock : Time) (acts : List Act)
    (hk : Rows.Unique (·.id) db.otps)
    (hc : Along (step env) LeavesNoCode (start db clock) acts) :
    Along (step env) AcceptsFresh (start db clock) acts := by
  refine along_of_along (step_inv env) ?_ acts (start db clock) (start_inv clock hk) hc
  intro s a h _ otp hacc hid
  cases a with
  | write pid =>
      simp only [accepted] at hacc
      split at hacc
      · rename_i code held hp
        split at hacc
        · rename_i hcmp
          obtain rfl := Option.some.inj hacc
          exact h.held pid code held hp hid hcmp
        · cases hacc
      · cases hacc
  | _ => cases hacc

def samplePhone : String := "+998901112233"

/-- A request for the sample phone, alone. -/
def sampleRequest (otpId code : String) : List Act :=
  [.findLink 0 samplePhone, .findRecent 0, .create 0 { otpId, code }]

/-- A guess for the sample phone, alone. -/
def sampleGuess (code : String) : List Act := [.sum 0 samplePhone code, .fetch 0, .write 0]

/-- Two codes 130 seconds apart, and a guess for each of them, the newer first. -/
def olderCodeLater : List Act :=
  sampleRequest "o1" "111111" ++ [.tick 130000] ++ sampleRequest "o2" "222222" ++
    sampleGuess "222222" ++ sampleGuess "111111"

/-- The older code is accepted after the newer one. -/
theorem older_code_accepted_later :
    ¬ ∀ (env : AuthEnv) (db : Db) (clock : Time) (acts : List Act), Rows.Unique (·.id) db.otps →
      Along (step env) AcceptsFresh (start db clock) acts := by
  intro h
  have hrun := h Lockout.sampleEnv Lockout.sampleDb 0 olderCodeLater (by decide)
  have hlast := hrun (olderCodeLater.take 12) (.write 0) (by exact List.prefix_refl _)
  revert hlast
  unfold AcceptsFresh
  decide

/-- One code, accepted once, and a guess that comes too late for it. -/
theorem single_code_accepted_once :
    Along (step Lockout.sampleEnv) AcceptsFresh (start Lockout.sampleDb 0)
      (sampleRequest "o1" "111111" ++ sampleGuess "111111" ++ sampleGuess "111111") := by
  apply codes_accepted_once Lockout.sampleEnv Lockout.sampleDb 0 _ (by decide)
  have hother : ∀ (s : State) (a : Act), accepted s a = none → LeavesNoCode s a := by
    intro s a hnone otp hacc
    rw [hnone] at hacc
    cases hacc
  simp only [sampleRequest, sampleGuess, List.cons_append, List.nil_append, along_cons]
  refine ⟨hother _ _ rfl, hother _ _ rfl, hother _ _ rfl, hother _ _ rfl, hother _ _ rfl, ?_,
    hother _ _ rfl, hother _ _ rfl, hother _ _ rfl, along_nil _ _ _⟩
  intro otp hacc
  obtain rfl := Option.some.inj hacc
  refine ⟨by decide, ?_⟩
  intro pid code other hne hp
  cases pid with
  | zero => exact absurd rfl hne
  | succ n => cases hp

end Birgap.Auth.Acceptance
