import Birgap.Lib.Run
import Birgap.Telegram.Bot

/-!
# Where a login code goes

Requests for codes, updates from Telegram and executions of the delivery jobs in any order. An
execution stops at the look-up of the link, at the message and at its reports, and a job may be
executed again or by several workers at once. A code still goes to the chat that had last shared
the phone when the link was looked up.
-/
namespace Birgap.Telegram

set_option autoImplicit false

open Birgap.Auth Birgap.Common Birgap.Lib Birgap.Lib.Run Birgap.Users.PhoneHash
open Birgap.Auth.Resend (TelegramOtpJobData requestedJob requestOtp_inserts)

/-- What a worker does next: send the message, report the success, report a failure. -/
inductive Worker where
  | idle
  | linked (job : TelegramOtpJobData) (link : TelegramLink)
  | delivered (job : TelegramOtpJobData)
  | failing (job : TelegramOtpJobData) (error : String)

/-- A message handed to Telegram, and whether Telegram has confirmed it. -/
structure Sent where
  pid : Nat
  job : TelegramOtpJobData
  chatId : Int
  text : String
  confirmed : Bool

/-- The end of an execution; without an error the job is completed. -/
structure Finished where
  pid : Nat
  job : TelegramOtpJobData
  error : Option String

structure State where
  db : Db
  jobs : List TelegramOtpJobData
  workers : Nat → Worker
  sent : List Sent
  reports : List OtpReport
  finished : List Finished

/-- `codes` is any write to the codes: they are verified and cleaned up. `send` and `report`
carry what Telegram and the database answer. -/
inductive Act where
  | request (now : Time) (phone : String) (d : OtpDraws)
  | webhook (linkId : Id) (update : Update) (secretToken : Option String)
  | codes (otps : List Otp)
  | take (pid index : Nat)
  | send (pid : Nat) (answer : Except String Unit)
  | report (pid : Nat) (answer : Except String Unit)
  | stall (pid : Nat)

def State.set (s : State) (pid : Nat) (w : Worker) : State :=
  { s with workers := Function.update s.workers pid w }

def State.finish (s : State) (pid : Nat) (job : TelegramOtpJobData) (error : Option String) :
    State :=
  { s.set pid .idle with finished := s.finished ++ [⟨pid, job, error⟩] }

section

variable (cfg : BotConfig) (env : AuthEnv)

def takeJob (pid : Nat) (job : TelegramOtpJobData) (s : State) : State :=
  if !enabled cfg then s.finish pid job (some "Telegram bot not configured")
  else
    match findLink job.phoneHash s.db with
    | none => s.finish pid job (some "No Telegram link for this phone")
    | some link => s.set pid (.linked job link)

def step (s : State) : Act → State
  | .request now phone d =>
      { s with
        db := (requestOtp env now phone d s.db).2
        jobs := s.jobs ++ (requestedJob env now phone d s.db).toList }
  | .webhook linkId update secretToken =>
      { s with db := (handleWebhook cfg env linkId update secretToken s.db).2 }
  | .codes otps => { s with db := { s.db with otps := otps } }
  | .take pid index =>
      match s.workers pid with
      | .idle =>
          match s.jobs[index]? with
          | none => s
          | some job => takeJob cfg pid job s
      | _ => s
  | .send pid answer =>
      match s.workers pid with
      | .linked job link =>
          match answer with
          | .ok () =>
              { s.set pid (.delivered job) with
                sent := s.sent ++ [⟨pid, job, link.chatId, codeMessage job.code, true⟩] }
          | .error e =>
              { s.set pid (.failing job e) with
                sent := s.sent ++ [⟨pid, job, link.chatId, codeMessage job.code, false⟩] }
      | _ => s
  | .report pid answer =>
      match s.workers pid with
      | .delivered job =>
          match answer with
          | .ok () =>
              { s.finish pid job none with reports := s.reports ++ [successReport job.phoneHash] }
          | .error e => s.set pid (.failing job e)
      | .failing job error =>
          match answer with
          | .ok () =>
              { s.finish pid job (some error) with
                reports := s.reports ++ [failureReport job.phoneHash error] }
          | .error e => s.finish pid job (some e)
      | _ => s
  | .stall pid => s.set pid .idle

end

def start (db : Db) : State :=
  { db, jobs := [], workers := fun _ => .idle, sent := [], reports := [], finished := [] }

/-! ## An execution that nothing interrupts -/

/-- What Telegram answers to the message of the job, if it gets one. -/
def messageAnswer (bot : BotEnv) (job : TelegramOtpJobData) (db : Db) : Except String Unit :=
  match findLink job.phoneHash db with
  | none => .ok ()
  | some link => bot.sendMessage link.chatId (codeMessage job.code)

/-- The answers an execution gets: to the message, to the first report, to that of the `catch`. -/
def answers (bot : BotEnv) (job : TelegramOtpJobData) (db : Db) (pid : Nat) : List Act :=
  match messageAnswer bot job db with
  | .error e =>
      [.send pid (.error e), .report pid (bot.createReport (failureReport job.phoneHash e))]
  | .ok () =>
      match bot.createReport (successReport job.phoneHash) with
      | .ok () => [.send pid (.ok ()), .report pid (.ok ())]
      | .error e =>
          [.send pid (.ok ()), .report pid (.error e),
           .report pid (bot.createReport (failureReport job.phoneHash e))]

def execution (bot : BotEnv) (job : TelegramOtpJobData) (db : Db) (pid index : Nat) : List Act :=
  .take pid index :: answers bot job db pid

/-- The state after an execution of the job that began in `s`. -/
structure Processed (job : TelegramOtpJobData) (result : Option String × Outcome) (pid : Nat)
    (s t : State) : Prop where
  idle : t.workers pid = .idle
  db : t.db = s.db
  finished : t.finished = s.finished ++ [⟨pid, job, result.1⟩]
  sent : t.sent = s.sent ++ result.2.message.toList.map fun m => ⟨pid, job, m.1, m.2.1, m.2.2⟩
  reports : t.reports = s.reports ++ result.2.reports

theorem finish_idle (s : State) (pid : Nat) (job : TelegramOtpJobData) (error : Option String) :
    (s.finish pid job error).workers pid = .idle := Function.update_self ..

/-- A worker that is idle has nothing to go on with. -/
theorem answers_idle (cfg : BotConfig) (env : AuthEnv) (bot : BotEnv) (job : TelegramOtpJobData)
    (db : Db) {t : State} {pid : Nat} (hidle : t.workers pid = .idle) :
    run (step cfg env) t (answers bot job db pid) = t := by
  have hsend : ∀ answer, step cfg env t (.send pid answer) = t := by
    intro answer
    simp only [step, hidle]
  have hreport : ∀ answer, step cfg env t (.report pid answer) = t := by
    intro answer
    simp only [step, hidle]
  unfold answers
  split
  · simp only [run_cons, run_nil, hsend, hreport]
  · split <;> simp only [run_cons, run_nil, hsend, hreport]

/-- The `catch` of an execution that has handed its message to Telegram. -/
theorem catch_processed (cfg : BotConfig) (env : AuthEnv) (bot : BotEnv) {job : TelegramOtpJobData}
    {s t : State} {pid : Nat} {error : String} {message : Int × String × Bool}
    (hw : t.workers pid = .failing job error) (hdb : t.db = s.db)
    (hfinished : t.finished = s.finished)
    (hsent : t.sent = s.sent ++ [⟨pid, job, message.1, message.2.1, message.2.2⟩])
    (hreports : t.reports = s.reports) :
    Processed job (failReason (reportFailure bot job.phoneHash error (some message)).1,
        (reportFailure bot job.phoneHash error (some message)).2) pid s
      (step cfg env t (.report pid (bot.createReport (failureReport job.phoneHash error)))) := by
  unfold reportFailure
  cases hreport : bot.createReport (failureReport job.phoneHash error) with
  | error e =>
      simp only [step, hw]
      exact ⟨finish_idle .., hdb, by rw [← hfinished]; rfl, hsent,
        by rw [List.append_nil, ← hreports]; rfl⟩
  | ok _ =>
      simp only [step, hw]
      exact ⟨finish_idle t pid job (some error), hdb, by rw [← hfinished]; rfl, hsent,
        by rw [← hreports]⟩

/-- The steps of an execution in a row are `TelegramOtpProcessor.process`. -/
theorem uninterrupted_process (cfg : BotConfig) (env : AuthEnv) (bot : BotEnv) (s : State)
    (pid index : Nat) (job : TelegramOtpJobData) (hidle : s.workers pid = .idle)
    (hjob : s.jobs[index]? = some job) :
    Processed job (process cfg bot job s.db) pid s
      (run (step cfg env) s (execution bot job s.db pid index)) := by
  have htake : step cfg env s (.take pid index) = takeJob cfg pid job s := by
    simp only [step, hidle, hjob]
  have hgiveUp : ∀ error, takeJob cfg pid job s = s.finish pid job (some error) →
      process cfg bot job s.db = (some error, {}) → Processed job (process cfg bot job s.db) pid s
        (run (step cfg env) s (execution bot job s.db pid index)) := by
    intro error hfinish hprocess
    rw [execution, run_cons, htake, hfinish, answers_idle cfg env bot job s.db (finish_idle ..),
      hprocess]
    exact ⟨finish_idle .., rfl, rfl, (List.append_nil _).symm, (List.append_nil _).symm⟩
  by_cases henabled : enabled cfg = true
  · cases hlink : findLink job.phoneHash s.db with
    | none =>
        refine hgiveUp "No Telegram link for this phone" ?_ ?_
        · simp [takeJob, henabled, hlink]
        · simp [process, sendOtp, henabled, hlink, failReason]
    | some link =>
        have hfound : takeJob cfg pid job s = s.set pid (.linked job link) := by
          simp [takeJob, henabled, hlink]
        have hw : (s.set pid (.linked job link)).workers pid = .linked job link :=
          Function.update_self ..
        have hmessage : messageAnswer bot job s.db =
            bot.sendMessage link.chatId (codeMessage job.code) := by
          simp [messageAnswer, hlink]
        rw [execution, run_cons, htake, hfound, answers, hmessage]
        unfold process sendOtp
        rw [if_neg (by simp [henabled]), hlink]
        dsimp only
        cases hsend : bot.sendMessage link.chatId (codeMessage job.code) with
        | error e =>
            simp only [run_cons, run_nil]
            refine catch_processed cfg env bot ?_ ?_ ?_ ?_ ?_
            · simp only [step, hw]
              exact Function.update_self ..
            · simp only [step, hw]
              rfl
            · simp only [step, hw]
              rfl
            · simp only [step, hw]
              rfl
            · simp only [step, hw]
              rfl
        | ok _ =>
            dsimp only
            cases hreport : bot.createReport (successReport job.phoneHash) with
            | ok _ =>
                simp only [run_cons, run_nil, step, State.set, State.finish, Function.update_self]
                exact ⟨Function.update_self .., rfl, rfl, rfl, rfl⟩
            | error e =>
                simp only [run_cons, run_nil]
                refine catch_processed cfg env bot ?_ ?_ ?_ ?_ ?_ <;>
                  simp only [step, State.set, Function.update_self]
  · refine hgiveUp "Telegram bot not configured" ?_ ?_
    · simp [takeJob, henabled]
    · simp [process, sendOtp, henabled, failReason]

/-! ## The chat of a phone -/

/-- The update that shares the sender's own number, when it comes with the secret. -/
def shares (cfg : BotConfig) (env : AuthEnv) (phoneHash : String) : Act → Option ContactContext
  | .webhook _ (.contact ctx contact) secretToken =>
      if enabled cfg && authentic cfg secretToken && contact.userId == some ctx.fromId &&
          contactPhoneHash env contact == phoneHash then some ctx
      else none
  | _ => none

/-- Who shared the number last. -/
def lastShared (cfg : BotConfig) (env : AuthEnv) (phoneHash : String) (acts : List Act) :
    Option ContactContext :=
  acts.reverse.findSome? (shares cfg env phoneHash)

theorem lastShared_snoc (cfg : BotConfig) (env : AuthEnv) (phoneHash : String) (acts : List Act)
    (a : Act) : lastShared cfg env phoneHash (acts ++ [a]) =
      (shares cfg env phoneHash a <|> lastShared cfg env phoneHash acts) := by
  unfold lastShared
  rw [List.reverse_append, List.reverse_singleton, List.singleton_append, List.findSome?_cons]
  cases shares cfg env phoneHash a <;> rfl

/-- The stored links are those of the last updates. -/
def Current (cfg : BotConfig) (env : AuthEnv) (acts : List Act) (db : Db) : Prop :=
  ∀ link ∈ db.telegramLinks, ∃ ctx, lastShared cfg env link.phoneHash acts = some ctx ∧
    link.chatId = ctx.chatId ∧ link.telegramUserId = some ctx.fromId

variable {cfg : BotConfig} {env : AuthEnv}

/-- A step that shares no number and writes no link keeps the links current. -/
theorem Current.quiet {acts : List Act} {db db' : Db} (h : Current cfg env acts db) {a : Act}
    (hshares : ∀ link ∈ db.telegramLinks, shares cfg env link.phoneHash a = none)
    (hlinks : db'.telegramLinks = db.telegramLinks) : Current cfg env (acts ++ [a]) db' := by
  intro link hlink
  rw [hlinks] at hlink
  rw [lastShared_snoc, hshares link hlink]
  exact h link hlink

theorem Current.share {acts : List Act} {db : Db} (h : Current cfg env acts db) (linkId : Id)
    (ctx : ContactContext) (contact : Contact) (secretToken : Option String)
    (haccepted : (enabled cfg && authentic cfg secretToken) = true) :
    Current cfg env (acts ++ [.webhook linkId (.contact ctx contact) secretToken])
      (onContact env linkId ctx contact db).2 := by
  have hshares : ∀ phoneHash,
      shares cfg env phoneHash (.webhook linkId (.contact ctx contact) secretToken) =
      if contact.userId = some ctx.fromId ∧ contactPhoneHash env contact = phoneHash then some ctx
      else none := by
    intro phoneHash
    simp only [shares, haccepted, Bool.true_and, Bool.and_eq_true, beq_iff_eq]
  unfold onContact
  by_cases hown : contact.userId = some ctx.fromId
  · rw [if_neg (not_not_intro hown)]
    dsimp only
    have hother : ∀ link ∈ db.telegramLinks, ¬ link.phoneHash = contactPhoneHash env contact →
        ∃ ctx', lastShared cfg env link.phoneHash
          (acts ++ [.webhook linkId (.contact ctx contact) secretToken]) = some ctx' ∧
          link.chatId = ctx'.chatId ∧ link.telegramUserId = some ctx'.fromId := by
      intro link hlink hne
      rw [lastShared_snoc, hshares, if_neg fun hc => hne hc.2.symm]
      exact h link hlink
    split
    · intro link hlink
      obtain ⟨old, hold, rfl⟩ := Rows.mem_updateMany.mp hlink
      split
      · rename_i hhash
        have hhash' : (relink ctx old).phoneHash = contactPhoneHash env contact :=
          beq_iff_eq.mp hhash
        refine ⟨ctx, ?_, rfl, rfl⟩
        rw [lastShared_snoc, hshares, if_pos ⟨hown, hhash'.symm⟩]
        rfl
      · rename_i hhash
        exact hother old hold fun he => hhash (beq_iff_eq.mpr he)
    · rename_i hunlinked
      have hnew : ∀ link ∈ db.telegramLinks, ¬ link.phoneHash = contactPhoneHash env contact := by
        intro link hlink he
        exact hunlinked (List.any_eq_true.mpr ⟨link, hlink, beq_iff_eq.mpr he⟩)
      split
      · intro link hlink
        exact hother link hlink (hnew link hlink)
      · intro link hlink
        rcases List.mem_append.mp hlink with hlink | hlink
        · exact hother link hlink (hnew link hlink)
        · obtain rfl := List.mem_singleton.mp hlink
          refine ⟨ctx, ?_, rfl, rfl⟩
          rw [lastShared_snoc, hshares, if_pos ⟨hown, rfl⟩]
          rfl
  · rw [if_pos hown]
    refine h.quiet ?_ rfl
    intro link _
    rw [hshares, if_neg fun hc => hown hc.1]

theorem handleWebhook_current {acts : List Act} {db : Db} (h : Current cfg env acts db)
    (linkId : Id) (update : Update) (secretToken : Option String) :
    Current cfg env (acts ++ [.webhook linkId update secretToken])
      (handleWebhook cfg env linkId update secretToken db).2 := by
  have hrejected : (enabled cfg && authentic cfg secretToken) = false → ∀ phoneHash,
      shares cfg env phoneHash (.webhook linkId update secretToken) = none := by
    intro hno phoneHash
    cases update <;> simp [shares, hno]
  unfold handleWebhook
  by_cases henabled : enabled cfg = true
  · rw [if_neg (by simp [henabled])]
    by_cases hsecret : authentic cfg secretToken = true
    · rw [if_neg (by simp [hsecret])]
      cases update with
      | start ctx => exact h.quiet (fun _ _ => rfl) rfl
      | other => exact h.quiet (fun _ _ => rfl) rfl
      | contact ctx contact =>
          have hshare := h.share linkId ctx contact secretToken (by rw [henabled, hsecret]; rfl)
          unfold handleUpdate
          dsimp only
          generalize onContact env linkId ctx contact db = r at hshare ⊢
          obtain ⟨result, db'⟩ := r
          cases result with
          | error e => exact hshare
          | ok reply => exact hshare
    · rw [if_pos (by simp [hsecret])]
      exact h.quiet (fun _ _ => hrejected (by simp [hsecret]) _) rfl
  · rw [if_pos (by simp [henabled])]
    exact h.quiet (fun _ _ => hrejected (by simp [henabled]) _) rfl

/-! ## One step -/

/-- What a step does to the links, the queue, the workers and the messages. -/
inductive Moves (cfg : BotConfig) (env : AuthEnv) (s : State) (a : Act) (t : State) : Prop where
  | request (now : Time) (phone : String) (d : OtpDraws) (ha : a = .request now phone d)
      (hlinks : t.db.telegramLinks = s.db.telegramLinks)
      (hjobs : t.jobs = s.jobs ++ (requestedJob env now phone d s.db).toList)
      (hworkers : t.workers = s.workers) (hsent : t.sent = s.sent)
  | webhook (linkId : Id) (update : Update) (secretToken : Option String)
      (ha : a = .webhook linkId update secretToken)
      (hdb : t.db = (handleWebhook cfg env linkId update secretToken s.db).2)
      (hjobs : t.jobs = s.jobs) (hworkers : t.workers = s.workers) (hsent : t.sent = s.sent)
  | found (pid index : Nat) (job : TelegramOtpJobData) (link : TelegramLink)
      (ha : a = .take pid index) (hjob : s.jobs[index]? = some job) (hlink : findLink job.phoneHash s.db = some link)
      (hdb : t.db = s.db) (hjobs : t.jobs = s.jobs)
      (hworkers : t.workers = Function.update s.workers pid (.linked job link))
      (hsent : t.sent = s.sent)
  | sent (pid : Nat) (job : TelegramOtpJobData) (link : TelegramLink) (w : Worker) (confirmed : Bool)
      (answer : Except String Unit) (ha : a = .send pid answer)
      (hw : s.workers pid = .linked job link) (hafter : ∀ job' link', w ≠ .linked job' link')
      (hquiet : ∀ phoneHash, shares cfg env phoneHash a = none) (hdb : t.db = s.db)
      (hjobs : t.jobs = s.jobs) (hworkers : t.workers = Function.update s.workers pid w)
      (hsent : t.sent = s.sent ++ [⟨pid, job, link.chatId, codeMessage job.code, confirmed⟩])
  | other (pid : Nat) (w : Worker) (hafter : ∀ job link, w = .linked job link → s.workers pid = w)
      (hquiet : ∀ phoneHash, shares cfg env phoneHash a = none)
      (hlinks : t.db.telegramLinks = s.db.telegramLinks) (hjobs : t.jobs = s.jobs)
      (hworkers : t.workers = Function.update s.workers pid w) (hsent : t.sent = s.sent)

theorem requestOtp_links (env : AuthEnv) (now : Time) (phone : String) (d : OtpDraws) (db : Db) :
    (requestOtp env now phone d db).2.telegramLinks = db.telegramLinks := by
  rcases requestOtp_cases env now phone d db with h | ⟨_, h⟩
  · rw [h]
  · rw [h]

theorem Moves.none {s : State} {a : Act} (hquiet : ∀ phoneHash, shares cfg env phoneHash a = none) :
    Moves cfg env s a s :=
  .other 0 (s.workers 0) (fun _ _ _ => rfl) hquiet rfl rfl
    (Function.update_eq_self 0 s.workers).symm rfl

/-- A worker that goes on without a link. -/
theorem Moves.goOn {s t : State} {a : Act} {pid : Nat} {w : Worker}
    (hquiet : ∀ phoneHash, shares cfg env phoneHash a = Option.none)
    (hw : ∀ job link, w ≠ .linked job link) (hdb : t.db = s.db) (hjobs : t.jobs = s.jobs)
    (hworkers : t.workers = Function.update s.workers pid w) (hsent : t.sent = s.sent) :
    Moves cfg env s a t :=
  .other pid w (fun job link h => absurd h (hw job link)) hquiet (by rw [hdb]) hjobs hworkers hsent

theorem step_moves (cfg : BotConfig) (env : AuthEnv) (s : State) (a : Act) :
    Moves cfg env s a (step cfg env s a) := by
  cases a with
  | request now phone d =>
      exact .request now phone d rfl (requestOtp_links env now phone d s.db) rfl rfl rfl
  | webhook linkId update secretToken =>
      exact .webhook linkId update secretToken rfl rfl rfl rfl rfl
  | codes otps =>
      exact .other 0 (s.workers 0) (fun _ _ _ => rfl) (fun _ => rfl) rfl rfl
        (Function.update_eq_self 0 s.workers).symm rfl
  | take pid index =>
      simp only [step]
      split
      · split
        · exact .none fun _ => rfl
        · rename_i job hjob
          unfold takeJob
          split
          · exact .goOn (w := .idle) (fun _ => rfl) (by simp) rfl rfl rfl rfl
          · split
            · exact .goOn (w := .idle) (fun _ => rfl) (by simp) rfl rfl rfl rfl
            · rename_i link hlink
              exact .found pid index job link rfl hjob hlink rfl rfl rfl rfl
      · exact .none fun _ => rfl
  | send pid answer =>
      simp only [step]
      split
      · rename_i job link hw
        cases answer with
        | ok _ => exact .sent pid job link _ true _ rfl hw (by simp) (fun _ => rfl) rfl rfl rfl rfl
        | error e => exact .sent pid job link _ false _ rfl hw (by simp) (fun _ => rfl) rfl rfl rfl rfl
      · exact .none fun _ => rfl
  | report pid answer =>
      simp only [step]
      split
      · cases answer with
        | ok _ => exact .goOn (w := .idle) (fun _ => rfl) (by simp) rfl rfl rfl rfl
        | error e => exact .goOn (fun _ => rfl) (by simp) rfl rfl rfl rfl
      · cases answer with
        | ok _ => exact .goOn (w := .idle) (fun _ => rfl) (by simp) rfl rfl rfl rfl
        | error e => exact .goOn (w := .idle) (fun _ => rfl) (by simp) rfl rfl rfl rfl
      · exact .none fun _ => rfl
  | stall pid => exact .goOn (w := .idle) (fun _ => rfl) (by simp) rfl rfl rfl rfl

/-! ## Every run -/

/-- The job was added by a request of the run that has stored its code. -/
def Requested (cfg : BotConfig) (env : AuthEnv) (s : State) (acts : List Act)
    (job : TelegramOtpJobData) : Prop :=
  ∃ pre rest now phone d, acts = pre ++ .request now phone d :: rest ∧
    requestedJob env now phone d (run (step cfg env) s pre).db = some job

/-- An execution has taken the job and found the link in the run so far. -/
def Looked (cfg : BotConfig) (env : AuthEnv) (s : State) (acts : List Act) (pid : Nat)
    (job : TelegramOtpJobData) (link : TelegramLink) : Prop :=
  ∃ pre rest index, acts = pre ++ .take pid index :: rest ∧
    (run (step cfg env) s pre).jobs[index]? = some job ∧
    findLink job.phoneHash (run (step cfg env) s pre).db = some link ∧
    Always (step cfg env) (fun t => t.workers pid = .linked job link)
      (run (step cfg env) s (pre ++ [.take pid index])) rest

/-- The message went out when the worker had waited since the look-up of its link. -/
def Delivered (cfg : BotConfig) (env : AuthEnv) (s : State) (acts : List Act) (m : Sent) : Prop :=
  m.text = codeMessage m.job.code ∧
  ∃ pre rest answer link, acts = pre ++ .send m.pid answer :: rest ∧
    Looked cfg env s pre m.pid m.job link ∧ m.chatId = link.chatId

theorem Requested.append {s : State} {acts : List Act} {job : TelegramOtpJobData}
    (h : Requested cfg env s acts job) (more : List Act) : Requested cfg env s (acts ++ more) job := by
  obtain ⟨pre, rest, now, phone, d, rfl, h⟩ := h
  exact ⟨pre, rest ++ more, now, phone, d, by simp, h⟩

theorem Looked.snoc {s : State} {acts : List Act} {pid : Nat} {job : TelegramOtpJobData}
    {link : TelegramLink} (h : Looked cfg env s acts pid job link) {a : Act}
    (hstill : (run (step cfg env) s (acts ++ [a])).workers pid = .linked job link) :
    Looked cfg env s (acts ++ [a]) pid job link := by
  obtain ⟨pre, rest, index, rfl, hjob, hlink, hheld⟩ := h
  refine ⟨pre, rest ++ [a], index, by simp, hjob, hlink, hheld.concat ?_⟩
  rw [← run_append]
  simpa using hstill

theorem Delivered.snoc {s : State} {acts : List Act} {m : Sent} (h : Delivered cfg env s acts m)
    (a : Act) : Delivered cfg env s (acts ++ [a]) m := by
  obtain ⟨htext, pre, rest, answer, link, rfl, h⟩ := h
  exact ⟨htext, pre, rest ++ [a], answer, link, by simp, h⟩

/-- The links are those of the last updates; jobs, workers and messages go back to requests and
look-ups of the run. -/
structure Traced (cfg : BotConfig) (env : AuthEnv) (s : State) (acts : List Act) (t : State) :
    Prop where
  current : Current cfg env acts t.db
  jobs : ∀ job ∈ t.jobs, Requested cfg env s acts job
  linked : ∀ pid job link, t.workers pid = .linked job link → Looked cfg env s acts pid job link
  sent : ∀ m ∈ t.sent, Delivered cfg env s acts m

theorem Traced.snoc {s : State} {acts : List Act} (a : Act)
    (h : Traced cfg env s acts (run (step cfg env) s acts)) :
    Traced cfg env s (acts ++ [a]) (step cfg env (run (step cfg env) s acts) a) := by
  have hjobs : ∀ job ∈ (run (step cfg env) s acts).jobs, Requested cfg env s (acts ++ [a]) job :=
    fun job hjob => (h.jobs job hjob).append [a]
  have hlinked : ∀ pid job link, (run (step cfg env) s acts).workers pid = .linked job link →
      (step cfg env (run (step cfg env) s acts) a).workers pid = .linked job link →
      Looked cfg env s (acts ++ [a]) pid job link := by
    intro pid job link hw hstill
    refine (h.linked pid job link hw).snoc ?_
    rw [run_concat]
    exact hstill
  have hsent : ∀ m ∈ (run (step cfg env) s acts).sent, Delivered cfg env s (acts ++ [a]) m :=
    fun m hm => (h.sent m hm).snoc a
  generalize ht : step cfg env (run (step cfg env) s acts) a = t at hlinked
  have hupdated : ∀ {pid : Nat} {w : Worker},
      t.workers = Function.update (run (step cfg env) s acts).workers pid w →
      (∀ job link, w = .linked job link → t.workers pid = .linked job link →
        Looked cfg env s (acts ++ [a]) pid job link) →
      ∀ p job link, t.workers p = .linked job link → Looked cfg env s (acts ++ [a]) p job link := by
    intro pid w hworkers hw p job link hp
    have hstill := hp
    rw [hworkers] at hp
    by_cases hpid : p = pid
    · subst hpid
      rw [Function.update_self] at hp
      exact hw job link hp hstill
    · rw [Function.update_of_ne hpid] at hp
      exact hlinked p job link hp hstill
  have hmove := step_moves cfg env (run (step cfg env) s acts) a
  rw [ht] at hmove
  cases hmove with
  | request now phone d ha hlinks hjobs' hworkers hsent' =>
      refine ⟨h.current.quiet (fun _ _ => by rw [ha]; rfl) hlinks, ?_,
        fun p job link hp => hlinked p job link (hworkers ▸ hp) hp, by rw [hsent']; exact hsent⟩
      intro job hjob
      rw [hjobs'] at hjob
      rcases List.mem_append.mp hjob with hjob | hjob
      · exact hjobs job hjob
      · exact ⟨acts, [], now, phone, d, by rw [ha], Option.mem_toList.mp hjob⟩
  | webhook linkId update secretToken ha hdb hjobs' hworkers hsent' =>
      refine ⟨?_, by rw [hjobs']; exact hjobs,
        fun p job link hp => hlinked p job link (hworkers ▸ hp) hp, by rw [hsent']; exact hsent⟩
      rw [hdb, ha]
      exact handleWebhook_current h.current linkId update secretToken
  | found pid index job link ha hjob hlink hdb hjobs' hworkers hsent' =>
      refine ⟨h.current.quiet (fun _ _ => by rw [ha]; rfl) (by rw [hdb]),
        by rw [hjobs']; exact hjobs, ?_, by rw [hsent']; exact hsent⟩
      refine hupdated hworkers ?_
      intro job' link' he hstill
      cases he
      refine ⟨acts, [], index, by rw [ha], hjob, hlink, (always_nil _ _ _).mpr ?_⟩
      rw [run_concat, ← ha, ht]
      exact hstill
  | sent pid job link w confirmed answer ha hw hafter hquiet hdb hjobs' hworkers hsent' =>
      refine ⟨h.current.quiet (fun _ _ => hquiet _) (by rw [hdb]), by rw [hjobs']; exact hjobs, ?_, ?_⟩
      · exact hupdated hworkers fun job' link' he => absurd he (hafter job' link')
      · intro m hm
        rw [hsent'] at hm
        rcases List.mem_append.mp hm with hm | hm
        · exact hsent m hm
        · obtain rfl := List.mem_singleton.mp hm
          exact ⟨rfl, acts, [], answer, link, by rw [ha], h.linked pid job link hw, rfl⟩
  | other pid w hafter hquiet hlinks hjobs' hworkers hsent' =>
      refine ⟨h.current.quiet (fun _ _ => hquiet _) hlinks, by rw [hjobs']; exact hjobs, ?_,
        by rw [hsent']; exact hsent⟩
      refine hupdated hworkers ?_
      intro job link he hstill
      exact hlinked pid job link ((hafter job link he).trans he) hstill

theorem run_traced (cfg : BotConfig) (env : AuthEnv) (db : Db) (hnone : db.telegramLinks = [])
    (acts : List Act) :
    Traced cfg env (start db) acts (run (step cfg env) (start db) acts) := by
  refine run_history (I := Traced cfg env (start db)) ?_ ?_ acts
  · refine ⟨?_, ?_, ?_, ?_⟩
    · intro link hlink
      rw [show (start db).db.telegramLinks = [] from hnone] at hlink
      cases hlink
    · intro job hjob
      cases hjob
    · intro pid job link hw
      cases hw
    · intro m hm
      cases hm
  · intro pre a h
    exact h.snoc a

/-- A request that adds a job has stored the code of the job under the hash of the phone. -/
theorem requestedJob_stored {now : Time} {phone : String} {d : OtpDraws} {db : Db}
    {job : TelegramOtpJobData} (h : requestedJob env now phone d db = some job) :
    job.phoneHash = phoneHashOf env phone ∧
    ∃ otp ∈ (requestOtp env now phone d db).2.otps, otp.phoneHash = job.phoneHash ∧
      otp.code = job.code ∧ otp.status = .unused ∧ otp.createdAt = now := by
  unfold requestedJob at h
  split at h
  · rename_i hinserts
    obtain rfl := Option.some.inj h
    refine ⟨rfl, ?_⟩
    rcases requestOtp_inserts env now phone d db with ⟨_, hdb, _⟩ | ⟨hno, _⟩
    · rw [hdb]
      exact ⟨_, List.mem_append_right _ (List.mem_singleton.mpr rfl), rfl, rfl, rfl, rfl⟩
    · exact absurd hinserts.1 hno
  · cases h

/-- In every run that begins without links, whatever the interleaving of requests, updates and
executions, a message handed to Telegram holds the code of an earlier request, which had stored
it under the hash of its phone, and goes to the chat whose user had last shared that number as
their own, in an update with the right secret, when the execution looked the link up. From the
look-up to the message the worker waits. -/
theorem codes_reach_sharer (cfg : BotConfig) (env : AuthEnv) (db : Db)
    (hnone : db.telegramLinks = []) (acts : List Act) :
    ∀ m ∈ (run (step cfg env) (start db) acts).sent, m.text = codeMessage m.job.code ∧
      ∃ pre mid wait rest now phone d index answer ctx,
        acts = pre ++ .request now phone d :: mid ++ .take m.pid index :: wait ++
          .send m.pid answer :: rest ∧
        (run (step cfg env) (start db) (pre ++ .request now phone d :: mid)).jobs[index]? = some m.job ∧
        Always (step cfg env) (fun t => ∃ link, t.workers m.pid = .linked m.job link)
          (run (step cfg env) (start db) (pre ++ .request now phone d :: mid ++ [.take m.pid index]))
          wait ∧
        m.job.phoneHash = phoneHashOf env phone ∧
        (∃ otp ∈ (run (step cfg env) (start db) (pre ++ [.request now phone d])).db.otps,
          otp.phoneHash = m.job.phoneHash ∧ otp.code = m.job.code ∧ otp.createdAt = now) ∧
        lastShared cfg env m.job.phoneHash (pre ++ .request now phone d :: mid) = some ctx ∧
        m.chatId = ctx.chatId := by
  intro m hm
  obtain ⟨htext, _, rest, answer, link, rfl, ⟨before, wait, index, rfl, hjob, hlink, hheld⟩, hchat⟩ :=
    (run_traced cfg env db hnone acts).sent m hm
  have hbefore := run_traced cfg env db hnone before
  obtain ⟨pre, mid, now, phone, d, rfl, hrequest⟩ :=
    hbefore.jobs m.job (List.mem_of_getElem? hjob)
  obtain ⟨hphone, otp, hotp, hhash, hcode, _, hcreated⟩ := requestedJob_stored hrequest
  obtain ⟨ctx, hlast, hctx, _⟩ := hbefore.current link (List.mem_of_find?_eq_some hlink)
  have hlinkHash : link.phoneHash = m.job.phoneHash := by simpa using List.find?_some hlink
  refine ⟨htext, pre, mid, wait, rest, now, phone, d, index, answer, ctx, rfl, hjob,
    hheld.mono fun t ht => ⟨link, ht⟩, hphone, ?_, ?_, ?_⟩
  · refine ⟨otp, ?_, hhash, hcode, hcreated⟩
    rw [run_concat]
    exact hotp
  · rw [← hlinkHash]
    exact hlast
  · exact hchat.trans hctx

def sampleConfig : BotConfig := { botToken := some "token", webhookSecret := some "secret" }

def sampleContact (chatId : Int) : Update :=
  .contact { fromId := 5, chatId } { userId := some 5, phoneNumber := "+998901234567" }

/-- The phone moves to another chat between the request of the code and its delivery; an update
without the secret changes nothing. -/
def movedChat : List Act :=
  [.webhook "link-1" (sampleContact 70) (some "secret"),
   .request 0 "+998 90 123 45 67" { otpId := "otp-1", code := "123456" },
   .webhook "link-2" (sampleContact 80) (some "secret"),
   .webhook "link-3" (sampleContact 90) none,
   .take 0 0, .send 0 (.ok ())]

theorem code_reaches_new_chat :
    ((run (step sampleConfig Lockout.sampleEnv) (start {}) movedChat).sent.map (·.chatId)) = [80] ∧
    ∀ m ∈ (run (step sampleConfig Lockout.sampleEnv) (start {}) movedChat).sent,
      m.text = codeMessage m.job.code := by
  refine ⟨by decide +kernel, ?_⟩
  intro m hm
  exact (codes_reach_sharer sampleConfig Lockout.sampleEnv {} rfl movedChat m hm).1

/-! ## The accounts of an execution -/

def completed (f : Finished) : Bool := f.error.isNone

/-- How often the worker has completed the job. -/
def completions (pid : Nat) (job : TelegramOtpJobData) (finished : List Finished) : Nat :=
  finished.countP fun f => f.pid == pid && f.job == job && completed f

/-- How often Telegram has confirmed the message of the job to the worker. -/
def confirmations (pid : Nat) (job : TelegramOtpJobData) (sent : List Sent) : Nat :=
  sent.countP fun m => m.pid == pid && m.job == job && m.confirmed

/-- Completed executions and reports of success go together, every report of a failure stands for
a failed execution, and a completed execution had its message confirmed. -/
structure Accounted (s : State) : Prop where
  successes : (s.reports.filter (·.success)).map (·.phoneHash) =
    (s.finished.filter completed).map (·.job.phoneHash)
  failures : ((s.reports.filter fun r => !r.success).map fun r => (r.phoneHash, r.error)).Sublist
    ((s.finished.filter fun f => !completed f).map fun f => (f.job.phoneHash, f.error))
  confirmed : ∀ pid job, completions pid job s.finished ≤ confirmations pid job s.sent
  outstanding : ∀ pid job, s.workers pid = .delivered job →
    completions pid job s.finished < confirmations pid job s.sent

theorem update_delivered {workers : Nat → Worker} {pid p : Nat} {w : Worker} {job : TelegramOtpJobData}
    (h : Function.update workers pid w p = .delivered job) :
    (p = pid ∧ w = .delivered job) ∨ workers p = .delivered job := by
  by_cases hp : p = pid
  · subst hp
    rw [Function.update_self] at h
    exact Or.inl ⟨rfl, h⟩
  · rw [Function.update_of_ne hp] at h
    exact Or.inr h

/-- A worker that moves on without anything to account for. -/
theorem Accounted.set {s : State} (h : Accounted s) (pid : Nat) {w : Worker}
    (hw : ∀ job, w ≠ .delivered job) : Accounted (s.set pid w) := by
  refine ⟨h.successes, h.failures, h.confirmed, ?_⟩
  intro p job hp
  rcases update_delivered hp with ⟨_, he⟩ | hp
  · exact absurd he (hw job)
  · exact h.outstanding p job hp

/-- An execution that fails, with or without a report. -/
theorem Accounted.fail {s : State} (h : Accounted s) (pid : Nat) (job : TelegramOtpJobData)
    (error : String) {reports : List OtpReport}
    (hreports : reports = [] ∨ reports = [failureReport job.phoneHash error]) :
    Accounted { s.finish pid job (some error) with reports := s.reports ++ reports } := by
  have hcount : ∀ p j, completions p j (s.finished ++ [Finished.mk pid job (some error)]) =
      completions p j s.finished := by
    intro p j
    simp [completions, completed]
  have hnone : reports.filter (·.success) = [] := by
    rcases hreports with rfl | rfl <;> rfl
  have hfailure : ((reports.filter fun r => !r.success).map fun r => (r.phoneHash, r.error)).Sublist
      [(job.phoneHash, some error)] := by
    rcases hreports with rfl | rfl
    · exact List.nil_sublist _
    · exact List.Sublist.refl _
  refine ⟨?_, ?_, ?_, ?_⟩
  · show ((s.reports ++ reports).filter _).map _ =
      ((s.finished ++ [Finished.mk pid job (some error)]).filter _).map _
    rw [List.filter_append, hnone, List.append_nil, h.successes, List.filter_append]
    simp [completed]
  · show (((s.reports ++ reports).filter _).map _).Sublist
      (((s.finished ++ [Finished.mk pid job (some error)]).filter _).map _)
    rw [List.filter_append, List.filter_append, List.map_append, List.map_append]
    exact h.failures.append hfailure
  · intro p j
    show completions p j (s.finished ++ [Finished.mk pid job (some error)]) ≤ _
    rw [hcount]
    exact h.confirmed p j
  · intro p j hp
    show completions p j (s.finished ++ [Finished.mk pid job (some error)]) < _
    rw [hcount]
    rcases update_delivered hp with ⟨_, he⟩ | hp
    · cases he
    · exact h.outstanding p j hp

/-- A message is handed to Telegram. -/
theorem Accounted.send {s : State} (h : Accounted s) {pid : Nat} {job : TelegramOtpJobData}
    {w : Worker} {m : Sent} (hpid : m.pid = pid) (hjob : m.job = job)
    (hw : ∀ job', w = .delivered job' → job' = job ∧ m.confirmed = true) :
    Accounted { s.set pid w with sent := s.sent ++ [m] } := by
  have hle : ∀ p j, confirmations p j s.sent ≤ confirmations p j (s.sent ++ [m]) := by
    intro p j
    unfold confirmations
    rw [List.countP_append]
    omega
  refine ⟨h.successes, h.failures, ?_, ?_⟩
  · intro p j
    exact (h.confirmed p j).trans (hle p j)
  · intro p j hp
    rcases update_delivered hp with ⟨rfl, he⟩ | hp
    · obtain ⟨rfl, hconfirmed⟩ := hw j he
      refine Nat.lt_of_le_of_lt (h.confirmed p j) ?_
      show _ < confirmations p j (s.sent ++ [m])
      unfold confirmations
      rw [List.countP_append]
      simp [hpid, hjob, hconfirmed]
    · exact Nat.lt_of_lt_of_le (h.outstanding p j hp) (hle p j)

/-- The report of a success is stored. -/
theorem Accounted.complete {s : State} (h : Accounted s) {pid : Nat} {job : TelegramOtpJobData}
    (hw : s.workers pid = .delivered job) :
    Accounted { s.finish pid job none with
      reports := s.reports ++ [successReport job.phoneHash] } := by
  have hcount : ∀ p j, completions p j (s.finished ++ [Finished.mk pid job none]) =
      completions p j s.finished + if pid = p ∧ job = j then 1 else 0 := by
    intro p j
    simp [completions, completed, List.countP_append, List.countP_cons]
  refine ⟨?_, ?_, ?_, ?_⟩
  · show ((s.reports ++ [successReport job.phoneHash]).filter _).map _ =
      ((s.finished ++ [Finished.mk pid job none]).filter _).map _
    rw [List.filter_append, List.filter_append, List.map_append, List.map_append, h.successes]
    rfl
  · show (((s.reports ++ [successReport job.phoneHash]).filter _).map _).Sublist
      (((s.finished ++ [Finished.mk pid job none]).filter _).map _)
    rw [List.filter_append, List.filter_append, List.map_append, List.map_append]
    exact h.failures.append (List.Sublist.refl _)
  · intro p j
    show completions p j (s.finished ++ [Finished.mk pid job none]) ≤ _
    rw [hcount]
    split
    · rename_i heq
      obtain ⟨rfl, rfl⟩ := heq
      exact h.outstanding pid job hw
    · exact h.confirmed p j
  · intro p j hp
    show completions p j (s.finished ++ [Finished.mk pid job none]) < _
    rw [hcount]
    by_cases hpid : p = pid
    · -- the worker is idle now
      subst hpid
      have hidle : Function.update s.workers p Worker.idle p = .delivered j := hp
      rw [Function.update_self] at hidle
      cases hidle
    · rw [if_neg fun hc => hpid hc.1.symm]
      rcases update_delivered hp with ⟨he, _⟩ | hp
      · exact absurd he hpid
      · exact h.outstanding p j hp

theorem Accounted.finish {s : State} (h : Accounted s) (pid : Nat) (job : TelegramOtpJobData)
    (error : String) : Accounted (s.finish pid job (some error)) := by
  have hfail := h.fail pid job error (Or.inl rfl)
  rw [List.append_nil] at hfail
  exact hfail

theorem step_accounted (cfg : BotConfig) (env : AuthEnv) (s : State) (a : Act) (h : Accounted s) :
    Accounted (step cfg env s a) := by
  cases a with
  | request now phone d => exact ⟨h.successes, h.failures, h.confirmed, h.outstanding⟩
  | webhook linkId update secretToken =>
      exact ⟨h.successes, h.failures, h.confirmed, h.outstanding⟩
  | codes otps => exact ⟨h.successes, h.failures, h.confirmed, h.outstanding⟩
  | stall pid => exact h.set pid (by simp)
  | take pid index =>
      simp only [step]
      split
      · split
        · exact h
        · unfold takeJob
          split
          · exact h.finish ..
          · split
            · exact h.finish ..
            · exact h.set pid (by simp)
      · exact h
  | send pid answer =>
      simp only [step]
      split
      · rename_i job link hw
        cases answer with
        | ok _ => exact h.send rfl rfl fun job' he => ⟨(Worker.delivered.inj he).symm, rfl⟩
        | error e => exact h.send rfl rfl fun job' he => by cases he
      · exact h
  | report pid answer =>
      simp only [step]
      split
      · rename_i job hw
        cases answer with
        | ok _ => exact h.complete hw
        | error e => exact h.set pid (by simp)
      · rename_i job error hw
        cases answer with
        | ok _ => exact h.fail pid job error (Or.inr rfl)
        | error e => exact h.finish ..
      · exact h

/-- In every run, the reports of success are those of the completed executions, in order; the
reports of failures are, in order, some of the failed executions with their errors; and no worker
completes a job more often than Telegram has confirmed its message to it. -/
theorem deliveries_accounted (cfg : BotConfig) (env : AuthEnv) (db : Db) (acts : List Act) :
    Always (step cfg env) Accounted (start db) acts := by
  intro pre _
  refine run_invariant (step_accounted cfg env) pre _ ?_
  refine ⟨rfl, List.Sublist.refl _, fun _ _ => Nat.le_refl _, ?_⟩
  intro pid job hw
  cases hw

end Birgap.Telegram
