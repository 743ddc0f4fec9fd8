import Birgap.Devices.Cap
import Birgap.Push.Processor

/-!
# Wakeups in flight

The push queue among everything else that writes devices and users. An execution of a job stops
at its three awaits: the query, the answer of Redis, the answer of FCM. In between devices are
registered, switched off and heard of, and users change. A job may be executed any number of
times, by several workers at once, and an execution may fail anywhere.
-/
namespace Birgap.Push

set_option autoImplicit false

open Birgap.Common Birgap.Lib Birgap.Lib.Run Birgap.Auth
open Birgap.Devices (DeviceKeys reregister newDevice switchOff register_cases deactivate_cases
  logout_devices step_keys)

/-- What a worker waits for: Redis, with the devices of the query; FCM, with the devices of the
message; the update, with the tokens to forget. -/
inductive Worker where
  | idle
  | found (job : PushNotificationJobData) (devices : List Device)
  | sending (job : PushNotificationJobData) (devices : List Device)
  | clearing (stale : List String)

/-- A message handed to FCM, with the job and the devices it is for. -/
structure Call where
  pid : Nat
  job : PushNotificationJobData
  devices : List Device
  message : MulticastMessage

structure State where
  db : Db
  jobs : List PushNotificationJobData
  workers : Nat → Worker
  calls : List Call
  log : List String

/-- `presence` is the answer of Redis, `answer` that of FCM; none is an exception. `seen` is the
update of a device whose socket connects, `users` any write to the users. -/
inductive Act where
  | add (job : PushNotificationJobData)
  | start (pid index : Nat) (fcmReady : Bool)
  | presence (pid : Nat) (online : Option (List Id))
  | answer (pid : Nat) (responses : Option (List SendResponse))
  | clear (pid : Nat)
  | fail (pid : Nat)
  | device (op : Devices.Op)
  | seen (now : Time) (deviceId : Id)
  | users (users : List User)

def State.set (s : State) (pid : Nat) (w : Worker) : State :=
  { s with workers := Function.update s.workers pid w }

def wakeupLog (job : PushNotificationJobData) (db : Db) : List String :=
  match job.type with
  | .newMessage => logWakeup job.envelopes db
  | type => logSilentWakeup job.envelopes type db

def seenAt (now : Time) (d : Device) : Device := { d with lastSeenAt := some now }

section

variable (provider : Option String) (env : AuthEnv) (configuredMax : Option Int)

/-- Up to the first answer an execution waits for. -/
def startJob (pid : Nat) (job : PushNotificationJobData) (fcmReady : Bool) (s : State) : State :=
  if provider.getD "logger" = "fcm" ∧ fcmReady then
    let found := candidates (findDevices job.envelopes s.db)
    if found.isEmpty then s else s.set pid (.found job found)
  else { s with log := s.log ++ wakeupLog job s.db }

/-- The devices that are left once Redis has answered get their message. -/
def sendTo (pid : Nat) (job : PushNotificationJobData) (devices : List Device) (s : State) : State :=
  if devices.isEmpty then s.set pid .idle
  else
    { s.set pid (.sending job devices) with
      calls := s.calls ++ [⟨pid, job, devices, multicast job.type devices⟩] }

def step (s : State) : Act → State
  | .add job => { s with jobs := s.jobs ++ [job] }
  | .start pid index fcmReady =>
      match s.workers pid with
      | .idle =>
          match s.jobs[index]? with
          | none => s
          | some job => startJob provider pid job fcmReady s
      | _ => s
  | .presence pid online =>
      match s.workers pid with
      | .found job devices => sendTo pid job (filterOnlineDevices online devices) s
      | _ => s
  | .answer pid responses =>
      match s.workers pid with
      | .sending _ devices =>
          match responses with
          | none => s.set pid .idle
          | some responses =>
              let stale := staleTokens (tokensOf devices) responses
              if stale.isEmpty then s.set pid .idle else s.set pid (.clearing stale)
      | _ => s
  | .clear pid =>
      match s.workers pid with
      | .clearing stale => { s.set pid .idle with db := clearTokens stale s.db }
      | _ => s
  | .fail pid => s.set pid .idle
  | .device op => { s with db := Devices.step env configuredMax s.db op }
  | .seen now deviceId =>
      { s with
        db := { s.db with devices := Rows.updateMany (·.id == deviceId) (seenAt now) s.db.devices } }
  | .users users => { s with db := { s.db with users := users } }

end

def start (db : Db) : State := { db, jobs := [], workers := fun _ => .idle, calls := [], log := [] }

/-! ## An execution that nothing interrupts -/

/-- What FCM answers to the message of the job, none when it throws. -/
def answerTo (env : PushEnv) (job : PushNotificationJobData) (db : Db) : Option (List SendResponse) :=
  let devices := filterOnlineDevices env.online (candidates (findDevices job.envelopes db))
  (env.sendEachForMulticast (multicast job.type devices)).toOption

def execution (env : PushEnv) (job : PushNotificationJobData) (db : Db) (pid index : Nat) : List Act :=
  [.start pid index env.fcmReady, .presence pid env.online, .answer pid (answerTo env job db),
   .clear pid]

/-- The state after an execution of the job that began in `s`. -/
structure Processed (env : PushEnv) (job : PushNotificationJobData) (result : Except Err Woken × Db)
    (pid : Nat) (s t : State) : Prop where
  idle : t.workers pid = .idle
  db : t.db = result.2
  log : ∀ w, result.1 = .ok w → t.log = s.log ++ w.log
  calls : ∀ w, result.1 = .ok w →
    t.calls.map (·.message) = s.calls.map (·.message) ++ w.message.toList

theorem process_type (env : PushEnv) (job : PushNotificationJobData) (db : Db) :
    process env job db =
      if env.pushProvider.getD "logger" = "fcm" ∧ env.fcmReady then
        sendFcm env job.envelopes db job.type
      else (.ok ⟨wakeupLog job db, none⟩, db) := by
  unfold process
  by_cases hp : env.pushProvider.getD "logger" = "fcm"
  · rw [if_pos hp]
    by_cases hr : env.fcmReady = true
    · rw [if_pos ⟨hp, hr⟩]
      cases ht : job.type with
      | newMessage => simp [sendFcmWakeup, hr]
      | edit => simp [sendSilentFcmWakeup, hr]
      | delete => simp [sendSilentFcmWakeup, hr]
    · rw [if_neg fun h => hr h.2]
      cases ht : job.type with
      | newMessage => simp [sendFcmWakeup, hr, wakeupLog, ht]
      | edit => simp [sendSilentFcmWakeup, hr, wakeupLog, ht]
      | delete => simp [sendSilentFcmWakeup, hr, wakeupLog, ht]
  · rw [if_neg hp, if_neg fun h => hp h.1]
    cases ht : job.type <;> simp [wakeupLog, ht]

/-- A worker that is idle has nothing to resume. -/
theorem resume_idle (provider : Option String) (env : AuthEnv) (configuredMax : Option Int) {s : State}
    {pid : Nat} (hidle : s.workers pid = .idle) :
    (∀ online, step provider env configuredMax s (.presence pid online) = s) ∧
    (∀ responses, step provider env configuredMax s (.answer pid responses) = s) ∧
    step provider env configuredMax s (.clear pid) = s := by
  refine ⟨?_, ?_, ?_⟩
  · intro online
    simp only [step, hidle]
  · intro responses
    simp only [step, hidle]
  · simp only [step, hidle]

theorem set_idle (s : State) (pid : Nat) : (s.set pid .idle).workers pid = .idle :=
  Function.update_self ..

/-- The answer of FCM and the update after it. -/
theorem answer_clear (provider : Option String) (env : AuthEnv) (configuredMax : Option Int) {s : State}
    {pid : Nat} {job : PushNotificationJobData} {devices : List Device}
    (hw : s.workers pid = .sending job devices) (responses : List SendResponse) :
    let t := run (step provider env configuredMax) s [.answer pid (some responses), .clear pid]
    t.workers pid = .idle ∧ t.db = clearTokens (staleTokens (tokensOf devices) responses) s.db ∧
      t.log = s.log ∧ t.calls = s.calls := by
  simp only [run_cons, run_nil]
  by_cases hempty : (staleTokens (tokensOf devices) responses).isEmpty = true
  · have hanswer : step provider env configuredMax s (.answer pid (some responses)) =
        s.set pid .idle := by
      simp only [step, hw, if_pos hempty]
    rw [hanswer, (resume_idle provider env configuredMax (set_idle s pid)).2.2, clearTokens,
      if_pos hempty]
    exact ⟨set_idle s pid, rfl, rfl, rfl⟩
  · have hanswer : step provider env configuredMax s (.answer pid (some responses)) =
        s.set pid (.clearing (staleTokens (tokensOf devices) responses)) := by
      simp only [step, hw, if_neg hempty]
    rw [hanswer]
    simp only [step, State.set, Function.update_self, and_self]

/-- The four steps of an execution in a row are `PushNotificationProcessor.process`. -/
theorem uninterrupted_process (env : PushEnv) (auth : AuthEnv) (configuredMax : Option Int)
    (s : State) (pid index : Nat) (job : PushNotificationJobData) (hidle : s.workers pid = .idle)
    (hjob : s.jobs[index]? = some job) :
    Processed env job (process env job s.db) pid s
      (run (step env.pushProvider auth configuredMax) s (execution env job s.db pid index)) := by
  rw [process_type]
  unfold execution
  rw [run_cons]
  have hrest : ∀ t : State, t.workers pid = .idle → run (step env.pushProvider auth configuredMax) t
      [.presence pid env.online, .answer pid (answerTo env job s.db), .clear pid] = t := by
    intro t ht
    obtain ⟨hpresence, hanswer, hclear⟩ := resume_idle env.pushProvider auth configuredMax ht
    simp only [run_cons, run_nil, hpresence, hanswer, hclear]
  by_cases hfcm : env.pushProvider.getD "logger" = "fcm" ∧ env.fcmReady = true
  · rw [if_pos hfcm]
    unfold sendFcm
    dsimp only
    by_cases hnone : (candidates (findDevices job.envelopes s.db)).isEmpty = true
    · have hstart : step env.pushProvider auth configuredMax s (.start pid index env.fcmReady) = s := by
        simp only [step, hidle, hjob, startJob, if_pos hfcm, if_pos hnone]
      rw [hstart, hrest s hidle, if_pos hnone]
      exact ⟨hidle, rfl, by intro w hw; cases hw; simp, by intro w hw; cases hw; simp⟩
    · have hstart : step env.pushProvider auth configuredMax s (.start pid index env.fcmReady) =
          s.set pid (.found job (candidates (findDevices job.envelopes s.db))) := by
        simp only [step, hidle, hjob, startJob, if_pos hfcm, if_neg hnone]
      rw [hstart, if_neg hnone, run_cons]
      generalize hd : filterOnlineDevices env.online (candidates (findDevices job.envelopes s.db)) = devices
      have hpresence : step env.pushProvider auth configuredMax
          (s.set pid (.found job (candidates (findDevices job.envelopes s.db))))
          (.presence pid env.online) = sendTo pid job devices
            (s.set pid (.found job (candidates (findDevices job.envelopes s.db)))) := by
        simp only [step, State.set, Function.update_self, hd]
      rw [hpresence]
      unfold sendTo
      by_cases hoff : devices.isEmpty = true
      · rw [if_pos hoff, if_pos hoff]
        obtain ⟨_, hanswer, hclear⟩ := resume_idle env.pushProvider auth configuredMax
          (set_idle (s.set pid (.found job (candidates (findDevices job.envelopes s.db)))) pid)
        simp only [run_cons, run_nil, hanswer, hclear]
        exact ⟨set_idle _ pid, rfl, by intro w hw; cases hw; simp [State.set],
          by intro w hw; cases hw; simp [State.set]⟩
      · rw [if_neg hoff, if_neg hoff]
        have hreply : answerTo env job s.db =
            (env.sendEachForMulticast (multicast job.type devices)).toOption := by
          rw [answerTo, hd]
        cases hsend : env.sendEachForMulticast (multicast job.type devices) with
        | error e =>
            rw [hreply, hsend]
            simp only [run_cons, run_nil, step, Except.toOption, State.set, Function.update_self]
            refine ⟨Function.update_self .., rfl, ?_, ?_⟩
            · intro w hok
              cases hok
            · intro w hok
              cases hok
        | ok responses =>
            rw [hreply, hsend]
            have hw : ({ (s.set pid (.found job (candidates (findDevices job.envelopes s.db)))).set pid
                (.sending job devices) with
                calls := s.calls ++ [⟨pid, job, devices, multicast job.type devices⟩] } : State).workers pid =
                .sending job devices := Function.update_self ..
            obtain ⟨hi, hdb, hlog, hcalls⟩ := answer_clear env.pushProvider auth configuredMax hw responses
            refine ⟨hi, hdb, ?_, ?_⟩
            · intro w hok
              cases hok
              exact hlog.trans (List.append_nil _).symm
            · intro w hok
              cases hok
              refine (congrArg (List.map (·.message)) hcalls).trans ?_
              simp
  · have hstart : step env.pushProvider auth configuredMax s (.start pid index env.fcmReady) =
        { s with log := s.log ++ wakeupLog job s.db } := by
      simp only [step, hidle, hjob, startJob, if_neg hfcm]
    rw [if_neg hfcm, hstart, hrest { s with log := s.log ++ wakeupLog job s.db } hidle]
    exact ⟨hidle, rfl, by intro w hw; cases hw; rfl, by intro w hw; cases hw; simp⟩

/-! ## One step -/

variable {provider : Option String} {env : AuthEnv} {configuredMax : Option Int}

/-- What a step does to the queue, the workers and the messages. -/
inductive Moves (s : State) (a : Act) : State → Prop where
  | same {s'} (hworkers : s'.workers = s.workers) (hcalls : s'.calls = s.calls) : Moves s a s'
  | stop {s'} (pid : Nat) (hworkers : s'.workers = Function.update s.workers pid .idle)
      (hcalls : s'.calls = s.calls) : Moves s a s'
  | find {s'} (pid index : Nat) (job : PushNotificationJobData) (ha : a = .start pid index true)
      (hjob : s.jobs[index]? = some job)
      (hworkers : s'.workers = Function.update s.workers pid
        (.found job (candidates (findDevices job.envelopes s.db))))
      (hcalls : s'.calls = s.calls) : Moves s a s'
  | send {s'} (pid : Nat) (job : PushNotificationJobData) (found : List Device) (online : List Id)
      (ha : a = .presence pid (some online)) (hw : s.workers pid = .found job found)
      (hworkers : s'.workers = Function.update s.workers pid
        (.sending job (filterOnlineDevices (some online) found)))
      (hcalls : s'.calls = s.calls ++ [⟨pid, job, filterOnlineDevices (some online) found,
        multicast job.type (filterOnlineDevices (some online) found)⟩]) : Moves s a s'
  | answered {s'} (pid : Nat) (job : PushNotificationJobData) (devices : List Device)
      (responses : List SendResponse) (ha : a = .answer pid (some responses))
      (hw : s.workers pid = .sending job devices)
      (hworkers : s'.workers = Function.update s.workers pid
        (.clearing (staleTokens (tokensOf devices) responses)))
      (hcalls : s'.calls = s.calls) : Moves s a s'

theorem step_moves (s : State) (a : Act) : Moves s a (step provider env configuredMax s a) := by
  cases a with
  | add job => exact .same rfl rfl
  | start pid index fcmReady =>
      simp only [step]
      split
      · split
        · exact .same rfl rfl
        · rename_i job hjob
          unfold startJob
          split
          · rename_i hfcm
            obtain ⟨_, rfl⟩ := hfcm
            dsimp only
            split
            · exact .same rfl rfl
            · exact .find pid index job rfl hjob rfl rfl
          · exact .same rfl rfl
      · exact .same rfl rfl
  | presence pid online =>
      simp only [step]
      split
      · rename_i job found hw
        unfold sendTo
        split
        · exact .stop pid rfl rfl
        · rename_i hsome
          cases online with
          | none => exact absurd rfl hsome
          | some online => exact .send pid job found online rfl hw rfl rfl
      · exact .same rfl rfl
  | answer pid responses =>
      simp only [step]
      split
      · rename_i job devices hw
        cases responses with
        | none => exact .stop pid rfl rfl
        | some responses =>
            dsimp only
            split
            · exact .stop pid rfl rfl
            · exact .answered pid job devices responses rfl hw rfl rfl
      · exact .same rfl rfl
  | clear pid =>
      simp only [step]
      split
      · exact .stop pid rfl rfl
      · exact .same rfl rfl
  | fail pid => exact .stop pid rfl rfl
  | device op => exact .same rfl rfl
  | seen now deviceId => exact .same rfl rfl
  | users users => exact .same rfl rfl

theorem clearTokens_devices (stale : List String) (db : Db) :
    (clearTokens stale db).devices =
      Rows.updateMany (fun d => d.pushToken.any stale.contains) cleared db.devices := by
  unfold clearTokens
  split
  · rename_i hempty
    obtain rfl := List.isEmpty_iff.mp hempty
    refine (Rows.updateMany_eq_self ?_).symm
    intro d _
    cases d.pushToken <;> rfl
  · rfl

theorem step_deviceKeys (s : State) (a : Act) (hk : DeviceKeys s.db) :
    DeviceKeys (step provider env configuredMax s a).db := by
  cases a with
  | device op => exact step_keys env configuredMax s.db op hk
  | seen now deviceId =>
      exact Rows.unique_updateMany (f := seenAt now) (fun _ => rfl) hk
  | clear pid =>
      simp only [step]
      split
      · show Rows.Unique _ _
        rw [clearTokens_devices]
        exact Rows.unique_updateMany (f := cleared) (fun _ => rfl) hk
      · exact hk
  | start pid index fcmReady =>
      simp only [step, startJob]
      split
      · split
        · exact hk
        · split
          · split <;> exact hk
          · exact hk
      · exact hk
  | presence pid online =>
      simp only [step, sendTo]
      split
      · split <;> exact hk
      · exact hk
  | answer pid responses =>
      simp only [step]
      split
      · split
        · exact hk
        · split <;> exact hk
      · exact hk
  | _ => exact hk

/-! ## Whom a message wakes -/

/-- The devices `found` are what a query of a run so far has returned for the job, and the worker
has not gone on since. -/
def Queried (provider : Option String) (env : AuthEnv) (configuredMax : Option Int) (s : State)
    (acts : List Act) (pid : Nat) (job : PushNotificationJobData) (found : List Device) : Prop :=
  ∃ pre rest index, acts = pre ++ .start pid index true :: rest ∧
    (run (step provider env configuredMax) s pre).jobs[index]? = some job ∧
    found = candidates (findDevices job.envelopes (run (step provider env configuredMax) s pre).db) ∧
    Always (step provider env configuredMax) (fun t => t.workers pid = .found job found)
      (run (step provider env configuredMax) s (pre ++ [.start pid index true])) rest

/-- The message is for the devices of a query less those Redis has called online since. -/
def Addressed (provider : Option String) (env : AuthEnv) (configuredMax : Option Int) (s : State)
    (acts : List Act) (c : Call) : Prop :=
  c.message = multicast c.job.type c.devices ∧
  ∃ found online pre rest, acts = pre ++ .presence c.pid (some online) :: rest ∧
    Queried provider env configuredMax s pre c.pid c.job found ∧
    c.devices = filterOnlineDevices (some online) found

theorem Queried.snoc {s : State} {acts : List Act} {pid : Nat} {job : PushNotificationJobData}
    {found : List Device} (h : Queried provider env configuredMax s acts pid job found) {a : Act}
    (hstill : (run (step provider env configuredMax) s (acts ++ [a])).workers pid = .found job found) :
    Queried provider env configuredMax s (acts ++ [a]) pid job found := by
  obtain ⟨pre, rest, index, rfl, hjob, hfound, hheld⟩ := h
  refine ⟨pre, rest ++ [a], index, by simp, hjob, hfound, hheld.concat ?_⟩
  rw [← run_append]
  simpa using hstill

theorem Addressed.snoc {s : State} {acts : List Act} {c : Call}
    (h : Addressed provider env configuredMax s acts c) (a : Act) :
    Addressed provider env configuredMax s (acts ++ [a]) c := by
  obtain ⟨hm, found, online, pre, rest, rfl, h⟩ := h
  exact ⟨hm, found, online, pre, rest ++ [a], by simp, h⟩

/-- What the workers hold and what was sent goes back to queries of the run. -/
structure Traced (provider : Option String) (env : AuthEnv) (configuredMax : Option Int) (s : State)
    (acts : List Act) (t : State) : Prop where
  found : ∀ pid job devices, t.workers pid = .found job devices →
    Queried provider env configuredMax s acts pid job devices
  calls : ∀ c ∈ t.calls, Addressed provider env configuredMax s acts c

theorem update_workers {workers : Nat → Worker} {pid p : Nat} {w v : Worker}
    (h : Function.update workers pid w p = v) : (p = pid ∧ w = v) ∨ workers p = v := by
  by_cases hp : p = pid
  · subst hp
    rw [Function.update_self] at h
    exact Or.inl ⟨rfl, h⟩
  · rw [Function.update_of_ne hp] at h
    exact Or.inr h

theorem Traced.snoc {s : State} {acts : List Act} {a : Act}
    (h : Traced provider env configuredMax s acts (run (step provider env configuredMax) s acts)) :
    Traced provider env configuredMax s (acts ++ [a])
      (step provider env configuredMax (run (step provider env configuredMax) s acts) a) := by
  -- a worker that holds the devices of a query has held them before, or starts now
  have hkept : ∀ pid job devices,
      (run (step provider env configuredMax) s acts).workers pid = .found job devices →
      (step provider env configuredMax (run (step provider env configuredMax) s acts) a).workers pid =
        .found job devices → Queried provider env configuredMax s (acts ++ [a]) pid job devices := by
    intro pid job devices hw hstill
    refine (h.found pid job devices hw).snoc ?_
    rw [run_concat]
    exact hstill
  have hcalled : ∀ c ∈ (run (step provider env configuredMax) s acts).calls,
      Addressed provider env configuredMax s (acts ++ [a]) c := fun c hc => (h.calls c hc).snoc a
  cases step_moves (run (step provider env configuredMax) s acts) a with
  | same hworkers hcalls =>
      refine ⟨?_, ?_⟩
      · intro p job devices hp
        exact hkept p job devices (hworkers ▸ hp) hp
      · rw [hcalls]
        exact hcalled
  | stop pid hworkers hcalls =>
      refine ⟨?_, ?_⟩
      · intro p job devices hp
        have hstill := hp
        rw [hworkers] at hp
        rcases update_workers hp with ⟨_, he⟩ | hp
        · cases he
        · exact hkept p job devices hp hstill
      · rw [hcalls]
        exact hcalled
  | find pid index job ha hjob hworkers hcalls =>
      refine ⟨?_, ?_⟩
      · intro p job' devices hp
        have hstill := hp
        rw [hworkers] at hp
        rcases update_workers hp with ⟨rfl, he⟩ | hp
        · cases he
          refine ⟨acts, [], index, by rw [ha], hjob, rfl, (always_nil _ _ _).mpr ?_⟩
          rw [run_concat, ← ha]
          exact hstill
        · exact hkept p job' devices hp hstill
      · rw [hcalls]
        exact hcalled
  | send pid job found online ha hw hworkers hcalls =>
      refine ⟨?_, ?_⟩
      · intro p job' devices hp
        have hstill := hp
        rw [hworkers] at hp
        rcases update_workers hp with ⟨_, he⟩ | hp
        · cases he
        · exact hkept p job' devices hp hstill
      · intro c hc
        rw [hcalls] at hc
        rcases List.mem_append.mp hc with hc | hc
        · exact hcalled c hc
        · obtain rfl := List.mem_singleton.mp hc
          exact ⟨rfl, found, online, acts, [], by rw [ha], h.found pid job found hw, rfl⟩
  | answered pid job devices responses ha hw hworkers hcalls =>
      refine ⟨?_, ?_⟩
      · intro p job' devices' hp
        have hstill := hp
        rw [hworkers] at hp
        rcases update_workers hp with ⟨_, he⟩ | hp
        · cases he
        · exact hkept p job' devices' hp hstill
      · rw [hcalls]
        exact hcalled

theorem run_traced (db : Db) (acts : List Act) :
    Traced provider env configuredMax (start db) acts
      (run (step provider env configuredMax) (start db) acts) := by
  refine run_history (I := Traced provider env configuredMax (start db)) ?_ ?_ acts
  · refine ⟨?_, ?_⟩
    · intro pid job devices hw
      cases hw
    · intro c hc
      cases hc
  · intro pre a h
    exact h.snoc

theorem run_deviceKeys (provider : Option String) (env : AuthEnv) (configuredMax : Option Int)
    {s : State} (hk : DeviceKeys s.db) (acts : List Act) :
    DeviceKeys (run (step provider env configuredMax) s acts).db :=
  run_invariant (fun s a h => step_deviceKeys s a h) acts s hk

theorem mem_filterOnlineDevices {online : List Id} {devices : List Device} {d : Device} :
    d ∈ filterOnlineDevices (some online) devices ↔ d ∈ devices ∧ d.id ∉ online := by
  unfold filterOnlineDevices
  simp

/-- A device of the message was found by the query under the conditions of the query. -/
structure Reachable (job : PushNotificationJobData) (db : Db) (online : List Id) (d : Device) :
    Prop where
  stored : d ∈ db.devices
  addressed : ∃ e ∈ job.envelopes, e.recipientDeviceId = d.id
  active : d.active = true
  platform : d.pushPlatform = some .fcm
  token : ∃ token, d.pushToken = some token ∧ token ≠ ""
  owner : ∃ u ∈ db.users, u.id = d.userId ∧ u.status = .active
  offline : d.id ∉ online

theorem mem_offline {job : PushNotificationJobData} {db : Db} {online : List Id} {d : Device} :
    d ∈ filterOnlineDevices (some online) (candidates (findDevices job.envelopes db)) ↔
      Reachable job db online d := by
  rw [mem_filterOnlineDevices, mem_candidates, mem_findDevices]
  constructor
  · intro h
    obtain ⟨⟨⟨hd, ha, hactive, _, hu⟩, hp, ht⟩, hoff⟩ := h
    exact ⟨hd, ha, hactive, hp, ht, hu, hoff⟩
  · intro h
    obtain ⟨token, ht, hne⟩ := h.token
    refine ⟨⟨⟨h.stored, h.addressed, h.active, ?_, h.owner⟩, h.platform, token, ht, hne⟩, h.offline⟩
    rw [ht]
    rfl

/-- In every run, whatever the interleaving, a message handed to FCM carries the tokens of
distinct devices: at the query of the execution that sends it, those were exactly the active
devices of active users that the job addresses and FCM can reach, less the ones Redis has called
online after that. From that query to the answer of Redis the worker waits. -/
theorem wakeups_reach (provider : Option String) (env : AuthEnv) (configuredMax : Option Int) (db : Db)
    (hk : DeviceKeys db) (acts : List Act) :
    ∀ c ∈ (run (step provider env configuredMax) (start db) acts).calls,
      c.message.tokens.map some = c.devices.map (·.pushToken) ∧ (c.devices.map (·.id)).Nodup ∧
      c.message.dataType = c.job.type.dataType ∧
      ∃ pre mid rest index online,
        acts = pre ++ .start c.pid index true :: mid ++ .presence c.pid (some online) :: rest ∧
        (run (step provider env configuredMax) (start db) pre).jobs[index]? = some c.job ∧
        Always (step provider env configuredMax) (fun t => ∃ found, t.workers c.pid = .found c.job found)
          (run (step provider env configuredMax) (start db) (pre ++ [.start c.pid index true])) mid ∧
        ∀ d, d ∈ c.devices ↔
          Reachable c.job (run (step provider env configuredMax) (start db) pre).db online d := by
  intro c hc
  obtain ⟨hm, found, online, _, rest, rfl, ⟨pre, mid, index, rfl, hjob, hfound, hheld⟩, hdevices⟩ :=
    (run_traced db acts).calls c hc
  have hmem : ∀ d, d ∈ c.devices ↔
      Reachable c.job (run (step provider env configuredMax) (start db) pre).db online d := by
    intro d
    rw [hdevices, hfound]
    exact mem_offline
  refine ⟨?_, ?_, ?_, pre, mid, rest, index, online, rfl, hjob, ?_, hmem⟩
  · rw [hm, multicast, tokensOf, List.map_map]
    apply List.map_congr_left
    intro d hd
    obtain ⟨token, ht, _⟩ := ((hmem d).mp hd).token
    rw [Function.comp_apply, ht, Option.getD_some]
  · rw [hdevices, hfound]
    have hids := run_deviceKeys provider env configuredMax (s := start db) hk pre
    exact ((hids.filter _).filter _).filter _
  · rw [hm]
    rfl
  · exact hheld.mono fun t ht => ⟨found, ht⟩

def samplePhone (token : String) : Device :=
  { id := "d1", userId := "alice", platform := .ios, identityPublicKey := "key", pushToken := some token
    pushPlatform := some .fcm, createdAt := 0 }

def sampleStore : Db :=
  { users := [{ id := "alice", phoneHash := "hash" }], devices := [samplePhone "old"] }

def sampleJob : PushNotificationJobData := sendMessageWakeup [⟨"d1", "alice"⟩]

/-- A message goes to the old token; before FCM has answered, the phone registers a new one. -/
def newTokenInFlight : List Act :=
  [.add sampleJob, .start 0 0 true, .presence 0 (some []),
   .device (.register 5 "unused" "alice" { deviceId := some "d1", platform := .ios
                                           identityPublicKey := "key", pushToken := some "new" })]

theorem old_token_woken :
    (run (step (some "fcm") Devices.sampleEnv none) (start sampleStore) newTokenInFlight).calls.length = 1 ∧
    ∀ c ∈ (run (step (some "fcm") Devices.sampleEnv none) (start sampleStore) newTokenInFlight).calls,
      c.message.tokens.map some = c.devices.map (·.pushToken) ∧ (c.devices.map (·.id)).Nodup := by
  refine ⟨by decide, ?_⟩
  intro c hc
  obtain ⟨htokens, hids, _⟩ := wakeups_reach (some "fcm") Devices.sampleEnv none sampleStore
    (by decide) newTokenInFlight c hc
  exact ⟨htokens, hids⟩

/-! ## What becomes of a token -/

/-- The request registers the device again. -/
def Registers (d : Device) : Act → Prop
  | .device (.register _ _ userId dto) => truthy dto.deviceId = some d.id ∧ userId = d.userId
  | _ => False

/-- A device that was not registered again: nothing but its token has been cleared, if that. -/
structure Later (d d' : Device) : Prop where
  id : d'.id = d.id
  userId : d'.userId = d.userId
  quiet : d.pushActive = false → d'.pushActive = false

structure TokenKept (d d' : Device) : Prop extends Later d d' where
  pushToken : d'.pushToken = d.pushToken
  pushPlatform : d'.pushPlatform = d.pushPlatform

structure TokenCleared (d d' : Device) : Prop extends Later d d' where
  pushToken : d'.pushToken = none
  pushPlatform : d'.pushPlatform = none
  pushActive : d'.pushActive = false

theorem Later.trans {d d' d'' : Device} (h : Later d d') (h' : Later d' d'') : Later d d'' :=
  ⟨h'.id.trans h.id, h'.userId.trans h.userId, fun hq => h'.quiet (h.quiet hq)⟩

theorem TokenKept.refl (d : Device) : TokenKept d d :=
  { id := rfl, userId := rfl, quiet := fun h => h, pushToken := rfl, pushPlatform := rfl }

theorem TokenKept.trans {d d' d'' : Device} (h : TokenKept d d') (h' : TokenKept d' d'') :
    TokenKept d d'' :=
  { h.toLater.trans h'.toLater with
    pushToken := h'.pushToken.trans h.pushToken
    pushPlatform := h'.pushPlatform.trans h.pushPlatform }

theorem TokenCleared.keep {d d' d'' : Device} (h : TokenCleared d d') (h' : TokenKept d' d'') :
    TokenCleared d d'' :=
  { h.toLater.trans h'.toLater with
    pushToken := h'.pushToken.trans h.pushToken
    pushPlatform := h'.pushPlatform.trans h.pushPlatform
    pushActive := h'.quiet h.pushActive }

/-- An update that keeps the token of every row keeps that of `d`. -/
theorem kept_of_updateMany {p : Device → Bool} {f : Device → Device} {rows : List Device} {d : Device}
    (hd : d ∈ rows) (hf : p d = true → TokenKept d (f d)) :
    ∃ d' ∈ Rows.updateMany p f rows, TokenKept d d' := by
  refine ⟨_, Rows.mem_updateMany.mpr ⟨d, hd, rfl⟩, ?_⟩
  split
  · rename_i hp
    exact hf hp
  · exact TokenKept.refl d

theorem switchOff_kept (d : Device) : TokenKept d (switchOff d) :=
  { id := rfl, userId := rfl, quiet := fun _ => rfl, pushToken := rfl, pushPlatform := rfl }

theorem seenAt_kept (now : Time) (d : Device) : TokenKept d (seenAt now d) :=
  { id := rfl, userId := rfl, quiet := fun h => h, pushToken := rfl, pushPlatform := rfl }

/-- No operation on devices but a registration of `d` itself touches its token. -/
theorem device_kept (env : AuthEnv) (configuredMax : Option Int) {db : Db} (hk : DeviceKeys db)
    (op : Devices.Op) {d : Device} (hd : d ∈ db.devices) (hno : ¬ Registers d (.device op)) :
    ∃ d' ∈ (Devices.step env configuredMax db op).devices, TokenKept d d' := by
  cases op with
  | register now newId userId dto =>
      simp only [Devices.step]
      rcases register_cases configuredMax now newId userId dto db hk with
        ⟨_, h⟩ | ⟨x, hx, hdto, howner, h⟩ | ⟨_, id, _, _, h⟩
      · rw [h]
        exact ⟨d, hd, TokenKept.refl d⟩
      · rw [h]
        refine kept_of_updateMany hd ?_
        intro hid
        -- the row that is written over is another one
        obtain rfl := hk.eq hd hx (beq_iff_eq.mp hid)
        exact absurd ⟨hdto, howner.symm⟩ hno
      · rw [h]
        exact ⟨d, List.mem_append_left _ hd, TokenKept.refl d⟩
  | deactivate userId deviceId =>
      simp only [Devices.step]
      rcases deactivate_cases userId deviceId db with h | h
      · rw [h]
        exact ⟨d, hd, TokenKept.refl d⟩
      · rw [h]
        exact kept_of_updateMany hd fun _ => switchOff_kept d
  | logout now user refreshToken deviceId =>
      simp only [Devices.step]
      rcases logout_devices env now user refreshToken deviceId db with h | ⟨id, h⟩
      · rw [h]
        exact ⟨d, hd, TokenKept.refl d⟩
      · rw [h]
        exact kept_of_updateMany hd fun _ => switchOff_kept d

/-- A step that does not register `d` again keeps its token, or forgets one that a worker was
about to clear. -/
theorem step_token (provider : Option String) (env : AuthEnv) (configuredMax : Option Int) {s : State}
    (hk : DeviceKeys s.db) (a : Act) {d : Device} (hd : d ∈ s.db.devices) (hno : ¬ Registers d a) :
    ∃ d' ∈ (step provider env configuredMax s a).db.devices, TokenKept d d' ∨
      (TokenCleared d d' ∧ ∃ pid stale token, s.workers pid = .clearing stale ∧ token ∈ stale ∧
        d.pushToken = some token) := by
  have hsame : ∀ s' : State, s'.db.devices = s.db.devices → ∃ d' ∈ s'.db.devices, TokenKept d d' ∨
      (TokenCleared d d' ∧ ∃ pid stale token, s.workers pid = .clearing stale ∧ token ∈ stale ∧
        d.pushToken = some token) := by
    intro s' h
    rw [h]
    exact ⟨d, hd, Or.inl (TokenKept.refl d)⟩
  cases a with
  | device op =>
      obtain ⟨d', hd', h⟩ := device_kept env configuredMax hk op hd hno
      exact ⟨d', hd', Or.inl h⟩
  | seen now deviceId =>
      obtain ⟨d', hd', h⟩ := kept_of_updateMany (p := (·.id == deviceId)) hd
        fun _ => seenAt_kept now d
      exact ⟨d', hd', Or.inl h⟩
  | clear pid =>
      simp only [step]
      split
      · rename_i stale hw
        show ∃ d' ∈ (clearTokens stale s.db).devices, _
        rw [clearTokens_devices]
        refine ⟨_, Rows.mem_updateMany.mpr ⟨d, hd, rfl⟩, ?_⟩
        split
        · rename_i hp
          obtain ⟨token, ht, hmem⟩ := (Option.any_eq_true _ _).mp hp
          refine Or.inr ⟨?_, pid, stale, token, hw, List.contains_iff_mem.mp hmem, ht⟩
          exact { id := rfl, userId := rfl, quiet := fun _ => rfl, pushToken := rfl,
                  pushPlatform := rfl, pushActive := rfl }
        · exact Or.inl (TokenKept.refl d)
      · exact hsame s rfl
  | start pid index fcmReady =>
      simp only [step, startJob]
      split
      · split
        · exact hsame s rfl
        · split
          · split <;> exact hsame _ rfl
          · exact hsame _ rfl
      · exact hsame s rfl
  | presence pid online =>
      simp only [step, sendTo]
      split
      · split <;> exact hsame _ rfl
      · exact hsame s rfl
  | answer pid responses =>
      simp only [step]
      split
      · split
        · exact hsame _ rfl
        · split <;> exact hsame _ rfl
      · exact hsame s rfl
  | _ => exact hsame _ rfl

/-- FCM has answered a message of the run that holds the token, and called it unknown. -/
def Rejected (provider : Option String) (env : AuthEnv) (configuredMax : Option Int) (s : State)
    (acts : List Act) (token : String) : Prop :=
  ∃ pre rest pid job devices responses r, acts = pre ++ .answer pid (some responses) :: rest ∧
    (run (step provider env configuredMax) s pre).workers pid = .sending job devices ∧
    (token, r) ∈ (tokensOf devices).zip responses ∧ isStale r = true

theorem Rejected.snoc {s : State} {acts : List Act} {token : String}
    (h : Rejected provider env configuredMax s acts token) (a : Act) :
    Rejected provider env configuredMax s (acts ++ [a]) token := by
  obtain ⟨pre, rest, pid, job, devices, responses, r, rfl, h⟩ := h
  exact ⟨pre, rest ++ [a], pid, job, devices, responses, r, by simp, h⟩

/-- The tokens that are about to be cleared have been rejected. -/
def Backed (provider : Option String) (env : AuthEnv) (configuredMax : Option Int) (s : State)
    (acts : List Act) (t : State) : Prop :=
  ∀ pid stale, t.workers pid = .clearing stale → ∀ token ∈ stale,
    Rejected provider env configuredMax s acts token

theorem Backed.snoc {s : State} {acts : List Act} {a : Act}
    (h : Backed provider env configuredMax s acts (run (step provider env configuredMax) s acts)) :
    Backed provider env configuredMax s (acts ++ [a])
      (step provider env configuredMax (run (step provider env configuredMax) s acts) a) := by
  have hkept : ∀ pid stale, (run (step provider env configuredMax) s acts).workers pid = .clearing stale →
      ∀ token ∈ stale, Rejected provider env configuredMax s (acts ++ [a]) token :=
    fun pid stale hw token ht => (h pid stale hw token ht).snoc a
  intro p stale hp token ht
  cases step_moves (run (step provider env configuredMax) s acts) a with
  | same hworkers hcalls =>
      rw [hworkers] at hp
      exact hkept p stale hp token ht
  | stop pid hworkers hcalls =>
      rw [hworkers] at hp
      rcases update_workers hp with ⟨_, he⟩ | hp
      · cases he
      · exact hkept p stale hp token ht
  | find pid index job ha hjob hworkers hcalls =>
      rw [hworkers] at hp
      rcases update_workers hp with ⟨_, he⟩ | hp
      · cases he
      · exact hkept p stale hp token ht
  | send pid job found online ha hw hworkers hcalls =>
      rw [hworkers] at hp
      rcases update_workers hp with ⟨_, he⟩ | hp
      · cases he
      · exact hkept p stale hp token ht
  | answered pid job devices responses ha hw hworkers hcalls =>
      rw [hworkers] at hp
      rcases update_workers hp with ⟨_, he⟩ | hp
      · obtain rfl := Worker.clearing.inj he
        obtain ⟨r, hmem, hstale⟩ := mem_staleTokens ht
        exact ⟨acts, [], pid, job, devices, responses, r, by rw [ha], hw, hmem, hstale⟩
      · exact hkept p stale hp token ht

theorem run_backed (db : Db) (acts : List Act) :
    Backed provider env configuredMax (start db) acts
      (run (step provider env configuredMax) (start db) acts) := by
  refine run_history (I := Backed provider env configuredMax (start db)) ?_ ?_ acts
  · intro pid stale hw
    cases hw
  · intro pre a h
    exact h.snoc

/-- In every run, whatever the interleaving, a device that is not registered again keeps its push
token and its platform unless FCM has rejected that very token in the run; in that case the
token, the platform and the push flag may have been cleared together. In particular a token that
was registered while messages to older ones are in flight is safe from their answers. -/
theorem tokens_kept (provider : Option String) (env : AuthEnv) (configuredMax : Option Int) (db : Db)
    (hk : DeviceKeys db) (pre acts : List Act) {d : Device}
    (hd : d ∈ (run (step provider env configuredMax) (start db) pre).db.devices)
    (hno : ∀ a ∈ acts, ¬ Registers d a) :
    ∃ d' ∈ (run (step provider env configuredMax) (start db) (pre ++ acts)).db.devices,
      TokenKept d d' ∨ (TokenCleared d d' ∧ ∃ token, d.pushToken = some token ∧
        Rejected provider env configuredMax (start db) (pre ++ acts) token) := by
  induction acts using List.reverseRecOn with
  | nil =>
      rw [List.append_nil]
      exact ⟨d, hd, Or.inl (TokenKept.refl d)⟩
  | append_singleton acts a ih =>
      obtain ⟨d', hd', h⟩ := ih fun a ha => hno a (List.mem_append_left _ ha)
      have hkeys := run_deviceKeys provider env configuredMax (s := start db) hk (pre ++ acts)
      have hid : d'.id = d.id ∧ d'.userId = d.userId := by
        rcases h with h | ⟨h, _⟩
        · exact ⟨h.id, h.userId⟩
        · exact ⟨h.id, h.userId⟩
      have hno' : ¬ Registers d' a := by
        intro hr
        refine hno a (by simp) ?_
        unfold Registers at hr ⊢
        rw [hid.1, hid.2] at hr
        exact hr
      obtain ⟨d'', hd'', h'⟩ := step_token provider env configuredMax hkeys a hd' hno'
      rw [← List.append_assoc, run_concat]
      refine ⟨d'', hd'', ?_⟩
      rcases h with h | ⟨h, token, ht, hrej⟩
      · rcases h' with h' | ⟨h', pid, stale, token, hw, hmem, ht⟩
        · exact Or.inl (h.trans h')
        · refine Or.inr ⟨?_, token, h.pushToken ▸ ht, ?_⟩
          · exact { h.toLater.trans h'.toLater with
                    pushToken := h'.pushToken, pushPlatform := h'.pushPlatform,
                    pushActive := h'.pushActive }
          · exact (run_backed db (pre ++ acts) pid stale hw token hmem).snoc a
      · rcases h' with h' | ⟨_, _, _, token, _, _, ht'⟩
        · exact Or.inr ⟨h.keep h', token, ht, hrej.snoc a⟩
        · rw [h.pushToken] at ht'
          cases ht'

/-- FCM knows the old token no more. -/
def oldTokenRejected : List Act :=
  [.answer 0 (some [.failure "messaging/registration-token-not-registered" "unknown"]), .clear 0]

/-- The row of the phone under its new token. -/
def renewed : Device := { samplePhone "new" with lastSeenAt := some 5 }

theorem new_token_kept :
    ∃ d' ∈ (run (step (some "fcm") Devices.sampleEnv none) (start sampleStore)
        (newTokenInFlight ++ oldTokenRejected)).db.devices,
      TokenKept renewed d' ∨ (TokenCleared renewed d' ∧ ∃ token, renewed.pushToken = some token ∧
        Rejected (some "fcm") Devices.sampleEnv none (start sampleStore)
          (newTokenInFlight ++ oldTokenRejected) token) := by
  refine tokens_kept (some "fcm") Devices.sampleEnv none sampleStore (by decide) newTokenInFlight
    oldTokenRejected (by decide) ?_
  intro a ha
  simp only [oldTokenRejected, List.mem_cons, List.not_mem_nil, or_false] at ha
  rcases ha with rfl | rfl
  · exact fun h => h
  · exact fun h => h

end Birgap.Push
