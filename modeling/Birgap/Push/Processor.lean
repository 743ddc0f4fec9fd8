import Birgap.Common.Crypto
import Birgap.Lib.Rows

/-!
# Push wakeups

`PushService` and `PushNotificationProcessor`. A job names the devices that have something to
fetch. The processor looks up those that are active and can be reached, leaves out the ones
with an open socket, wakes the others through FCM and forgets the tokens that FCM reports as
unknown. Without FCM it only logs.
-/
namespace Birgap.Push

set_option autoImplicit false

open Birgap.Common Birgap.Lib

structure PushEnvelopeTarget where
  recipientDeviceId : Id
  recipientUserId : Id
  deriving DecidableEq

inductive PushType where
  | newMessage
  | edit
  | delete
  deriving DecidableEq

structure PushNotificationJobData where
  type : PushType
  envelopes : List PushEnvelopeTarget
  deriving DecidableEq

/-! ## The jobs of `PushService` -/

def sendMessageWakeup (envelopes : List PushEnvelopeTarget) : PushNotificationJobData :=
  { type := .newMessage, envelopes }

def sendEditWakeup (envelopes : List PushEnvelopeTarget) : PushNotificationJobData :=
  { type := .edit, envelopes }

def sendDeleteWakeup (envelopes : List PushEnvelopeTarget) : PushNotificationJobData :=
  { type := .delete, envelopes }

/-! ## The devices of a job -/

/-- `[...new Set(envelopes.map((e) => e.recipientDeviceId))]`. -/
def deviceIds (envelopes : List PushEnvelopeTarget) : List Id :=
  (envelopes.map (·.recipientDeviceId)).eraseDups

def userActive (userId : Id) (db : Db) : Bool :=
  db.users.any fun u => u.id == userId && u.status == .active

/-- The query that all four ways of waking start with. -/
def findDevices (envelopes : List PushEnvelopeTarget) (db : Db) : List Device :=
  db.devices.filter fun d =>
    (deviceIds envelopes).contains d.id && d.active && d.pushToken.isSome && userActive d.userId db

def candidates (devices : List Device) : List Device :=
  devices.filter fun d => d.pushPlatform == some .fcm && (truthy d.pushToken).isSome

/-- `online` is what Redis answers, none when it does not. -/
def filterOnlineDevices (online : Option (List Id)) (devices : List Device) : List Device :=
  match online with
  | none => []
  | some online => devices.filter fun d => !online.contains d.id

/-! ## Without FCM -/

def PushPlatform.text : PushPlatform → String
  | .fcm => "FCM"
  | .apns => "APNS"
  | .hms => "HMS"

def platformText (d : Device) : String := (d.pushPlatform.map PushPlatform.text).getD "unknown"

def logWakeup (envelopes : List PushEnvelopeTarget) (db : Db) : List String :=
  (findDevices envelopes db).map fun d =>
    "Push wakeup queued user=" ++ d.userId ++ " device=" ++ d.id ++ " platform=" ++ platformText d

def PushType.text : PushType → String
  | .newMessage => "new_message"
  | .edit => "edit"
  | .delete => "delete"

def logSilentWakeup (envelopes : List PushEnvelopeTarget) (type : PushType) (db : Db) : List String :=
  (findDevices envelopes db).map fun d =>
    "Silent " ++ type.text ++ " push queued user=" ++ d.userId ++ " device=" ++ d.id ++
      " platform=" ++ platformText d

/-! ## With FCM -/

structure ApnsConfig where
  contentAvailable : Bool
  pushType : String
  priority : String
  deriving DecidableEq

def SILENT_APNS : ApnsConfig := { contentAvailable := true, pushType := "background", priority := "5" }

structure MulticastMessage where
  dataType : String
  tokens : List String
  androidPriority : String
  apns : ApnsConfig
  deriving DecidableEq

/-- The answer for one token. -/
inductive SendResponse where
  | success
  | failure (code message : String)
  deriving DecidableEq

def isStale : SendResponse → Bool
  | .success => false
  | .failure code _ => code == "messaging/registration-token-not-registered" ||
      code == "messaging/invalid-registration-token"

def failed : SendResponse → Bool
  | .success => false
  | .failure _ _ => true

def PushType.dataType : PushType → String
  | .newMessage => "new_message"
  | type => "message_" ++ type.text

def tokensOf (devices : List Device) : List String := devices.map fun d => d.pushToken.getD ""

def multicast (type : PushType) (devices : List Device) : MulticastMessage :=
  { dataType := type.dataType, tokens := tokensOf devices, androidPriority := "high"
    apns := SILENT_APNS }

/-- The tokens the loop over the answers collects. -/
def staleTokens (tokens : List String) (responses : List SendResponse) : List String :=
  if 0 < responses.countP failed then
    (tokens.zip responses).filterMap fun p => if isStale p.2 then some p.1 else none
  else []

def cleared (d : Device) : Device :=
  { d with pushToken := none, pushPlatform := none, pushActive := false }

def clearTokens (stale : List String) (db : Db) : Db :=
  if stale.isEmpty then db
  else
    { db with devices := Rows.updateMany (fun d => d.pushToken.any stale.contains) cleared db.devices }

/-- What one execution leaves: the lines it logs for wakeups, and the message FCM is given. -/
structure Woken where
  log : List String
  message : Option MulticastMessage

/-- The environment of an execution: `PUSH_PROVIDER`, `FcmProvider.isReady`, what Redis knows
of the devices and what FCM answers, if it does not throw. -/
structure PushEnv where
  pushProvider : Option String
  fcmReady : Bool
  online : Option (List Id)
  sendEachForMulticast : MulticastMessage → Except Err (List SendResponse)

section Process

variable (env : PushEnv) (envelopes : List PushEnvelopeTarget) (db : Db)

/-- The rest of both FCM functions once FCM is ready. -/
def sendFcm (type : PushType) : Except Err Woken × Db :=
  let candidates := candidates (findDevices envelopes db)
  if candidates.isEmpty then (.ok ⟨[], none⟩, db)
  else
  let fcmDevices := filterOnlineDevices env.online candidates
  if fcmDevices.isEmpty then (.ok ⟨[], none⟩, db)
  else
    let message := multicast type fcmDevices
    match env.sendEachForMulticast message with
    | .error e => (.error e, db)
    | .ok responses =>
        (.ok ⟨[], some message⟩, clearTokens (staleTokens message.tokens responses) db)

def sendFcmWakeup : Except Err Woken × Db :=
  if env.fcmReady then sendFcm env envelopes db .newMessage
  else (.ok ⟨logWakeup envelopes db, none⟩, db)

def sendSilentFcmWakeup (type : PushType) : Except Err Woken × Db :=
  if env.fcmReady then sendFcm env envelopes db type
  else (.ok ⟨logSilentWakeup envelopes type db, none⟩, db)

end Process

/-- `PushNotificationProcessor.process`, run alone. -/
def process (env : PushEnv) (job : PushNotificationJobData) (db : Db) : Except Err Woken × Db :=
  if env.pushProvider.getD "logger" = "fcm" then
    match job.type with
    | .newMessage => sendFcmWakeup env job.envelopes db
    | type => sendSilentFcmWakeup env job.envelopes db type
  else
    match job.type with
    | .newMessage => (.ok ⟨logWakeup job.envelopes db, none⟩, db)
    | type => (.ok ⟨logSilentWakeup job.envelopes type db, none⟩, db)

/-! ## What the query and the loop select -/

theorem mem_deviceIds {envelopes : List PushEnvelopeTarget} {id : Id} :
    id ∈ deviceIds envelopes ↔ ∃ e ∈ envelopes, e.recipientDeviceId = id := by
  unfold deviceIds
  rw [List.mem_eraseDups, List.mem_map]

theorem userActive_iff {userId : Id} {db : Db} :
    userActive userId db = true ↔ ∃ u ∈ db.users, u.id = userId ∧ u.status = .active := by
  simp [userActive]

theorem mem_findDevices {envelopes : List PushEnvelopeTarget} {db : Db} {d : Device} :
    d ∈ findDevices envelopes db ↔ d ∈ db.devices ∧ (∃ e ∈ envelopes, e.recipientDeviceId = d.id) ∧
      d.active = true ∧ d.pushToken.isSome ∧ ∃ u ∈ db.users, u.id = d.userId ∧ u.status = .active := by
  unfold findDevices
  rw [List.mem_filter, Bool.and_eq_true_iff, Bool.and_eq_true_iff, Bool.and_eq_true_iff,
    List.contains_iff_mem, mem_deviceIds, userActive_iff, and_assoc, and_assoc]

/-- A candidate has a token that is not empty. -/
theorem mem_candidates {devices : List Device} {d : Device} :
    d ∈ candidates devices ↔ d ∈ devices ∧ d.pushPlatform = some .fcm ∧
      ∃ token, d.pushToken = some token ∧ token ≠ "" := by
  unfold candidates
  rw [List.mem_filter, Bool.and_eq_true_iff, beq_iff_eq, Option.isSome_iff_exists]
  simp [truthy, Option.filter_eq_some_iff]

/-- Only tokens that were in the message and were answered as unknown are stale. -/
theorem mem_staleTokens {tokens : List String} {responses : List SendResponse} {token : String}
    (h : token ∈ staleTokens tokens responses) :
    ∃ r, (token, r) ∈ tokens.zip responses ∧ isStale r = true := by
  unfold staleTokens at h
  split at h
  · obtain ⟨⟨t, r⟩, hmem, hsome⟩ := List.mem_filterMap.mp h
    dsimp only at hsome
    split at hsome
    · rename_i hstale
      obtain rfl := Option.some.inj hsome
      exact ⟨r, hmem, hstale⟩
    · cases hsome
  · cases h

end Birgap.Push
