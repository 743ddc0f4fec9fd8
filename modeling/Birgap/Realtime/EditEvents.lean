import Birgap.Common.Crypto
import Birgap.Groups.EditChunks
import Birgap.Messages.EditKeys

/-!
# What is announced of an edit

Two events lead to a `message.edited` for each device. The handler of the group event takes the
message id from `id`, where the edit fan-out puts it; `MessagesService.edit` emits that event with
`messageId` instead, so the devices of a group are told of an edit of no message.
-/
namespace Birgap.Realtime.EditEvents

set_option autoImplicit false

open Birgap.Lib Birgap.Lib.Tx Birgap.Common Birgap.Messages Birgap.Groups Birgap.Groups.EditChunks

/-- What the gateway reads of an envelope. -/
structure EditedEnvelope where
  recipientDeviceId : Id
  ciphertext : Ciphertext
  deriving DecidableEq

/-- The payload of both events. Each producer fills in `id` or `messageId`. -/
structure EditedPayload where
  id : Option Id := none
  messageId : Option Id := none
  threadId : Option Id
  groupId : Option Id
  senderUserId : Id
  senderDeviceId : Id
  editedAt : Time
  targetUserIds : List Id := []
  envelopes : List EditedEnvelope
  deriving DecidableEq

inductive Event where
  | edited (payload : EditedPayload)
  | editedGroup (payload : EditedPayload)
  deriving DecidableEq

/-- The `message` of a `message.edited`. -/
structure Summary where
  id : Option Id
  threadId : Option Id
  groupId : Option Id
  senderUserId : Id
  senderDeviceId : Id
  editedAt : Time
  deriving DecidableEq

/-- A `message.edited` in the room of a device. -/
structure Emission where
  deviceId : Id
  messageId : Option Id
  threadId : Option Id
  groupId : Option Id
  senderUserId : Id
  senderDeviceId : Id
  editedAt : Time
  ciphertext : Ciphertext
  message : Summary
  deriving DecidableEq

/-! ## The gateway -/

def emitEditedPerDevice (payload : EditedPayload) : List Emission :=
  let summary : Summary :=
    { id := payload.messageId, threadId := payload.threadId, groupId := payload.groupId
      senderUserId := payload.senderUserId, senderDeviceId := payload.senderDeviceId
      editedAt := payload.editedAt }
  payload.envelopes.map fun envelope =>
    { deviceId := envelope.recipientDeviceId, messageId := payload.messageId
      threadId := payload.threadId, groupId := payload.groupId
      senderUserId := payload.senderUserId, senderDeviceId := payload.senderDeviceId
      editedAt := payload.editedAt, ciphertext := envelope.ciphertext, message := summary }

def onMessageEdited (payload : EditedPayload) : List Emission := emitEditedPerDevice payload

def onGroupMessageEdited (payload : EditedPayload) : List Emission :=
  if (truthy payload.groupId).isNone then []
  else emitEditedPerDevice { payload with messageId := payload.id }

def handle : Event → List Emission
  | .edited payload => onMessageEdited payload
  | .editedGroup payload => onGroupMessageEdited payload

/-! ## The producers -/

/-- The `eventPayload` of `MessagesService.edit`. -/
def editedPayload (updated : Serialized) (editedAt : Time) : EditedPayload :=
  let message := updated.message
  { messageId := some message.id, threadId := message.threadId, groupId := message.groupId
    senderUserId := message.senderUserId, senderDeviceId := message.senderDeviceId, editedAt
    envelopes := updated.envelopes.map fun e => ⟨e.recipientDeviceId, e.ciphertext⟩ }

/-- What `MessagesService.edit` emits of the row it has read at its end. -/
def editedEvents (userId : Id) (updated : Serialized) (db : Db) : List Event :=
  match updated.message.editedAt with
  | none => []
  | some editedAt =>
      if (truthy updated.message.groupId).isSome then [.editedGroup (editedPayload updated editedAt)]
      else
        match (truthy updated.message.threadId).bind fun id => db.directThreads.find? (·.id == id) with
        | none => []
        | some thread =>
            [.edited { editedPayload updated editedAt with
              targetUserIds := [thread.userAId, thread.userBId].filter (· != userId) }]

/-- The events of `MessagesService.edit`; a call that does not claim the edit emits none. -/
def editEvents (limit : EditLimit) (now : Time) (userId messageId : Id) (dto : EditMessageDto)
    (db : Db) : List Event :=
  match edit limit now userId messageId dto db with
  | (.ok updated, db') =>
      if (claimEdit now messageId dto.idempotencyKey db).1 = 0 then []
      else editedEvents userId updated db'
  | (.error _, _) => []

/-- The event of `GroupEditFanoutProcessor.process`. -/
def editFanoutEvents (job : GroupEditFanoutJobData) (db : Db) : List Event :=
  let devices := targetDevices job.groupId job.senderDeviceId db
  if devices.isEmpty then []
  else
    [.editedGroup
      { id := some job.messageId, threadId := none, groupId := some job.groupId
        senderUserId := job.senderUserId, senderDeviceId := job.senderDeviceId
        editedAt := job.editedAt, envelopes := devices.map fun d => ⟨d.id, job.ciphertext⟩ }]

/-! ## What is claimed of an edit -/

/-- An edit through one of the two services. The job of a group edit runs later, on the store
it then finds. -/
inductive Call where
  | edit (limit : EditLimit) (now : Time) (userId messageId : Id) (dto : EditMessageDto)
  | editGroupMessage (limit : EditLimit) (now : Time) (senderUserId groupId messageId : Id)
      (dto : EditGroupMessageDto) (job : GroupEditFanoutJobData) (later : Db) (ranAt : Time)

def Call.messageId : Call → Id
  | .edit _ _ _ messageId _ => messageId
  | .editGroupMessage _ _ _ _ messageId _ _ _ _ => messageId

/-- The envelopes that the edit finds. -/
def Call.before (db : Db) : Call → List MessageEnvelope
  | .edit .. => db.messageEnvelopes
  | .editGroupMessage _ _ _ _ _ _ _ later _ => later.messageEnvelopes

/-- The envelopes that it leaves. -/
def Call.after (db : Db) : Call → List MessageEnvelope
  | .edit limit now userId messageId dto =>
      (Messages.edit limit now userId messageId dto db).2.messageEnvelopes
  | .editGroupMessage _ _ _ _ _ _ job later ranAt => (editFanout ranAt job later).messageEnvelopes

def Call.events (db : Db) : Call → List Event
  | .edit limit now userId messageId dto => editEvents limit now userId messageId dto db
  | .editGroupMessage _ _ _ _ _ _ job later _ => editFanoutEvents job later

/-- The call claims the edit, and for a group edit `job` is the job it adds. -/
def TakesEffect (db : Db) : Call → Prop
  | .edit limit now userId messageId dto =>
      editChecks limit now userId messageId dto db = .ok () ∧
        (claimEdit now messageId dto.idempotencyKey db).1 ≠ 0
  | .editGroupMessage limit now senderUserId groupId messageId dto job _ _ =>
      ∃ answer db', editGroupMessage limit now false senderUserId groupId messageId dto db [] =
        (.ok answer, db', [job])

/-- Every device whose envelope was updated is told of the edit of this message, with the
ciphertext that its envelope now has. -/
def Notifies (db : Db) (call : Call) : Prop :=
  ∀ e e', (e, e') ∈ (call.before db).zip (call.after db) → e.envelopeVersion ≠ e'.envelopeVersion →
    ∃ m ∈ (call.events db).flatMap handle, m.deviceId = e'.recipientDeviceId ∧
      m.messageId = some call.messageId ∧ m.message.id = some call.messageId ∧
      m.ciphertext = e'.ciphertext

/-- `MessagesService.edit` is asked to edit a group message, and some envelope of the message is
for a listed device. -/
def EditsGroupMessage (db : Db) : Call → Prop
  | .edit _ _ _ messageId dto =>
      (∃ m ∈ db.messages, m.id = messageId ∧ m.groupId ≠ none) ∧
        ∃ e ∈ db.messageEnvelopes, e.messageId = messageId ∧
          ∃ x ∈ dto.envelopes, x.recipientDeviceId = e.recipientDeviceId
  | .editGroupMessage .. => False

/-- Ids of messages are unique, a message is in a thread or in a group, and no id is empty. -/
structure Addressed (db : Db) : Prop where
  ids : Rows.Unique (·.id) db.messages
  conversation : ∀ m ∈ db.messages, (∃ threadId, threadId ≠ "" ∧ m.threadId = some threadId ∧
    m.groupId = none) ∨ ∃ groupId, groupId ≠ "" ∧ m.groupId = some groupId
  groups : ∀ g ∈ db.groupMembers, g.groupId ≠ ""

/-! ## The gateway's part -/

theorem emitted_iff {payload : EditedPayload} {m : Emission} :
    m ∈ emitEditedPerDevice payload ↔ ∃ envelope ∈ payload.envelopes,
      m = { deviceId := envelope.recipientDeviceId, messageId := payload.messageId
            threadId := payload.threadId, groupId := payload.groupId
            senderUserId := payload.senderUserId, senderDeviceId := payload.senderDeviceId
            editedAt := payload.editedAt, ciphertext := envelope.ciphertext
            message :=
              { id := payload.messageId, threadId := payload.threadId, groupId := payload.groupId
                senderUserId := payload.senderUserId, senderDeviceId := payload.senderDeviceId
                editedAt := payload.editedAt } } := by
  unfold emitEditedPerDevice
  simp only [List.mem_map, eq_comm]

/-- The device of each envelope of a payload is told of the message that the payload names. -/
theorem emits {payload : EditedPayload} {messageId : Id} (hid : payload.messageId = some messageId)
    {deviceId : Id} {ciphertext : Ciphertext} (hmem : ⟨deviceId, ciphertext⟩ ∈ payload.envelopes) :
    ∃ m ∈ emitEditedPerDevice payload, m.deviceId = deviceId ∧ m.messageId = some messageId ∧
      m.message.id = some messageId ∧ m.ciphertext = ciphertext :=
  ⟨_, emitted_iff.mpr ⟨_, hmem, rfl⟩, rfl, hid, hid, rfl⟩

/-- A payload without `id` leads to events of no message. -/
theorem group_handler_unnamed {payload : EditedPayload} (hid : payload.id = none) {m : Emission}
    (hm : m ∈ onGroupMessageEdited payload) : m.messageId = none := by
  unfold onGroupMessageEdited at hm
  split at hm
  · cases hm
  · obtain ⟨envelope, _, rfl⟩ := emitted_iff.mp hm
    exact hid

/-! ## `MessagesService.edit` -/

section Edit

variable {limit : EditLimit} {now : Time} {userId : Id} {m : Message} {dto : EditMessageDto} {db : Db}

/-- What an edit that is claimed answers and leaves. -/
theorem edit_claimed (hu : Rows.Unique (·.id) db.messages) (hm : m ∈ db.messages)
    (hcheck : editChecks limit now userId m.id dto db = .ok ())
    (hclaim : (claimEdit now m.id dto.idempotencyKey db).1 ≠ 0) :
    edit limit now userId m.id dto db =
      (.ok { message := edited now dto.idempotencyKey m
             envelopes := (db.messageEnvelopes.map (refreshRow now m.id dto.envelopes)).filter
               fun e => e.messageId == m.id &&
                 (dto.envelopes.map (·.recipientDeviceId)).contains e.recipientDeviceId
             media := [] },
        refreshEnvelopes now m.id dto.envelopes (claimEdit now m.id dto.idempotencyKey db).2) := by
  obtain ⟨m', hm', hid, old, hold, hne⟩ :=
    (EditKeys.claimEdit_pos_iff now m.id dto.idempotencyKey db).mp hclaim
  obtain rfl := hu.eq hm' hm hid
  have hrow : edited now dto.idempotencyKey m' ∈
      (claimEdit now m'.id dto.idempotencyKey db).2.messages := (claimEdit_keyed hm hold hne).2
  have hfind : (refreshEnvelopes now m'.id dto.envelopes
      (claimEdit now m'.id dto.idempotencyKey db).2).messages.find? (·.id == m'.id) =
        some (edited now dto.idempotencyKey m') :=
    (claimEdit_unique hu).find?_eq hrow
  unfold edit
  rw [hcheck]
  simp only [if_neg hclaim, hfind, refreshEnvelopes_eq]
  rfl

/-- A row is rewritten if and only if the request names its device. -/
theorem refreshed_iff (messageId : Id) (envelopes : List EditMessageEnvelopeDto) (e : MessageEnvelope) :
    e.envelopeVersion ≠ (refreshRow now messageId envelopes e).envelopeVersion ↔
      e.messageId = messageId ∧ ∃ x ∈ envelopes, x.recipientDeviceId = e.recipientDeviceId := by
  rw [EditKeys.refreshRow_version]
  constructor
  · intro hne
    have hpos : 0 < envelopes.countP fun x =>
        e.messageId == messageId && e.recipientDeviceId == x.recipientDeviceId := by omega
    obtain ⟨x, hx, htest⟩ := List.countP_pos_iff.mp hpos
    obtain ⟨hid, hdevice⟩ := Bool.and_eq_true_iff.mp htest
    exact ⟨beq_iff_eq.mp hid, x, hx, (beq_iff_eq.mp hdevice).symm⟩
  · intro h
    obtain ⟨hid, x, hx, hdevice⟩ := h
    have hpos : 0 < envelopes.countP fun x =>
        e.messageId == messageId && e.recipientDeviceId == x.recipientDeviceId :=
      List.countP_pos_iff.mpr ⟨x, hx, by simp [hid, hdevice]⟩
    omega

theorem refreshRow_place (messageId : Id) (envelopes : List EditMessageEnvelopeDto)
    (e : MessageEnvelope) :
    (refreshRow now messageId envelopes e).messageId = e.messageId ∧
      (refreshRow now messageId envelopes e).recipientDeviceId = e.recipientDeviceId := by
  induction envelopes generalizing e with
  | nil => exact ⟨rfl, rfl⟩
  | cons x envelopes ih =>
      rw [refreshRow, List.foldl_cons]
      split
      · exact ih _
      · exact ih e

/-- The participant check finds the thread of a direct message. -/
theorem thread_stored (hu : Rows.Unique (·.id) db.messages) (hm : m ∈ db.messages)
    (hcheck : editChecks limit now userId m.id dto db = .ok ()) {threadId : Id}
    (hthread : m.threadId = some threadId) :
    ∃ thread, db.directThreads.find? (·.id == threadId) = some thread := by
  unfold editChecks assertMessageAccess at hcheck
  rw [hu.find?_eq hm] at hcheck
  obtain ⟨_, _, hrest⟩ := bind_ok.mp hcheck
  obtain ⟨_, haccess, _⟩ := bind_ok.mp hrest
  obtain ⟨_, hallowed, _⟩ := bind_ok.mp haccess
  unfold hasAccess at hallowed
  rw [hthread] at hallowed
  cases hfound : db.directThreads.find? (·.id == threadId) with
  | some thread => exact ⟨thread, rfl⟩
  | none =>
      have hany := ensure_ok.mp hallowed
      rw [hfound] at hany
      cases hany

/-- The events of an edit that is claimed. -/
theorem editEvents_claimed (hu : Rows.Unique (·.id) db.messages) (hm : m ∈ db.messages)
    (hcheck : editChecks limit now userId m.id dto db = .ok ())
    (hclaim : (claimEdit now m.id dto.idempotencyKey db).1 ≠ 0) :
    editEvents limit now userId m.id dto db = editedEvents userId
      { message := edited now dto.idempotencyKey m
        envelopes := (db.messageEnvelopes.map (refreshRow now m.id dto.envelopes)).filter
          fun e => e.messageId == m.id &&
            (dto.envelopes.map (·.recipientDeviceId)).contains e.recipientDeviceId
        media := [] } db := by
  unfold editEvents
  rw [edit_claimed hu hm hcheck hclaim]
  simp only [if_neg hclaim]
  rfl

end Edit

theorem mem_zip_map {α β : Type} {f : α → β} {rows : List α} {a : α} {b : β} :
    (a, b) ∈ rows.zip (rows.map f) ↔ a ∈ rows ∧ b = f a := by
  induction rows with
  | nil => simp
  | cons r rows ih =>
      rw [List.map_cons, List.zip_cons_cons, List.mem_cons, ih, List.mem_cons, Prod.mk.injEq]
      constructor
      · intro h
        rcases h with ⟨rfl, rfl⟩ | ⟨ha, hb⟩
        · exact ⟨.inl rfl, rfl⟩
        · exact ⟨.inr ha, hb⟩
      · intro h
        rcases h with ⟨rfl | ha, hb⟩
        · exact .inl ⟨rfl, hb⟩
        · exact .inr ⟨ha, hb⟩

/-! ## Whom the two services tell -/

theorem truthy_of_ne {x : String} (hne : x ≠ "") : truthy (some x) = some x :=
  Option.filter_some_pos (decide_eq_true hne)

section Events

variable {userId : Id} {updated : Serialized} {editedAt : Time} {db : Db}

theorem editedEvents_group {groupId : Id} (hedited : updated.message.editedAt = some editedAt)
    (hne : groupId ≠ "") (hgroup : updated.message.groupId = some groupId) :
    editedEvents userId updated db = [.editedGroup (editedPayload updated editedAt)] := by
  unfold editedEvents
  rw [hedited, hgroup, truthy_of_ne hne]
  rfl

theorem editedEvents_direct {threadId : Id} {thread : DirectThread}
    (hedited : updated.message.editedAt = some editedAt) (hgroup : updated.message.groupId = none)
    (hne : threadId ≠ "") (hthread : updated.message.threadId = some threadId)
    (hstored : db.directThreads.find? (·.id == threadId) = some thread) :
    editedEvents userId updated db =
      [.edited { editedPayload updated editedAt with
        targetUserIds := [thread.userAId, thread.userBId].filter (· != userId) }] := by
  unfold editedEvents
  rw [hedited, hgroup, hthread, truthy_of_ne hne, Option.bind_some, hstored]
  rfl

end Events

section Notified

variable {limit : EditLimit} {now : Time} {userId : Id} {m : Message} {dto : EditMessageDto} {db : Db}

/-- The envelopes that an edit updates. -/
theorem updated_iff (hu : Rows.Unique (·.id) db.messages) (hm : m ∈ db.messages)
    (hcheck : editChecks limit now userId m.id dto db = .ok ())
    (hclaim : (claimEdit now m.id dto.idempotencyKey db).1 ≠ 0) {e e' : MessageEnvelope} :
    (e, e') ∈ (Call.before db (.edit limit now userId m.id dto)).zip
        (Call.after db (.edit limit now userId m.id dto)) ∧ e.envelopeVersion ≠ e'.envelopeVersion ↔
      e ∈ db.messageEnvelopes ∧ e' = refreshRow now m.id dto.envelopes e ∧
        e.messageId = m.id ∧ ∃ x ∈ dto.envelopes, x.recipientDeviceId = e.recipientDeviceId := by
  have hafter : Call.after db (.edit limit now userId m.id dto) =
      db.messageEnvelopes.map (refreshRow now m.id dto.envelopes) := by
    show (edit limit now userId m.id dto db).2.messageEnvelopes = _
    rw [edit_claimed hu hm hcheck hclaim]
    exact refreshEnvelopes_eq ..
  rw [hafter]
  show (e, e') ∈ db.messageEnvelopes.zip _ ∧ _ ↔ _
  rw [mem_zip_map, and_assoc]
  refine and_congr_right fun _ => and_congr_right fun he' => ?_
  rw [he', refreshed_iff]

/-- A direct message: the event names the message, and its envelopes are those just stored. -/
theorem direct_notifies (hu : Rows.Unique (·.id) db.messages) (hm : m ∈ db.messages)
    (hcheck : editChecks limit now userId m.id dto db = .ok ())
    (hclaim : (claimEdit now m.id dto.idempotencyKey db).1 ≠ 0) {threadId : Id}
    (hne : threadId ≠ "") (hthread : m.threadId = some threadId) (hgroup : m.groupId = none) :
    Notifies db (.edit limit now userId m.id dto) := by
  obtain ⟨thread, hstored⟩ := thread_stored hu hm hcheck hthread
  intro e e' hpair hversion
  obtain ⟨he, rfl, hid, x, hx, hdevice⟩ := (updated_iff hu hm hcheck hclaim).mp ⟨hpair, hversion⟩
  obtain ⟨hsameId, hsameDevice⟩ : (refreshRow now m.id dto.envelopes e).messageId = e.messageId ∧
      (refreshRow now m.id dto.envelopes e).recipientDeviceId = e.recipientDeviceId :=
    refreshRow_place m.id dto.envelopes e
  have hread : refreshRow now m.id dto.envelopes e ∈
      (db.messageEnvelopes.map (refreshRow now m.id dto.envelopes)).filter fun e =>
        e.messageId == m.id && (dto.envelopes.map (·.recipientDeviceId)).contains e.recipientDeviceId := by
    rw [List.mem_filter, Bool.and_eq_true, beq_iff_eq, List.contains_iff_mem, hsameId, hsameDevice]
    exact ⟨List.mem_map_of_mem he, hid, List.mem_map.mpr ⟨x, hx, hdevice⟩⟩
  show ∃ emission ∈ (editEvents limit now userId m.id dto db).flatMap handle, _
  rw [editEvents_claimed hu hm hcheck hclaim,
    editedEvents_direct (by rfl) (by exact hgroup) hne (by exact hthread) hstored,
    List.flatMap_singleton]
  have hlisted := List.mem_map_of_mem
    (f := fun e : MessageEnvelope => (⟨e.recipientDeviceId, e.ciphertext⟩ : EditedEnvelope)) hread
  exact emits rfl hlisted

/-- A group message: whatever is emitted names no message. -/
theorem group_unnamed (hu : Rows.Unique (·.id) db.messages) (hm : m ∈ db.messages)
    (hcheck : editChecks limit now userId m.id dto db = .ok ())
    (hclaim : (claimEdit now m.id dto.idempotencyKey db).1 ≠ 0) {groupId : Id}
    (hne : groupId ≠ "") (hgroup : m.groupId = some groupId) :
    ∀ emission ∈ (Call.events db (.edit limit now userId m.id dto)).flatMap handle,
      emission.messageId = none := by
  show ∀ emission ∈ (editEvents limit now userId m.id dto db).flatMap handle, _
  rw [editEvents_claimed hu hm hcheck hclaim, editedEvents_group (by rfl) hne (by exact hgroup)]
  intro emission hmem
  rw [List.flatMap_singleton] at hmem
  exact group_handler_unnamed rfl hmem

end Notified

/-- An edit through `MessagesService.edit` is announced for what it is, unless the message is a
group message and some envelope was updated. -/
theorem edit_notifies_iff {limit : EditLimit} {now : Time} {userId messageId : Id}
    {dto : EditMessageDto} {db : Db} (h : Addressed db)
    (hcheck : editChecks limit now userId messageId dto db = .ok ())
    (hclaim : (claimEdit now messageId dto.idempotencyKey db).1 ≠ 0) :
    Notifies db (.edit limit now userId messageId dto) ↔
      ¬ EditsGroupMessage db (.edit limit now userId messageId dto) := by
  obtain ⟨m, hm, rfl, _⟩ := (EditKeys.claimEdit_pos_iff now messageId dto.idempotencyKey db).mp hclaim
  rcases h.conversation m hm with ⟨threadId, hne, hthread, hgroup⟩ | ⟨groupId, hne, hgroup⟩
  · refine ⟨?_, fun _ => direct_notifies h.ids hm hcheck hclaim hne hthread hgroup⟩
    intro _ hgroupEdit
    obtain ⟨⟨m', hm', hid, hsome⟩, _⟩ := hgroupEdit
    rw [h.ids.eq hm' hm hid] at hsome
    exact hsome hgroup
  · constructor
    · intro hnotifies hgroupEdit
      obtain ⟨_, e, he, hid, hnamed⟩ := hgroupEdit
      obtain ⟨hpair, hversion⟩ := (updated_iff h.ids hm hcheck hclaim).mpr ⟨he, rfl, hid, hnamed⟩
      obtain ⟨emission, hmem, _, hmessage, _⟩ := hnotifies e _ hpair hversion
      rw [group_unnamed h.ids hm hcheck hclaim hne hgroup emission hmem] at hmessage
      cases hmessage
    · intro hnot e e' hpair hversion
      obtain ⟨he, _, hid, hnamed⟩ := (updated_iff h.ids hm hcheck hclaim).mp ⟨hpair, hversion⟩
      exact absurd ⟨⟨m, hm, rfl, by rw [hgroup]; exact Option.some_ne_none _⟩, e, he, hid, hnamed⟩ hnot

/-! ## The edit fan-out -/

section Fanout

variable {now : Time} {messageId : Id} {ciphertext : Ciphertext}

/-- What the updates of all chunks make of one row. -/
def fannedOut (now : Time) (messageId : Id) (ciphertext : Ciphertext) (chunks : List (List Id))
    (e : MessageEnvelope) : MessageEnvelope :=
  chunks.foldl (fun e chunk =>
    if isTarget messageId chunk e then refreshed now ciphertext e else e) e

theorem foldl_updateChunk (chunks : List (List Id)) (rows : List MessageEnvelope) :
    chunks.foldl (fun rows chunk => updateChunk now messageId ciphertext chunk rows) rows =
      rows.map (fannedOut now messageId ciphertext chunks) := by
  induction chunks generalizing rows with
  | nil => exact (List.map_id rows).symm
  | cons chunk chunks ih =>
      rw [List.foldl_cons, ih, updateChunk_eq, List.map_map]
      rfl

/-- A row stays as it is, or its device is in a chunk and it has the new ciphertext. -/
theorem fannedOut_cases (chunks : List (List Id)) (e : MessageEnvelope) :
    fannedOut now messageId ciphertext chunks e = e ∨
      ((fannedOut now messageId ciphertext chunks e).recipientDeviceId = e.recipientDeviceId ∧
        e.recipientDeviceId ∈ chunks.flatten ∧
        (fannedOut now messageId ciphertext chunks e).ciphertext = ciphertext) := by
  induction chunks generalizing e with
  | nil => exact .inl rfl
  | cons chunk chunks ih =>
      rw [fannedOut, List.foldl_cons, List.flatten_cons, List.mem_append]
      by_cases htarget : isTarget messageId chunk e = true
      · have hdevice : e.recipientDeviceId ∈ chunk :=
          List.contains_iff_mem.mp (Bool.and_eq_true_iff.mp htarget).2
        rw [if_pos htarget]
        rcases ih (refreshed now ciphertext e) with hsame | ⟨hkept, _, hnew⟩
        · right
          rw [← fannedOut, hsame]
          exact ⟨rfl, .inl hdevice, rfl⟩
        · exact .inr ⟨hkept, .inl hdevice, hnew⟩
      · rw [if_neg htarget]
        rcases ih e with hsame | ⟨hkept, hdevice, hnew⟩
        · exact .inl hsame
        · exact .inr ⟨hkept, .inr hdevice, hnew⟩

end Fanout

/-- The job of a group edit names the message and the group of the call. -/
theorem job_names {limit : EditLimit} {now : Time} {senderUserId groupId messageId : Id}
    {dto : EditGroupMessageDto} {job : GroupEditFanoutJobData} {db db' : Db} {answer : GroupEditAnswer}
    (h : editGroupMessage limit now false senderUserId groupId messageId dto db [] =
      (.ok answer, db', [job])) :
    job.messageId = messageId ∧ job.groupId = groupId ∧ isMember groupId senderUserId db = true := by
  unfold editGroupMessage at h
  cases hcheck : editGroupChecks limit now senderUserId groupId messageId db with
  | error e =>
      rw [hcheck] at h
      cases (Prod.mk.inj h).1
  | ok u =>
      have hmember : isMember groupId senderUserId db = true := by
        unfold editGroupChecks at hcheck
        obtain ⟨_, hmember, _⟩ := bind_ok.mp hcheck
        exact ensure_ok.mp hmember
      rw [hcheck] at h
      dsimp only at h
      split at h
      · cases (Prod.mk.inj h).1
      · rename_i row hrow
        have hid : row.id = messageId := by simpa using List.find?_some hrow
        split at h
        · cases (Prod.mk.inj (Prod.mk.inj h).2).2
        · split at h
          · cases (Prod.mk.inj h).1
          · rw [if_neg Bool.false_ne_true] at h
            obtain ⟨_, hjobs⟩ := Prod.mk.inj (Prod.mk.inj h).2
            obtain rfl := List.singleton_inj.mp hjobs
            exact ⟨hid, rfl, hmember⟩

/-- The event of the fan-out names the message in `id`, for every device it has updated. -/
theorem fanout_notifies {limit : EditLimit} {now ranAt : Time} {senderUserId groupId messageId : Id}
    {dto : EditGroupMessageDto} {job : GroupEditFanoutJobData} {db later : Db} (h : Addressed db)
    (heffect : TakesEffect db
      (.editGroupMessage limit now senderUserId groupId messageId dto job later ranAt)) :
    Notifies db (.editGroupMessage limit now senderUserId groupId messageId dto job later ranAt) := by
  obtain ⟨answer, db', hanswer⟩ := heffect
  obtain ⟨hid, hgroup, hmember⟩ := job_names hanswer
  obtain ⟨g, hg, htest⟩ := List.any_eq_true.mp hmember
  have hne : job.groupId ≠ "" := by
    rw [hgroup, ← beq_iff_eq.mp (Bool.and_eq_true_iff.mp htest).1]
    exact h.groups g hg
  intro e e' hpair hversion
  have hrows : Call.after db (.editGroupMessage limit now senderUserId groupId messageId dto job later
      ranAt) = later.messageEnvelopes.map (fannedOut ranAt job.messageId job.ciphertext
        (editChunks job.groupId job.senderDeviceId later)) := by
    show (editFanout ranAt job later).messageEnvelopes = _
    rw [editFanout_eq]
    exact foldl_updateChunk ..
  rw [hrows] at hpair
  obtain ⟨_, rfl⟩ := mem_zip_map.mp hpair
  rcases fannedOut_cases (editChunks job.groupId job.senderDeviceId later) e with hsame | hnew
  · rw [hsame] at hversion
    exact absurd rfl hversion
  · obtain ⟨hdevice, hlisted, hcipher⟩ := hnew
    rw [flatten_editChunks] at hlisted
    obtain ⟨d, hd, hdid⟩ := List.mem_map.mp hlisted
    have hsome : (targetDevices job.groupId job.senderDeviceId later).isEmpty = false :=
      List.isEmpty_eq_false_iff.mpr (List.ne_nil_of_mem hd)
    have htold := List.mem_map_of_mem
      (f := fun d : Device => (⟨d.id, job.ciphertext⟩ : EditedEnvelope)) hd
    show ∃ emission ∈ (editFanoutEvents job later).flatMap handle, _
    unfold editFanoutEvents
    dsimp only
    rw [hsome, if_neg Bool.false_ne_true, List.flatMap_singleton, handle, onGroupMessageEdited,
      truthy_of_ne hne, Option.isNone_some, if_neg Bool.false_ne_true, hdevice, hcipher, ← hdid, ← hid]
    exact emits rfl htold

/-- An edit that takes effect is announced to every device whose envelope it updates, under the id
of the message and with the stored ciphertext, if and only if it is not an edit of a group message
through `MessagesService.edit` that updates an envelope. -/
theorem edits_announced_iff {db : Db} (h : Addressed db) (call : Call) (heffect : TakesEffect db call) :
    Notifies db call ↔ ¬ EditsGroupMessage db call := by
  cases call with
  | edit limit now userId messageId dto => exact edit_notifies_iff h heffect.1 heffect.2
  | editGroupMessage limit now senderUserId groupId messageId dto job later ranAt =>
      exact ⟨fun _ hnone => hnone, fun _ => fanout_notifies h heffect⟩

theorem direct_edit_announced :
    Notifies (editDb (edited 500 "edit-key-0" unedited)) (.edit {} 1000 "alice" "m1" editDto) := by
  have haddressed : Addressed (editDb (edited 500 "edit-key-0" unedited)) := by
    refine ⟨by decide, ?_, fun g hg => by cases hg⟩
    intro m hm
    rw [List.mem_singleton.mp hm]
    exact .inl ⟨"t1", by decide, rfl, rfl⟩
  apply (edits_announced_iff haddressed (.edit {} 1000 "alice" "m1" editDto) ⟨by rfl, by decide⟩).mpr
  intro h
  obtain ⟨⟨m, hm, _, hgroup⟩, _⟩ := h
  rw [List.mem_singleton.mp hm] at hgroup
  exact hgroup rfl

/-- The same message, sent to a group and edited before. -/
def groupMessage : Message :=
  { edited 500 "edit-key-0" unedited with threadId := none, groupId := some "g1" }

def groupEditDb : Db :=
  { editDb groupMessage with groupMembers := [{ groupId := "g1", userId := "alice" }] }

/-- The device of a group member gets the new ciphertext in its envelope, and is told of an edit
of no message. -/
theorem group_edit_unnamed :
    Addressed groupEditDb ∧ TakesEffect groupEditDb (.edit {} 1000 "alice" "m1" editDto) ∧
    ((editEvents {} 1000 "alice" "m1" editDto groupEditDb).flatMap handle).map
      (fun m => (m.deviceId, m.messageId, m.message.id, m.ciphertext)) = [("d2", none, none, "new")] ∧
    ¬ Notifies groupEditDb (.edit {} 1000 "alice" "m1" editDto) := by
  have haddressed : Addressed groupEditDb := by
    refine ⟨by decide, ?_, ?_⟩
    · intro m hm
      rw [List.mem_singleton.mp hm]
      exact .inr ⟨"g1", by decide, rfl⟩
    · intro g hg
      rw [List.mem_singleton.mp hg]
      decide
  have hcheck : editChecks {} 1000 "alice" "m1" editDto groupEditDb = .ok () := by rfl
  have hclaim : (claimEdit 1000 "m1" editDto.idempotencyKey groupEditDb).1 ≠ 0 := by decide
  refine ⟨haddressed, ⟨hcheck, hclaim⟩, by rfl, ?_⟩
  intro hnotifies
  apply (edit_notifies_iff haddressed hcheck hclaim).mp hnotifies
  exact ⟨⟨groupMessage, List.mem_singleton_self _, rfl, Option.some_ne_none _⟩,
    _, List.mem_singleton_self _, rfl, _, List.mem_singleton_self _, rfl⟩

end Birgap.Realtime.EditEvents
