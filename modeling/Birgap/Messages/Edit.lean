import Birgap.Messages.Direct

/-!
# Editing a message

`MessagesService.edit` and `GroupsService.editGroupMessage`. Both claim the edit with one
conditional update on `lastEditIdempotencyKey` and read the number of rows it wrote. The
condition is the SQL comparison `<>`, which a NULL column does not satisfy, so an edit
takes effect exactly when the message has been edited before.
-/
namespace Birgap.Messages

set_option autoImplicit false

open Birgap.Lib Birgap.Lib.Tx

/-- The filter `{ not: v }` on a nullable column, `column <> v` in SQL. -/
def sqlNe {α : Type} [DecidableEq α] (column : Option α) (v : α) : Bool :=
  match column with
  | none => false
  | some c => c != v

/-- `ENABLE_MESSAGE_EDIT_DELETE_LIMIT` and `MESSAGE_EDIT_DELETE_LIMIT_HOURS`. -/
structure EditLimit where
  enabled : Bool := true
  hours : Nat := 48

structure EditMessageEnvelopeDto where
  recipientDeviceId : Id
  ciphertext : Ciphertext

structure EditMessageDto where
  senderDeviceId : Id
  idempotencyKey : String
  envelopes : List EditMessageEnvelopeDto

structure EditGroupMessageDto where
  senderDeviceId : Id
  idempotencyKey : String
  ciphertext : Ciphertext

structure GroupEditFanoutJobData where
  messageId : Id
  groupId : Id
  senderUserId : Id
  senderDeviceId : Id
  ciphertext : Ciphertext
  editedAt : Time
  deriving DecidableEq

structure GroupEditAnswer where
  messageId : Id
  queued : Bool
  deriving DecidableEq

def isMember (groupId userId : Id) (db : Db) : Bool :=
  db.groupMembers.any fun g => g.groupId == groupId && g.userId == userId

def assertActiveDevice (userId deviceId : Id) (db : Db) : Except Err Unit :=
  ensure (db.devices.any fun d => d.id == deviceId && d.userId == userId && d.active)
    (.forbidden "Device is not active for this user")

/-- Whether a user takes part in the conversation of a message. -/
def hasAccess (userId : Id) (m : Message) (db : Db) : Except Err Unit :=
  match m.threadId, m.groupId with
  | some threadId, _ =>
      ensure ((db.directThreads.find? (·.id == threadId)).any fun t =>
          t.userAId == userId || t.userBId == userId)
        (.forbidden "Not a participant in this thread")
  | none, some groupId =>
      ensure (isMember groupId userId db) (.forbidden "Not a member of this group")
  | none, none => .ok ()

def assertMessageAccess (userId messageId : Id) (db : Db) : Except Err Message :=
  match db.messages.find? (·.id == messageId) with
  | none => .error (.notFound "Message not found")
  | some m => do
      hasAccess userId m db
      pure m

/-- The checks both services make on the message itself, in their order. -/
def assertEditable (limit : EditLimit) (now : Time) (userId : Id) (m : Message) :
    Except Err Unit := do
  ensure (m.senderUserId == userId) (.forbidden "Only the sender can edit a message")
  ensure m.deletedAt.isNone (.forbidden "Cannot edit a deleted message")
  ensure (!limit.enabled || decide (now - m.createdAt ≤ limit.hours * 60 * 60 * 1000))
    (.forbidden ("Edit is only allowed within " ++ toString limit.hours ++ " hours"))

def editChecks (limit : EditLimit) (now : Time) (userId messageId : Id) (dto : EditMessageDto)
    (db : Db) : Except Err Unit := do
  assertActiveDevice userId dto.senderDeviceId db
  let message ← assertMessageAccess userId messageId db
  assertEditable limit now userId message

def editGroupChecks (limit : EditLimit) (now : Time) (senderUserId groupId messageId : Id)
    (db : Db) : Except Err Unit := do
  ensure (isMember groupId senderUserId db) (.forbidden "You are not a member of this group")
  match db.messages.find? (·.id == messageId) with
  | none => .error (.notFound "Message not found")
  | some message =>
      ensure (message.groupId == some groupId) (.badRequest "Message is not in this group")
      assertEditable limit now senderUserId message

/-- The stored row of a message as an edit leaves it. -/
def edited (now : Time) (idempotencyKey : String) (m : Message) : Message :=
  { m with editedAt := some now, lastEditIdempotencyKey := some idempotencyKey }

/-- The conditional update that claims an edit, with the number of rows it wrote. -/
def claimEdit (now : Time) (messageId : Id) (idempotencyKey : String) (db : Db) : Nat × Db :=
  let p := fun m : Message => m.id == messageId && sqlNe m.lastEditIdempotencyKey idempotencyKey
  (db.messages.countP p,
    { db with messages := Rows.updateMany p (edited now idempotencyKey) db.messages })

/-- The update of the envelopes of one device. -/
def refreshEnvelope (now : Time) (messageId : Id) (x : EditMessageEnvelopeDto)
    (rows : List MessageEnvelope) : List MessageEnvelope :=
  Rows.updateMany (fun e => e.messageId == messageId && e.recipientDeviceId == x.recipientDeviceId)
    (fun e => { e with
      ciphertext := x.ciphertext, envelopeVersion := e.envelopeVersion + 1, updatedAt := now })
    rows

/-- The loop of `edit` over the envelopes of the request. -/
def refreshEnvelopes (now : Time) (messageId : Id) (envelopes : List EditMessageEnvelopeDto)
    (db : Db) : Db :=
  { db with
    messageEnvelopes :=
      envelopes.foldl (fun rows x => refreshEnvelope now messageId x rows) db.messageEnvelopes }

/-- `MessagesService.edit`. -/
def edit (limit : EditLimit) (now : Time) (userId messageId : Id) (dto : EditMessageDto) (db : Db) :
    Except Err Serialized × Db :=
  match editChecks limit now userId messageId dto db with
  | .error e => (.error e, db)
  | .ok () =>
      let (count, db) := claimEdit now messageId dto.idempotencyKey db
      if count = 0 then
        match db.messages.find? (·.id == messageId) with
        | none => (.error (.notFound "Message not found"), db)
        | some existing =>
            (.ok { message := existing
                   envelopes := db.messageEnvelopes.filter (·.messageId == messageId)
                   media := [] }, db)
      else
        let db := refreshEnvelopes now messageId dto.envelopes db
        match db.messages.find? (·.id == messageId) with
        | none => (.error (.notFound "Message not found after edit"), db)
        | some updated =>
            (.ok { message := updated
                   envelopes := db.messageEnvelopes.filter fun e => e.messageId == messageId &&
                     (dto.envelopes.map (·.recipientDeviceId)).contains e.recipientDeviceId
                   media := [] }, db)

/-- `GroupsService.editGroupMessage`; `addFails` says that the queue refuses the job. -/
def editGroupMessage (limit : EditLimit) (now : Time) (addFails : Bool)
    (senderUserId groupId messageId : Id) (dto : EditGroupMessageDto) (db : Db)
    (jobs : List GroupEditFanoutJobData) :
    Except Err GroupEditAnswer × Db × List GroupEditFanoutJobData :=
  match editGroupChecks limit now senderUserId groupId messageId db with
  | .error e => (.error e, db, jobs)
  | .ok () =>
      let (count, db) := claimEdit now messageId dto.idempotencyKey db
      match db.messages.find? (·.id == messageId) with
      | none =>
          (.error (.notFound (if count = 0 then "Message not found"
            else "Message not found after edit")), db, jobs)
      | some row =>
          if count = 0 then (.ok { messageId := row.id, queued := false }, db, jobs)
          else
            match row.editedAt with
            | none => (.error (.failure "Cannot read properties of null"), db, jobs)
            | some editedAt =>
                if addFails then (.error (.failure "Queue is not available"), db, jobs)
                else
                  (.ok { messageId := row.id, queued := true }, db, jobs ++
                    [{ messageId := row.id, groupId, senderUserId
                       senderDeviceId := dto.senderDeviceId, ciphertext := dto.ciphertext
                       editedAt }])

/-- A message never edited is not claimed: no row compares as different from NULL. -/
theorem claimEdit_null {now : Time} {key : String} {db : Db} {m : Message}
    (hu : Rows.Unique (·.id) db.messages) (hm : m ∈ db.messages)
    (hnull : m.lastEditIdempotencyKey = none) : claimEdit now m.id key db = (0, db) := by
  have hno : ∀ r ∈ db.messages, (r.id == m.id && sqlNe r.lastEditIdempotencyKey key) = false := by
    intro r hr
    rw [Bool.and_eq_false_iff]
    by_cases hid : r.id = m.id
    · rw [hu.eq hr hm hid, hnull]
      exact Or.inr rfl
    · exact Or.inl (by simpa using hid)
  unfold claimEdit
  simp only
  rw [Rows.updateMany_eq_self hno, List.countP_eq_zero.mpr (fun r hr => by simp [hno r hr])]

/-- A message edited before under another key is claimed, and its row rewritten. -/
theorem claimEdit_keyed {now : Time} {key old : String} {db : Db} {m : Message}
    (hm : m ∈ db.messages) (hold : m.lastEditIdempotencyKey = some old) (hne : old ≠ key) :
    (claimEdit now m.id key db).1 ≠ 0 ∧ edited now key m ∈ (claimEdit now m.id key db).2.messages := by
  have hp : (m.id == m.id && sqlNe m.lastEditIdempotencyKey key) = true := by
    simp [hold, sqlNe, hne]
  constructor
  · exact (List.countP_pos_iff.mpr ⟨m, hm, hp⟩).ne'
  · refine Rows.mem_updateMany.mpr ⟨m, hm, ?_⟩
    rw [if_pos hp]

theorem claimEdit_unique {now : Time} {key : String} {id : Id} {db : Db}
    (hu : Rows.Unique (·.id) db.messages) :
    Rows.Unique (·.id) (claimEdit now id key db).2.messages :=
  Rows.unique_updateMany (f := edited now key) (fun _ => rfl) hu

/-- What the loop does to one row. -/
def refreshRow (now : Time) (messageId : Id) (envelopes : List EditMessageEnvelopeDto)
    (e : MessageEnvelope) : MessageEnvelope :=
  envelopes.foldl (fun e x =>
    if e.messageId == messageId && e.recipientDeviceId == x.recipientDeviceId then
      { e with ciphertext := x.ciphertext, envelopeVersion := e.envelopeVersion + 1, updatedAt := now }
    else e) e

/-- The loop over the table works row by row. -/
theorem refreshEnvelopes_eq (now : Time) (messageId : Id) (envelopes : List EditMessageEnvelopeDto)
    (db : Db) :
    (refreshEnvelopes now messageId envelopes db).messageEnvelopes =
      db.messageEnvelopes.map (refreshRow now messageId envelopes) := by
  show envelopes.foldl _ db.messageEnvelopes = _
  generalize db.messageEnvelopes = rows
  induction envelopes generalizing rows with
  | nil => exact (List.map_id rows).symm
  | cons x envelopes ih =>
      rw [List.foldl_cons, ih, refreshEnvelope, Rows.updateMany, List.map_map]
      rfl

/-- A row no request names stays as it is. -/
theorem refreshRow_unnamed {now : Time} {messageId : Id}
    {envelopes : List EditMessageEnvelopeDto} {e : MessageEnvelope}
    (h : envelopes.filter (·.recipientDeviceId == e.recipientDeviceId) = []) :
    refreshRow now messageId envelopes e = e := by
  induction envelopes with
  | nil => rfl
  | cons x envelopes ih =>
      rw [List.filter_eq_nil_iff] at h
      have hx : ¬ (x.recipientDeviceId == e.recipientDeviceId) = true :=
        h x List.mem_cons_self
      have hrest : envelopes.filter (·.recipientDeviceId == e.recipientDeviceId) = [] :=
        List.filter_eq_nil_iff.mpr fun y hy => h y (List.mem_cons_of_mem _ hy)
      rw [refreshRow, List.foldl_cons, if_neg ?_]
      · exact ih hrest
      · intro hc
        apply hx
        simp only [Bool.and_eq_true, beq_iff_eq] at hc ⊢
        exact hc.2.symm

/-- A row named once gets the ciphertext and one version more. -/
theorem refreshRow_named {now : Time} {envelopes : List EditMessageEnvelopeDto}
    {e : MessageEnvelope} {x : EditMessageEnvelopeDto}
    (h : envelopes.filter (·.recipientDeviceId == e.recipientDeviceId) = [x]) :
    refreshRow now e.messageId envelopes e =
      { e with ciphertext := x.ciphertext, envelopeVersion := e.envelopeVersion + 1
               updatedAt := now } := by
  induction envelopes with
  | nil => cases h
  | cons y envelopes ih =>
      rw [refreshRow, List.foldl_cons]
      by_cases hy : y.recipientDeviceId = e.recipientDeviceId
      · rw [List.filter_cons_of_pos (by simpa using hy), List.cons.injEq] at h
        obtain ⟨rfl, hrest⟩ := h
        rw [if_pos (by simp [hy])]
        exact refreshRow_unnamed hrest
      · rw [List.filter_cons_of_neg (by simpa using hy)] at h
        rw [if_neg (by simpa using fun hc => hy hc.symm)]
        exact ih h

/-- The sender, the deletion mark and the time limit allow an edit. -/
structure Editable (limit : EditLimit) (now : Time) (userId : Id) (m : Message) : Prop where
  sender : m.senderUserId = userId
  notDeleted : m.deletedAt = none
  inTime : limit.enabled = true → now - m.createdAt ≤ limit.hours * 60 * 60 * 1000

/-- What `edit` asks of its caller: an active device of theirs, and a message of a
conversation they take part in that they may edit. -/
structure MayEdit (limit : EditLimit) (now : Time) (userId deviceId : Id) (m : Message) (db : Db) :
    Prop extends Editable limit now userId m where
  device : ∃ d ∈ db.devices, d.id = deviceId ∧ d.userId = userId ∧ d.active = true
  access : hasAccess userId m db = .ok ()

structure MayEditGroup (limit : EditLimit) (now : Time) (userId groupId : Id) (m : Message)
    (db : Db) : Prop extends Editable limit now userId m where
  member : ∃ g ∈ db.groupMembers, g.groupId = groupId ∧ g.userId = userId
  inGroup : m.groupId = some groupId

theorem assertEditable_ok {limit : EditLimit} {now : Time} {userId : Id} {m : Message}
    (h : Editable limit now userId m) : assertEditable limit now userId m = .ok () := by
  have ht : (!limit.enabled || decide (now - m.createdAt ≤ limit.hours * 60 * 60 * 1000)) = true := by
    cases he : limit.enabled with
    | false => rfl
    | true => simpa using h.inTime he
  unfold assertEditable
  rw [bind_ok]
  refine ⟨(), ensure_ok.mpr (by simpa using h.sender), ?_⟩
  rw [bind_ok]
  exact ⟨(), ensure_ok.mpr (by simp [h.notDeleted]), ensure_ok.mpr ht⟩

theorem editChecks_ok {limit : EditLimit} {now : Time} {userId : Id} {m : Message}
    {dto : EditMessageDto} {db : Db} (hu : Rows.Unique (·.id) db.messages) (hm : m ∈ db.messages)
    (h : MayEdit limit now userId dto.senderDeviceId m db) :
    editChecks limit now userId m.id dto db = .ok () := by
  have hdev : assertActiveDevice userId dto.senderDeviceId db = .ok () := by
    obtain ⟨d, hd, hid, huser, hact⟩ := h.device
    exact ensure_ok.mpr (List.any_eq_true.mpr ⟨d, hd, by simp [hid, huser, hact]⟩)
  have hacc : assertMessageAccess userId m.id db = .ok m := by
    unfold assertMessageAccess
    rw [hu.find?_eq hm]
    exact bind_ok.mpr ⟨(), h.access, rfl⟩
  unfold editChecks
  rw [bind_ok]
  refine ⟨(), hdev, ?_⟩
  rw [bind_ok]
  exact ⟨m, hacc, assertEditable_ok h.toEditable⟩

theorem editGroupChecks_ok {limit : EditLimit} {now : Time} {userId groupId : Id} {m : Message}
    {db : Db} (hu : Rows.Unique (·.id) db.messages) (hm : m ∈ db.messages)
    (h : MayEditGroup limit now userId groupId m db) :
    editGroupChecks limit now userId groupId m.id db = .ok () := by
  have hmem : isMember groupId userId db = true := by
    obtain ⟨g, hg, hid, huser⟩ := h.member
    exact List.any_eq_true.mpr ⟨g, hg, by simp [hid, huser]⟩
  unfold editGroupChecks
  rw [bind_ok]
  refine ⟨(), ensure_ok.mpr hmem, ?_⟩
  rw [hu.find?_eq hm]
  exact bind_ok.mpr ⟨(), ensure_ok.mpr (by simp [h.inGroup]), assertEditable_ok h.toEditable⟩

/-- The message carries the edit, and every envelope of it that the request names once
holds the new ciphertext, one version up. -/
def EditTookEffect (now : Time) (m : Message) (dto : EditMessageDto) (db db' : Db) : Prop :=
  (∃ m' ∈ db'.messages, m'.id = m.id ∧ m'.editedAt = some now ∧
    m'.lastEditIdempotencyKey = some dto.idempotencyKey) ∧
  ∀ e ∈ db.messageEnvelopes, e.messageId = m.id →
    ∀ x, dto.envelopes.filter (·.recipientDeviceId == e.recipientDeviceId) = [x] →
      { e with ciphertext := x.ciphertext, envelopeVersion := e.envelopeVersion + 1
               updatedAt := now } ∈ db'.messageEnvelopes

/-- The message carries the edit, and one job with the new ciphertext was added. -/
def GroupEditTookEffect (now : Time) (m : Message) (dto : EditGroupMessageDto)
    (jobs : List GroupEditFanoutJobData) (db' : Db) (jobs' : List GroupEditFanoutJobData) : Prop :=
  (∃ m' ∈ db'.messages, m'.id = m.id ∧ m'.editedAt = some now ∧
    m'.lastEditIdempotencyKey = some dto.idempotencyKey) ∧
  ∃ job, jobs' = jobs ++ [job] ∧ job.messageId = m.id ∧ job.ciphertext = dto.ciphertext

section

variable {limit : EditLimit} {now : Time} {userId : Id} {m : Message} {db : Db}

/-- An edit of a message never edited answers normally and writes nothing. -/
theorem edit_null {dto : EditMessageDto} (hu : Rows.Unique (·.id) db.messages)
    (hm : m ∈ db.messages) (h : MayEdit limit now userId dto.senderDeviceId m db)
    (hnull : m.lastEditIdempotencyKey = none) :
    (∃ r, (edit limit now userId m.id dto db).1 = .ok r) ∧
      (edit limit now userId m.id dto db).2 = db := by
  unfold edit
  rw [editChecks_ok hu hm h]
  simp only [claimEdit_null hu hm hnull, if_true, hu.find?_eq hm]
  exact ⟨⟨_, rfl⟩, trivial⟩

theorem edit_keyed {dto : EditMessageDto} {old : String} (hu : Rows.Unique (·.id) db.messages)
    (hm : m ∈ db.messages) (h : MayEdit limit now userId dto.senderDeviceId m db)
    (hold : m.lastEditIdempotencyKey = some old) (hne : old ≠ dto.idempotencyKey) :
    (∃ r, (edit limit now userId m.id dto db).1 = .ok r) ∧
      EditTookEffect now m dto db (edit limit now userId m.id dto db).2 := by
  obtain ⟨hcount, hrow⟩ := claimEdit_keyed hm hold hne
  have hfind : (refreshEnvelopes now m.id dto.envelopes
      (claimEdit now m.id dto.idempotencyKey db).2).messages.find? (·.id == m.id) =
        some (edited now dto.idempotencyKey m) :=
    (claimEdit_unique hu).find?_eq hrow
  unfold edit
  rw [editChecks_ok hu hm h]
  simp only [if_neg hcount, hfind]
  refine ⟨⟨_, rfl⟩, ⟨_, hrow, rfl, rfl, rfl⟩, ?_⟩
  intro e he hid x hx
  rw [refreshEnvelopes_eq, ← hid, ← refreshRow_named hx]
  exact List.mem_map_of_mem he

theorem editGroupMessage_null {addFails : Bool} {groupId : Id} {dto : EditGroupMessageDto}
    {jobs : List GroupEditFanoutJobData} (hu : Rows.Unique (·.id) db.messages)
    (hm : m ∈ db.messages) (h : MayEditGroup limit now userId groupId m db)
    (hnull : m.lastEditIdempotencyKey = none) :
    editGroupMessage limit now addFails userId groupId m.id dto db jobs =
      (.ok { messageId := m.id, queued := false }, db, jobs) := by
  unfold editGroupMessage
  rw [editGroupChecks_ok hu hm h]
  simp only [claimEdit_null hu hm hnull, if_true, hu.find?_eq hm]

theorem editGroupMessage_keyed {addFails : Bool} {groupId : Id} {dto : EditGroupMessageDto}
    {jobs : List GroupEditFanoutJobData} {old : String} (hu : Rows.Unique (·.id) db.messages)
    (hm : m ∈ db.messages) (h : MayEditGroup limit now userId groupId m db)
    (hold : m.lastEditIdempotencyKey = some old) (hne : old ≠ dto.idempotencyKey) :
    editGroupMessage limit now addFails userId groupId m.id dto db jobs =
      if addFails then
        (.error (.failure "Queue is not available"),
          (claimEdit now m.id dto.idempotencyKey db).2, jobs)
      else
        (.ok { messageId := m.id, queued := true },
          (claimEdit now m.id dto.idempotencyKey db).2,
          jobs ++ [{ messageId := m.id, groupId, senderUserId := userId
                     senderDeviceId := dto.senderDeviceId, ciphertext := dto.ciphertext
                     editedAt := now }]) := by
  obtain ⟨hcount, hrow⟩ := claimEdit_keyed hm hold hne
  have hfind : (claimEdit now m.id dto.idempotencyKey db).2.messages.find? (·.id == m.id) =
      some (edited now dto.idempotencyKey m) :=
    (claimEdit_unique hu).find?_eq hrow
  unfold editGroupMessage
  rw [editGroupChecks_ok hu hm h]
  simp only [if_neg hcount, hfind, edited]

/-- The unedited row cannot carry the key of an edit. -/
theorem not_edited_of_null {key : String} (hu : Rows.Unique (·.id) db.messages)
    (hm : m ∈ db.messages) (hnull : m.lastEditIdempotencyKey = none) :
    ¬ ∃ m' ∈ db.messages, m'.id = m.id ∧ m'.editedAt = some now ∧
      m'.lastEditIdempotencyKey = some key := by
  rintro ⟨m', hm', hid, _, hkey⟩
  rw [hu.eq hm' hm hid, hnull] at hkey
  cases hkey

end

/-- For a caller who may edit a message, under a key other than the stored one: `edit`
returns, and takes effect if and only if the stored key is not NULL; a normal return of
`editGroupMessage` implies its effect under the same condition, and a queue that accepts
the job lets it return. -/
theorem edit_takesEffect_iff (limit : EditLimit) (now : Time) (db : Db)
    (hu : Rows.Unique (·.id) db.messages) (m : Message) (hm : m ∈ db.messages) (userId : Id) :
    (∀ dto : EditMessageDto, MayEdit limit now userId dto.senderDeviceId m db →
      m.lastEditIdempotencyKey ≠ some dto.idempotencyKey →
      (∃ r, (edit limit now userId m.id dto db).1 = .ok r) ∧
      (EditTookEffect now m dto db (edit limit now userId m.id dto db).2 ↔
        m.lastEditIdempotencyKey ≠ none)) ∧
    (∀ (dto : EditGroupMessageDto) (groupId : Id) (addFails : Bool)
      (jobs : List GroupEditFanoutJobData), MayEditGroup limit now userId groupId m db →
      m.lastEditIdempotencyKey ≠ some dto.idempotencyKey →
      (addFails = false →
        ∃ a, (editGroupMessage limit now addFails userId groupId m.id dto db jobs).1 = .ok a) ∧
      ((∀ a db' jobs', editGroupMessage limit now addFails userId groupId m.id dto db jobs =
          (.ok a, db', jobs') → GroupEditTookEffect now m dto jobs db' jobs') ↔
        m.lastEditIdempotencyKey ≠ none)) := by
  constructor
  · intro dto h hkey
    cases hold : m.lastEditIdempotencyKey with
    | none =>
        obtain ⟨hret, hdb⟩ := edit_null hu hm h hold
        refine ⟨hret, ?_⟩
        rw [hdb]
        exact ⟨fun he => absurd he.1 (not_edited_of_null hu hm hold), fun hn => absurd rfl hn⟩
    | some old =>
        have hne : old ≠ dto.idempotencyKey := by
          rintro rfl
          exact hkey hold
        obtain ⟨hret, heffect⟩ := edit_keyed hu hm h hold hne
        exact ⟨hret, fun _ => Option.some_ne_none _, fun _ => heffect⟩
  · intro dto groupId addFails jobs h hkey
    cases hold : m.lastEditIdempotencyKey with
    | none =>
        rw [editGroupMessage_null hu hm h hold]
        refine ⟨fun _ => ⟨_, rfl⟩, ?_, fun hn => absurd rfl hn⟩
        intro he
        exact absurd (he _ _ _ rfl).1 (not_edited_of_null hu hm hold)
    | some old =>
        have hne : old ≠ dto.idempotencyKey := by
          rintro rfl
          exact hkey hold
        rw [editGroupMessage_keyed hu hm h hold hne]
        cases addFails with
        | true =>
            refine ⟨fun hf => absurd hf (by decide), fun _ => Option.some_ne_none _, ?_⟩
            intro _ a db' jobs' he
            cases (Prod.mk.inj he).1
        | false =>
            refine ⟨fun _ => ⟨_, rfl⟩, fun _ => Option.some_ne_none _, ?_⟩
            intro _ a db' jobs' he
            obtain ⟨_, hrest⟩ := Prod.mk.inj he
            obtain ⟨rfl, rfl⟩ := Prod.mk.inj hrest
            obtain ⟨_, hrow⟩ := claimEdit_keyed hm hold hne
            exact ⟨⟨_, hrow, rfl, rfl, rfl⟩, _, rfl, rfl, rfl⟩

/-- Alice's message to Bob, not edited so far. -/
def unedited : Message :=
  { id := "m1", threadId := some "t1", senderUserId := "alice", senderDeviceId := "d1"
    idempotencyKey := "send-key-1", threadSequence := 1, createdAt := 0 }

def editDb (m : Message) : Db :=
  { devices := [{ id := "d1", userId := "alice", platform := .ios, identityPublicKey := "k"
                  createdAt := 0 }]
    directThreads := [{ id := "t1", userAId := "alice", userBId := "bob", latestSequence := 1 }]
    messages := [m]
    messageEnvelopes := [{ id := "e1", messageId := "m1", recipientUserId := "bob"
                           recipientDeviceId := "d2", ciphertext := "old", createdAt := 0
                           updatedAt := 0 }] }

def editDto : EditMessageDto :=
  { senderDeviceId := "d1", idempotencyKey := "edit-key-1", envelopes := [⟨"d2", "new"⟩] }

theorem mayEdit_sample (m : Message) (hs : m.senderUserId = "alice") (hd : m.deletedAt = none)
    (ht : m.threadId = some "t1") (hc : m.createdAt = 0) :
    MayEdit {} 1000 "alice" "d1" m (editDb m) := by
  refine ⟨⟨hs, hd, ?_⟩, ⟨_, List.mem_singleton_self _, rfl, rfl, rfl⟩, ?_⟩
  · intro _
    rw [hc]
    decide
  · unfold hasAccess
    rw [ht]
    rfl

/-- The first edit of a message answers normally and changes nothing. -/
theorem first_edit_lost :
    MayEdit {} 1000 "alice" "d1" unedited (editDb unedited) ∧
    unedited.lastEditIdempotencyKey ≠ some editDto.idempotencyKey ∧
    (∃ r, (edit {} 1000 "alice" "m1" editDto (editDb unedited)).1 = .ok r) ∧
    ¬ EditTookEffect 1000 unedited editDto (editDb unedited)
      (edit {} 1000 "alice" "m1" editDto (editDb unedited)).2 := by
  have hu : Rows.Unique (·.id) (editDb unedited).messages := by decide
  have hmem : unedited ∈ (editDb unedited).messages := List.mem_singleton_self _
  have hmay : MayEdit {} 1000 "alice" editDto.senderDeviceId unedited (editDb unedited) :=
    mayEdit_sample unedited rfl rfl rfl rfl
  obtain ⟨hret, hdb⟩ := edit_null hu hmem hmay rfl
  refine ⟨hmay, by decide, hret, ?_⟩
  intro he
  exact not_edited_of_null hu hmem rfl (hdb ▸ he.1)

/-- The second edit takes effect. -/
theorem second_edit_takesEffect :
    EditTookEffect 1000 (edited 500 "edit-key-0" unedited) editDto
      (editDb (edited 500 "edit-key-0" unedited))
      (edit {} 1000 "alice" "m1" editDto (editDb (edited 500 "edit-key-0" unedited))).2 :=
  ((edit_takesEffect_iff {} 1000 (editDb (edited 500 "edit-key-0" unedited)) (by decide)
    (edited 500 "edit-key-0" unedited) (List.mem_singleton_self _) "alice").1 editDto
      (mayEdit_sample _ rfl rfl rfl rfl) (by decide)).2.mpr (by decide)

end Birgap.Messages
