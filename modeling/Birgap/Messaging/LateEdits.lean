import Birgap.Messaging.Tombstones

/-!
# Edits that arrive after a deletion

Edits of both services, the executions of edit-fanout jobs, and the three operations that
delete a message for everyone, by any number of calls at once. What an operation checks and
what it writes are separate steps, and a job may be executed at any time after it was added.
An edit looks for the deletion mark in its checks and never again.
-/
namespace Birgap.Messaging.LateEdits

set_option autoImplicit false

open Birgap.Lib Birgap.Lib.Run Birgap.Lib.Tx Birgap.Messages Birgap.Groups Birgap.Moderation
open Birgap.Messaging.Tombstones (tombstoneTx_messages suspendTx_messages)

/-- How far a call in flight has come: past its checks, past the update that claims an edit,
or inside the loop of a job. -/
inductive Flight where
  | idle
  | editing (messageId : Id) (dto : EditMessageDto)
  | refreshing (messageId : Id) (rest : List EditMessageEnvelopeDto)
  | editingGroup (senderUserId groupId messageId : Id) (dto : EditGroupMessageDto)
  | enqueueing (senderUserId groupId messageId : Id) (dto : EditGroupMessageDto)
  | fanningOut (job : GroupEditFanoutJobData) (rest : List (List Id))
  | deleting (userId messageId : Id) (deletedBy : DeletedBy)
  | tombstoning (actorUserId messageId : Id) (dto : TombstoneMessageDto)
  | suspending (actorUserId targetUserId : Id) (dto : SuspendUserDto)

/-- The store, the calls, and every job added to the edit-fanout queue. -/
structure State where
  db : Db
  flights : Nat → Flight
  jobs : List GroupEditFanoutJobData

/-- One step of the call with number `pid`. -/
inductive Act where
  | editRead (pid : Nat) (limit : EditLimit) (now : Time) (userId messageId : Id)
      (dto : EditMessageDto)
  | editClaim (pid : Nat) (now : Time)
  | editRefresh (pid : Nat) (now : Time)
  | editGroupRead (pid : Nat) (limit : EditLimit) (now : Time) (senderUserId groupId messageId : Id)
      (dto : EditGroupMessageDto)
  | editGroupClaim (pid : Nat) (now : Time)
  | editGroupEnqueue (pid : Nat)
  | jobStart (pid index : Nat)
  | jobChunk (pid : Nat) (now : Time)
  | deleteRead (pid : Nat) (limit : EditLimit) (now : Time) (userId messageId : Id)
      (dto : DeleteMessageDto)
  | deleteCommit (pid : Nat) (now : Time)
  | tombstoneRead (pid : Nat) (actorUserId : Id) (actorRole : UserRole) (messageId : Id)
      (dto : TombstoneMessageDto)
  | tombstoneCommit (pid : Nat) (now : Time)
  | suspendRead (pid : Nat) (now : Time) (actorUserId : Id) (actorRole : UserRole)
      (targetUserId : Id) (dto : SuspendUserDto)
  | suspendCommit (pid : Nat) (now : Time) (suspensionId : Id)
  | fail (pid : Nat)

def State.set (s : State) (pid : Nat) (f : Flight) (db : Db) : State :=
  { s with db := db, flights := Function.update s.flights pid f }

/-- The checks of a deletion for everyone, with who deletes. -/
def deleteChecks (limit : EditLimit) (now : Time) (userId messageId : Id) (dto : DeleteMessageDto)
    (db : Db) : Except Err DeletedBy := do
  let message ← deleteAccess userId messageId dto db
  assertDeletable limit now userId message db

/-- The job of a claimed edit, made of the row as it is read again; a row without an
`editedAt` throws. -/
def editJob (senderUserId groupId messageId : Id) (dto : EditGroupMessageDto) (db : Db) :
    Option GroupEditFanoutJobData := do
  let row ← db.messages.find? (·.id == messageId)
  let editedAt ← row.editedAt
  some { messageId := row.id, groupId, senderUserId, senderDeviceId := dto.senderDeviceId
         ciphertext := dto.ciphertext, editedAt }

def step (s : State) : Act → State
  | .editRead pid limit now userId messageId dto =>
      match s.flights pid, editChecks limit now userId messageId dto s.db with
      | .idle, .ok () => s.set pid (.editing messageId dto) s.db
      | _, _ => s
  | .editClaim pid now =>
      match s.flights pid with
      | .editing messageId dto =>
          let (count, db) := claimEdit now messageId dto.idempotencyKey s.db
          s.set pid (if count = 0 then .idle else .refreshing messageId dto.envelopes) db
      | _ => s
  | .editRefresh pid now =>
      match s.flights pid with
      | .refreshing messageId (x :: rest) =>
          s.set pid (.refreshing messageId rest)
            { s.db with
              messageEnvelopes := refreshEnvelope now messageId x s.db.messageEnvelopes }
      | .refreshing _ [] => s.set pid .idle s.db
      | _ => s
  | .editGroupRead pid limit now senderUserId groupId messageId dto =>
      match s.flights pid, editGroupChecks limit now senderUserId groupId messageId s.db with
      | .idle, .ok () => s.set pid (.editingGroup senderUserId groupId messageId dto) s.db
      | _, _ => s
  | .editGroupClaim pid now =>
      match s.flights pid with
      | .editingGroup senderUserId groupId messageId dto =>
          let (count, db) := claimEdit now messageId dto.idempotencyKey s.db
          s.set pid (if count = 0 then .idle else .enqueueing senderUserId groupId messageId dto) db
      | _ => s
  | .editGroupEnqueue pid =>
      match s.flights pid with
      | .enqueueing senderUserId groupId messageId dto =>
          { s.set pid .idle s.db with
            jobs := s.jobs ++ (editJob senderUserId groupId messageId dto s.db).toList }
      | _ => s
  | .jobStart pid index =>
      match s.flights pid, s.jobs[index]? with
      | .idle, some job =>
          s.set pid (.fanningOut job (editChunks job.groupId job.senderDeviceId s.db)) s.db
      | _, _ => s
  | .jobChunk pid now =>
      match s.flights pid with
      | .fanningOut job (chunk :: rest) =>
          s.set pid (.fanningOut job rest)
            { s.db with
              messageEnvelopes :=
                updateChunk now job.messageId job.ciphertext chunk s.db.messageEnvelopes }
      | .fanningOut _ [] => s.set pid .idle s.db
      | _ => s
  | .deleteRead pid limit now userId messageId dto =>
      match s.flights pid, dto.scope, deleteChecks limit now userId messageId dto s.db with
      | .idle, .forEveryone, .ok deletedBy => s.set pid (.deleting userId messageId deletedBy) s.db
      | _, _, _ => s
  | .deleteCommit pid now =>
      match s.flights pid with
      | .deleting userId messageId deletedBy =>
          match deleteTx now userId messageId deletedBy s.db with
          | .ok (_, db) => s.set pid .idle db
          | .error _ => s.set pid .idle s.db
      | _ => s
  | .tombstoneRead pid actor role messageId dto =>
      match s.flights pid, tombstoneCheck role messageId s.db with
      | .idle, .ok _ => s.set pid (.tombstoning actor messageId dto) s.db
      | _, _ => s
  | .tombstoneCommit pid now =>
      match s.flights pid with
      | .tombstoning actor messageId dto =>
          match tombstoneTx now actor messageId dto s.db with
          | .ok db => s.set pid .idle db
          | .error _ => s.set pid .idle s.db
      | _ => s
  | .suspendRead pid now actor role target dto =>
      match s.flights pid, suspendCheck now actor role target dto s.db with
      | .idle, .ok () => s.set pid (.suspending actor target dto) s.db
      | _, _ => s
  | .suspendCommit pid now sid =>
      match s.flights pid with
      | .suspending actor target dto =>
          match suspendTx now sid actor target dto s.db with
          | .ok (_, db) => s.set pid .idle db
          | .error _ => s.set pid .idle s.db
      | _ => s
  | .fail pid => s.set pid .idle s.db

/-! ## What is asked of a step -/

/-- A step leaves the edit time and the ciphertexts of every deleted message alone. -/
def Untouched (db db' : Db) : Prop :=
  ∀ m ∈ db.messages, m.deletedAt ≠ none →
    (∀ m' ∈ db'.messages, m'.id = m.id → m'.editedAt = m.editedAt) ∧
    ∀ e ∈ db.messageEnvelopes, e.messageId = m.id →
      ∀ e' ∈ db'.messageEnvelopes, e'.id = e.id → e'.ciphertext = e.ciphertext

/-- The writes of an edit: the update that claims it, and an update of envelopes. -/
inductive Write where
  | claim (now : Time) (messageId : Id) (idempotencyKey : String)
  | envelopes (now : Time) (messageId : Id) (ciphertext : Ciphertext) (deviceIds : List Id)

def Write.apply : Write → Db → Db
  | .claim now messageId idempotencyKey, db => (claimEdit now messageId idempotencyKey db).2
  | .envelopes now messageId ciphertext deviceIds, db =>
      { db with
        messageEnvelopes := updateChunk now messageId ciphertext deviceIds db.messageEnvelopes }

/-- The write of an edit that an act makes. -/
def written (s : State) : Act → Option Write
  | .editClaim pid now =>
      match s.flights pid with
      | .editing messageId dto => some (.claim now messageId dto.idempotencyKey)
      | _ => none
  | .editRefresh pid now =>
      match s.flights pid with
      | .refreshing messageId (x :: _) =>
          some (.envelopes now messageId x.ciphertext [x.recipientDeviceId])
      | _ => none
  | .editGroupClaim pid now =>
      match s.flights pid with
      | .editingGroup _ _ messageId dto => some (.claim now messageId dto.idempotencyKey)
      | _ => none
  | .jobChunk pid now =>
      match s.flights pid with
      | .fanningOut job (chunk :: _) => some (.envelopes now job.messageId job.ciphertext chunk)
      | _ => none
  | _ => none

/-- The message is not deleted when the write comes, unless there is nothing to change: the
edit is not claimed or has the time that is stored, the envelopes of the devices have the
ciphertext. -/
def Write.InTime : Write → Db → Prop
  | .claim now messageId idempotencyKey, db =>
      ∀ m ∈ db.messages, m.id = messageId →
        m.deletedAt = none ∨ sqlNe m.lastEditIdempotencyKey idempotencyKey = false ∨
          m.editedAt = some now
  | .envelopes _ messageId ciphertext deviceIds, db =>
      ∀ m ∈ db.messages, m.id = messageId →
        m.deletedAt = none ∨ ∀ e ∈ db.messageEnvelopes, e.messageId = messageId →
          e.recipientDeviceId ∈ deviceIds → e.ciphertext = ciphertext

def EditsInTime (s : State) (a : Act) : Prop := ∀ w, written s a = some w → w.InTime s.db

/-- The primary keys. -/
structure Keyed (s : State) : Prop where
  messages : Rows.Unique (·.id) s.db.messages
  envelopes : Rows.Unique (·.id) s.db.messageEnvelopes

/-! ## What a write changes -/

theorem refreshEnvelope_chunk (now : Time) (messageId : Id) (x : EditMessageEnvelopeDto)
    (rows : List MessageEnvelope) :
    refreshEnvelope now messageId x rows =
      updateChunk now messageId x.ciphertext [x.recipientDeviceId] rows := by
  unfold refreshEnvelope updateChunk
  congr 1
  funext e
  rw [Bool.eq_iff_iff, Bool.and_eq_true_iff, Bool.and_eq_true_iff, beq_iff_eq, beq_iff_eq,
    List.contains_iff_mem, List.mem_singleton]

/-- An envelope as an edit leaves it. -/
def refreshed (now : Time) (ciphertext : Ciphertext) (e : MessageEnvelope) : MessageEnvelope :=
  { e with ciphertext := ciphertext, envelopeVersion := e.envelopeVersion + 1, updatedAt := now }

/-- A write that changes neither the edit time nor the envelopes. -/
structure Spares (db db' : Db) : Prop where
  envelopes : db'.messageEnvelopes = db.messageEnvelopes
  messages : ∃ p f, db'.messages = Rows.updateMany p f db.messages ∧
    ∀ m : Message, (f m).id = m.id ∧ (f m).editedAt = m.editedAt

theorem Spares.refl (db : Db) : Spares db db :=
  ⟨rfl, fun _ => false, id, (Rows.updateMany_eq_self fun _ _ => rfl).symm, fun _ => ⟨rfl, rfl⟩⟩

theorem Spares.untouched {db db' : Db} (h : Spares db db') (hu : Rows.Unique (·.id) db.messages)
    (he : Rows.Unique (·.id) db.messageEnvelopes) : Untouched db db' := by
  obtain ⟨p, f, hrows, hf⟩ := h.messages
  intro m hm _
  refine ⟨?_, ?_⟩
  · intro m' hm' hid
    rw [hrows] at hm'
    rw [hu.eq_updateMany (fun x => (hf x).1) hm hm' hid]
    split
    · exact (hf m).2
    · rfl
  · intro e hem _ e' hem' hid
    rw [h.envelopes] at hem'
    rw [he.eq hem' hem hid]

/-- A claim touches a deleted message exactly when it comes too late. -/
theorem claim_untouched_iff (now : Time) (messageId : Id) (key : String) {db : Db}
    (hu : Rows.Unique (·.id) db.messages) (he : Rows.Unique (·.id) db.messageEnvelopes) :
    Untouched db (claimEdit now messageId key db).2 ↔ (Write.claim now messageId key).InTime db := by
  constructor
  · intro h m hm hid
    by_cases hdel : m.deletedAt = none
    · exact Or.inl hdel
    · refine Or.inr ?_
      cases hne : sqlNe m.lastEditIdempotencyKey key with
      | false => exact Or.inl rfl
      | true =>
          have hrow : edited now key m ∈ (claimEdit now messageId key db).2.messages := by
            refine Rows.mem_updateMany.mpr ⟨m, hm, ?_⟩
            rw [if_pos (Bool.and_eq_true_iff.mpr ⟨beq_iff_eq.mpr hid, hne⟩)]
          exact Or.inr ((h m hm hdel).1 _ hrow rfl).symm
  · intro h m hm hdel
    refine ⟨?_, ?_⟩
    · intro m' hm' hid
      rw [hu.eq_updateMany (f := edited now key) (fun _ => rfl) hm hm' hid]
      split
      · rename_i hp
        obtain ⟨hmid, hne⟩ := Bool.and_eq_true_iff.mp hp
        rcases h m hm (beq_iff_eq.mp hmid) with hnone | hkey | htime
        · exact absurd hnone hdel
        · rw [hkey] at hne
          cases hne
        · exact htime.symm
      · rfl
    · intro e hem _ e' hem' hid
      rw [he.eq hem' hem hid]

/-- So does an update of envelopes. -/
theorem envelopes_untouched_iff (now : Time) (messageId : Id) (ciphertext : Ciphertext)
    (deviceIds : List Id) {db : Db} (hu : Rows.Unique (·.id) db.messages)
    (he : Rows.Unique (·.id) db.messageEnvelopes) :
    Untouched db { db with
        messageEnvelopes := updateChunk now messageId ciphertext deviceIds db.messageEnvelopes } ↔
      (Write.envelopes now messageId ciphertext deviceIds).InTime db := by
  have hsel : ∀ e : MessageEnvelope, (e.messageId == messageId &&
      deviceIds.contains e.recipientDeviceId) = true ↔
        e.messageId = messageId ∧ e.recipientDeviceId ∈ deviceIds := by
    intro e
    rw [Bool.and_eq_true_iff, beq_iff_eq, List.contains_iff_mem]
  constructor
  · intro h m hm hid
    by_cases hdel : m.deletedAt = none
    · exact Or.inl hdel
    · refine Or.inr ?_
      intro e hem hemid hdevice
      have hsame := (h m hm hdel).2 e hem (hemid.trans hid.symm) _
        (Rows.mem_updateMany.mpr ⟨e, hem, rfl⟩)
      rw [if_pos ((hsel e).mpr ⟨hemid, hdevice⟩)] at hsame
      exact (hsame rfl).symm
  · intro h m hm hdel
    refine ⟨?_, ?_⟩
    · intro m' hm' hid
      rw [hu.eq hm' hm hid]
    · intro e hem hemid e' hem' hid
      rw [he.eq_updateMany (f := refreshed now ciphertext) (fun _ => rfl) hem hem' hid]
      split
      · rename_i hp
        obtain ⟨hmid, hdevice⟩ := (hsel e).mp hp
        rcases h m hm (hemid.symm.trans hmid) with hnone | hall
        · exact absurd hnone hdel
        · exact (hall e hem hmid hdevice).symm
      · rfl

theorem Write.untouched_iff (w : Write) {db : Db} (hu : Rows.Unique (·.id) db.messages)
    (he : Rows.Unique (·.id) db.messageEnvelopes) : Untouched db (w.apply db) ↔ w.InTime db := by
  cases w with
  | claim now messageId key => exact claim_untouched_iff now messageId key hu he
  | envelopes now messageId ciphertext deviceIds =>
      exact envelopes_untouched_iff now messageId ciphertext deviceIds hu he

/-! ## What a step writes -/

/-- Marking messages as deleted is no edit. -/
theorem spares_mark {db db' : Db} {p : Message → Bool} {now : Time}
    (hm : db'.messages = Rows.updateMany p (tombstoned now) db.messages)
    (he : db'.messageEnvelopes = db.messageEnvelopes) : Spares db db' :=
  ⟨he, p, tombstoned now, hm, fun _ => ⟨rfl, rfl⟩⟩

/-- A step makes the write of an edit, or spares what edits write. -/
theorem step_writes (s : State) (a : Act) :
    (∃ w, written s a = some w ∧ (step s a).db = w.apply s.db) ∨
      (written s a = none ∧ Spares s.db (step s a).db) := by
  cases a with
  | editClaim pid now =>
      simp only [written, step]
      cases s.flights pid with
      | editing messageId dto => exact Or.inl ⟨_, rfl, rfl⟩
      | _ => exact Or.inr ⟨rfl, Spares.refl _⟩
  | editRefresh pid now =>
      simp only [written, step]
      cases s.flights pid with
      | refreshing messageId rest =>
          cases rest with
          | nil => exact Or.inr ⟨rfl, Spares.refl _⟩
          | cons x rest =>
              refine Or.inl ⟨_, rfl, ?_⟩
              simp only [Write.apply, ← refreshEnvelope_chunk]
              rfl
      | _ => exact Or.inr ⟨rfl, Spares.refl _⟩
  | editGroupClaim pid now =>
      simp only [written, step]
      cases s.flights pid with
      | editingGroup senderUserId groupId messageId dto => exact Or.inl ⟨_, rfl, rfl⟩
      | _ => exact Or.inr ⟨rfl, Spares.refl _⟩
  | jobChunk pid now =>
      simp only [written, step]
      cases s.flights pid with
      | fanningOut job rest =>
          cases rest with
          | nil => exact Or.inr ⟨rfl, Spares.refl _⟩
          | cons chunk rest => exact Or.inl ⟨_, rfl, rfl⟩
      | _ => exact Or.inr ⟨rfl, Spares.refl _⟩
  | deleteCommit pid now =>
      refine Or.inr ⟨rfl, ?_⟩
      simp only [step]
      split
      · split
        · rename_i htx
          rw [deleteTx_ok htx]
          exact spares_mark (p := (·.id == _)) rfl rfl
        · exact Spares.refl _
      · exact Spares.refl _
  | tombstoneCommit pid now =>
      refine Or.inr ⟨rfl, ?_⟩
      simp only [step]
      split
      · split
        · rename_i htx
          obtain ⟨hm, he⟩ := tombstoneTx_messages htx
          exact spares_mark hm he
        · exact Spares.refl _
      · exact Spares.refl _
  | suspendCommit pid now sid =>
      refine Or.inr ⟨rfl, ?_⟩
      simp only [step]
      split
      · split
        · rename_i htx
          obtain ⟨hm, he⟩ := suspendTx_messages htx
          exact spares_mark hm he
        · exact Spares.refl _
      · exact Spares.refl _
  | editRead pid limit now userId messageId dto =>
      refine Or.inr ⟨rfl, ?_⟩
      simp only [step]
      split <;> exact Spares.refl _
  | editGroupRead pid limit now senderUserId groupId messageId dto =>
      refine Or.inr ⟨rfl, ?_⟩
      simp only [step]
      split <;> exact Spares.refl _
  | editGroupEnqueue pid =>
      refine Or.inr ⟨rfl, ?_⟩
      simp only [step]
      split <;> exact Spares.refl _
  | jobStart pid index =>
      refine Or.inr ⟨rfl, ?_⟩
      simp only [step]
      split <;> exact Spares.refl _
  | deleteRead pid limit now userId messageId dto =>
      refine Or.inr ⟨rfl, ?_⟩
      simp only [step]
      split <;> exact Spares.refl _
  | tombstoneRead pid actor role messageId dto =>
      refine Or.inr ⟨rfl, ?_⟩
      simp only [step]
      split <;> exact Spares.refl _
  | suspendRead pid now actor role target dto =>
      refine Or.inr ⟨rfl, ?_⟩
      simp only [step]
      split <;> exact Spares.refl _
  | fail pid => exact Or.inr ⟨rfl, Spares.refl _⟩

theorem step_keyed (s : State) (a : Act) (h : Keyed s) : Keyed (step s a) := by
  rcases step_writes s a with ⟨w, _, hdb⟩ | ⟨_, hspares⟩
  · constructor
    · rw [hdb]
      cases w with
      | claim now messageId key => exact claimEdit_unique h.messages
      | envelopes now messageId ciphertext deviceIds => exact h.messages
    · rw [hdb]
      cases w with
      | claim now messageId key => exact h.envelopes
      | envelopes now messageId ciphertext deviceIds =>
          exact Rows.unique_updateMany (f := refreshed now ciphertext) (fun _ => rfl) h.envelopes
  · constructor
    · obtain ⟨p, f, hrows, hf⟩ := hspares.messages
      rw [hrows]
      exact Rows.unique_updateMany (fun m => (hf m).1) h.messages
    · rw [hspares.envelopes]
      exact h.envelopes

theorem step_untouched_iff (s : State) (a : Act) (h : Keyed s) :
    Untouched s.db (step s a).db ↔ EditsInTime s a := by
  rcases step_writes s a with ⟨w, hw, hdb⟩ | ⟨hnone, hspares⟩
  · rw [hdb, w.untouched_iff h.messages h.envelopes]
    constructor
    · intro hin w' hw'
      rw [hw] at hw'
      rw [← Option.some.inj hw']
      exact hin
    · intro hall
      exact hall w hw
  · refine ⟨?_, fun _ => hspares.untouched h.messages h.envelopes⟩
    intro _ w hw
    rw [hnone] at hw
    cases hw

/-- From any store and with any calls in flight, a run never edits a deleted message exactly
when every write of an edit comes before the deletion of its message, or has nothing to
change. -/
theorem deleted_messages_untouched_iff (s : State) (hkeys : Keyed s) (acts : List Act) :
    Along step (fun s a => Untouched s.db (step s a).db) s acts ↔ Along step EditsInTime s acts :=
  along_congr (J := Keyed) step_keyed step_untouched_iff acts s hkeys

/-! ## Deletions that overtake no edit -/

/-- The message that a call in flight edits. -/
def Flight.edits : Flight → Option Id
  | .editing messageId _ => some messageId
  | .refreshing messageId _ => some messageId
  | .editingGroup _ _ messageId _ => some messageId
  | .enqueueing _ _ messageId _ => some messageId
  | .fanningOut job _ => some job.messageId
  | _ => none

/-- An edit of the message is in flight, or waits in the queue, where it may be executed any
number of times. -/
def Editing (s : State) (messageId : Id) : Prop :=
  (∃ pid, (s.flights pid).edits = some messageId) ∨ ∃ job ∈ s.jobs, job.messageId = messageId

/-- No step marks a message as deleted that is being edited. -/
def OvertakesNone (s : State) (a : Act) : Prop :=
  ∀ m ∈ s.db.messages, m.deletedAt = none → ∀ m' ∈ (step s a).db.messages, m'.id = m.id →
    m'.deletedAt ≠ none → ¬ Editing s m.id

/-- No deleted message is being edited. -/
def Calm (s : State) : Prop := ∀ m ∈ s.db.messages, m.deletedAt ≠ none → ¬ Editing s m.id

/-- The checks of an edit find a message of the user that is not deleted. -/
theorem editChecks_open {limit : EditLimit} {now : Time} {userId messageId : Id}
    {dto : EditMessageDto} {db : Db} (h : editChecks limit now userId messageId dto db = .ok ()) :
    ∃ m ∈ db.messages, m.id = messageId ∧ m.senderUserId = userId ∧ m.deletedAt = none := by
  unfold editChecks at h
  obtain ⟨_, _, h⟩ := bind_ok.mp h
  obtain ⟨m, hm, h⟩ := bind_ok.mp h
  obtain ⟨_, hsender, h⟩ := bind_ok.mp h
  obtain ⟨_, hopen, _⟩ := bind_ok.mp h
  unfold assertMessageAccess at hm
  split at hm
  · cases hm
  · rename_i found hfound
    obtain ⟨_, _, hm⟩ := bind_ok.mp hm
    obtain rfl := Except.ok.inj hm
    exact ⟨found, List.mem_of_find?_eq_some hfound, by simpa using List.find?_some hfound,
      beq_iff_eq.mp (ensure_ok.mp hsender), Option.isNone_iff_eq_none.mp (ensure_ok.mp hopen)⟩

theorem editGroupChecks_open {limit : EditLimit} {now : Time} {userId groupId messageId : Id}
    {db : Db} (h : editGroupChecks limit now userId groupId messageId db = .ok ()) :
    ∃ m ∈ db.messages, m.id = messageId ∧ m.senderUserId = userId ∧ m.deletedAt = none := by
  unfold editGroupChecks at h
  obtain ⟨_, _, h⟩ := bind_ok.mp h
  split at h
  · cases h
  · rename_i found hfound
    obtain ⟨_, _, h⟩ := bind_ok.mp h
    obtain ⟨_, hsender, h⟩ := bind_ok.mp h
    obtain ⟨_, hopen, _⟩ := bind_ok.mp h
    exact ⟨found, List.mem_of_find?_eq_some hfound, by simpa using List.find?_some hfound,
      beq_iff_eq.mp (ensure_ok.mp hsender), Option.isNone_iff_eq_none.mp (ensure_ok.mp hopen)⟩

theorem Editing.of_set {s : State} {pid : Nat} {f : Flight} {db : Db} {messageId : Id}
    (h : Editing (s.set pid f db) messageId) :
    f.edits = some messageId ∨ Editing s messageId := by
  rcases h with ⟨p, hp⟩ | hjob
  · by_cases hpid : p = pid
    · subst hpid
      have hf : (s.set p f db).flights p = f := Function.update_self ..
      rw [hf] at hp
      exact Or.inl hp
    · have hf : (s.set pid f db).flights p = s.flights p := Function.update_of_ne hpid ..
      rw [hf] at hp
      exact Or.inr (Or.inl ⟨p, hp⟩)
  · exact Or.inr (Or.inr hjob)

/-- A call that goes on with an edit, or ends, brings no new one. -/
theorem Editing.of_goOn {s : State} {pid : Nat} {f : Flight} {db : Db} {messageId : Id}
    (h : Editing (s.set pid f db) messageId)
    (hf : f.edits = none ∨ f.edits = (s.flights pid).edits) : Editing s messageId := by
  rcases h.of_set with hedits | h
  · rcases hf with hnone | hsame
    · rw [hnone] at hedits
      cases hedits
    · exact Or.inl ⟨pid, hsame ▸ hedits⟩
  · exact h

/-- An edit begins only with checks that find its message not deleted. -/
theorem editing_step (s : State) (a : Act) {messageId : Id} (h : Editing (step s a) messageId) :
    Editing s messageId ∨
      ((step s a).db = s.db ∧ ∃ m ∈ s.db.messages, m.id = messageId ∧ m.deletedAt = none) := by
  cases a with
  | editRead pid limit now userId id dto =>
      simp only [step] at h ⊢
      split at h
      · rename_i hchecks
        rcases h.of_set with hedits | h
        · obtain rfl := Option.some.inj hedits
          obtain ⟨m, hm, hid, _, hopen⟩ := editChecks_open hchecks
          exact Or.inr ⟨rfl, m, hm, hid, hopen⟩
        · exact Or.inl h
      · exact Or.inl h
  | editGroupRead pid limit now userId groupId id dto =>
      simp only [step] at h ⊢
      split at h
      · rename_i hchecks
        rcases h.of_set with hedits | h
        · obtain rfl := Option.some.inj hedits
          obtain ⟨m, hm, hid, _, hopen⟩ := editGroupChecks_open hchecks
          exact Or.inr ⟨rfl, m, hm, hid, hopen⟩
        · exact Or.inl h
      · exact Or.inl h
  | editClaim pid now =>
      refine Or.inl ?_
      simp only [step] at h
      split at h
      · rename_i id dto hflight
        refine h.of_goOn ?_
        split
        · exact Or.inl rfl
        · exact Or.inr (by rw [hflight]; rfl)
      · exact h
  | editGroupClaim pid now =>
      refine Or.inl ?_
      simp only [step] at h
      split at h
      · rename_i userId groupId id dto hflight
        refine h.of_goOn ?_
        split
        · exact Or.inl rfl
        · exact Or.inr (by rw [hflight]; rfl)
      · exact h
  | editRefresh pid now =>
      refine Or.inl ?_
      simp only [step] at h
      split at h
      · rename_i id x rest hflight
        exact h.of_goOn (Or.inr (by rw [hflight]; rfl))
      · exact h.of_goOn (Or.inl rfl)
      · exact h
  | editGroupEnqueue pid =>
      refine Or.inl ?_
      simp only [step] at h
      split at h
      · rename_i userId groupId id dto hflight
        rcases h with hflights | ⟨job, hjob, hid⟩
        · have hset : Editing (s.set pid .idle s.db) messageId := Or.inl hflights
          exact hset.of_goOn (Or.inl rfl)
        · rcases List.mem_append.mp hjob with hjob | hnew
          · exact Or.inr ⟨job, hjob, hid⟩
          · -- the new job is of the message the call edits
            refine Or.inl ⟨pid, ?_⟩
            rw [hflight, ← hid]
            simp only [editJob, Option.mem_toList, bind, Option.bind_eq_some_iff] at hnew
            obtain ⟨row, hrow, editedAt, _, hjob⟩ := hnew
            obtain rfl := Option.some.inj hjob
            have hrowid : row.id = id := by simpa using List.find?_some hrow
            exact congrArg some hrowid.symm
      · exact h
  | jobStart pid index =>
      refine Or.inl ?_
      simp only [step] at h
      split at h
      · rename_i job _ hjob
        rcases h.of_set with hedits | h
        · exact Or.inr ⟨job, List.mem_of_getElem? hjob, Option.some.inj hedits⟩
        · exact h
      · exact h
  | jobChunk pid now =>
      refine Or.inl ?_
      simp only [step] at h
      split at h
      · rename_i job chunk rest hflight
        exact h.of_goOn (Or.inr (by rw [hflight]; rfl))
      · exact h.of_goOn (Or.inl rfl)
      · exact h
  | deleteRead pid limit now userId id dto =>
      refine Or.inl ?_
      simp only [step] at h
      split at h
      · exact h.of_goOn (Or.inl rfl)
      · exact h
  | deleteCommit pid now =>
      refine Or.inl ?_
      simp only [step] at h
      split at h
      · split at h <;> exact h.of_goOn (Or.inl rfl)
      · exact h
  | tombstoneRead pid actor role id dto =>
      refine Or.inl ?_
      simp only [step] at h
      split at h
      · exact h.of_goOn (Or.inl rfl)
      · exact h
  | tombstoneCommit pid now =>
      refine Or.inl ?_
      simp only [step] at h
      split at h
      · split at h <;> exact h.of_goOn (Or.inl rfl)
      · exact h
  | suspendRead pid now actor role target dto =>
      refine Or.inl ?_
      simp only [step] at h
      split at h
      · exact h.of_goOn (Or.inl rfl)
      · exact h
  | suspendCommit pid now sid =>
      refine Or.inl ?_
      simp only [step] at h
      split at h
      · split at h <;> exact h.of_goOn (Or.inl rfl)
      · exact h
  | fail pid => exact Or.inl (h.of_goOn (Or.inl rfl))

/-- Every row of a message comes from one with its id. -/
theorem step_rows (s : State) (a : Act) :
    ∀ m' ∈ (step s a).db.messages, ∃ m ∈ s.db.messages, m.id = m'.id := by
  have hupdated : ∀ (p : Message → Bool) (f : Message → Message), (∀ m, (f m).id = m.id) →
      ∀ m' ∈ Rows.updateMany p f s.db.messages, ∃ m ∈ s.db.messages, m.id = m'.id := by
    intro p f hf m' hm'
    obtain ⟨m, hm, rfl⟩ := Rows.mem_updateMany.mp hm'
    refine ⟨m, hm, ?_⟩
    split
    · exact (hf m).symm
    · rfl
  rcases step_writes s a with ⟨w, _, hdb⟩ | ⟨_, hspares⟩
  · rw [hdb]
    cases w with
    | claim now messageId key => exact hupdated _ (edited now key) fun _ => rfl
    | envelopes now messageId ciphertext deviceIds => exact fun m' hm' => ⟨m', hm', rfl⟩
  · obtain ⟨p, f, hrows, hf⟩ := hspares.messages
    rw [hrows]
    exact hupdated p f fun m => (hf m).1

theorem step_calm {s : State} (hkeys : Keyed s) (a : Act) (h : Calm s) (hnone : OvertakesNone s a) :
    Calm (step s a) := by
  intro m' hm' hdeleted hediting
  obtain ⟨m, hm, hid⟩ := step_rows s a m' hm'
  rcases editing_step s a hediting with hbefore | ⟨hdb, x, hx, hxid, hopen⟩
  · by_cases hmark : m.deletedAt = none
    · exact hnone m hm hmark m' hm' hid.symm hdeleted (hid ▸ hbefore)
    · exact h m hm hmark (hid ▸ hbefore)
  · rw [hdb] at hm'
    rw [hkeys.messages.eq hx hm' hxid] at hopen
    exact hdeleted hopen

def Write.messageId : Write → Id
  | .claim _ messageId _ => messageId
  | .envelopes _ messageId _ _ => messageId

/-- A write belongs to an edit in flight. -/
theorem written_editing {s : State} {a : Act} {w : Write} (h : written s a = some w) :
    Editing s w.messageId := by
  cases a with
  | editClaim pid now =>
      simp only [written] at h
      split at h
      · rename_i hflight
        obtain rfl := Option.some.inj h
        exact Or.inl ⟨pid, by rw [hflight]; rfl⟩
      · cases h
  | editRefresh pid now =>
      simp only [written] at h
      split at h
      · rename_i hflight
        obtain rfl := Option.some.inj h
        exact Or.inl ⟨pid, by rw [hflight]; rfl⟩
      · cases h
  | editGroupClaim pid now =>
      simp only [written] at h
      split at h
      · rename_i hflight
        obtain rfl := Option.some.inj h
        exact Or.inl ⟨pid, by rw [hflight]; rfl⟩
      · cases h
  | jobChunk pid now =>
      simp only [written] at h
      split at h
      · rename_i hflight
        obtain rfl := Option.some.inj h
        exact Or.inl ⟨pid, by rw [hflight]; rfl⟩
      · cases h
  | _ => cases h

theorem calm_inTime {s : State} (h : Calm s) (a : Act) : EditsInTime s a := by
  intro w hw
  have hediting := written_editing hw
  have hopen : ∀ m ∈ s.db.messages, Editing s m.id → m.deletedAt = none := by
    intro m hm he
    by_contra hdeleted
    exact h m hm hdeleted he
  cases w with
  | claim now messageId key => exact fun m hm hid => Or.inl (hopen m hm (hid ▸ hediting))
  | envelopes now messageId ciphertext deviceIds =>
      exact fun m hm hid => Or.inl (hopen m hm (hid ▸ hediting))

/-- A run in which no deletion overtakes an edit, from a state where none has, edits no deleted
message. -/
theorem untouched_of_none_overtaken (s : State) (hkeys : Keyed s) (hcalm : Calm s) (acts : List Act)
    (h : Along step OvertakesNone s acts) :
    Along step (fun s a => Untouched s.db (step s a).db) s acts := by
  refine along_of_along (I := fun s => Keyed s ∧ Calm s) ?_ ?_ acts s ⟨hkeys, hcalm⟩ h
  · intro s a hs hnone
    exact ⟨step_keyed s a hs.1, step_calm hs.1 a hs.2 hnone⟩
  · intro s a hs _
    exact (step_untouched_iff s a hs.1).mpr (calm_inTime hs.2 a)

/-- Alice's message to Bob, edited once before. -/
def sampleState : State :=
  { db := editDb (edited 500 "edit-key-0" unedited), flights := fun _ => .idle, jobs := [] }

/-- The checks of an edit of it, by the call with number 0. -/
def editBegins : Act := .editRead 0 {} 1000 "alice" "m1" editDto

/-- Alice deletes the message, by the call with number 1. -/
def aliceDeletes : List Act :=
  [.deleteRead 1 {} 1001 "alice" "m1" { deviceId := "d1", scope := .forEveryone }, .deleteCommit 1 1001]

theorem overtaken_edit_touches_deleted :
    ¬ ∀ s : State, Keyed s → ∀ acts : List Act,
      Along step (fun s a => Untouched s.db (step s a).db) s acts := by
  intro h
  have hrun := h sampleState ⟨by decide, by decide⟩ ([editBegins] ++ aliceDeletes ++ [.editClaim 0 1002])
  have hlast := hrun ([editBegins] ++ aliceDeletes) (.editClaim 0 1002) (List.prefix_refl _)
  have hdeleted := (hlast (tombstoned 1001 (edited 500 "edit-key-0" unedited)) (by decide) (by decide)).1
  have htime := hdeleted (tombstoned 1001 (edited 1002 "edit-key-1" unedited)) (by decide) rfl
  cases htime

/-- With its writes before the deletion the edit is in time. -/
theorem prompt_edit_in_time :
    Along step (fun s a => Untouched s.db (step s a).db) sampleState
      ([editBegins, .editClaim 0 1000, .editRefresh 0 1000] ++ aliceDeletes) := by
  refine (deleted_messages_untouched_iff sampleState ⟨by decide, by decide⟩ _).mpr ?_
  simp only [aliceDeletes, List.cons_append, List.nil_append, along_cons]
  refine ⟨?_, ?_, ?_, ?_, ?_, along_nil _ _ _⟩
  · intro w hw
    cases hw
  · intro w hw
    obtain rfl := Option.some.inj hw
    intro m hm _
    rw [show m = edited 500 "edit-key-0" unedited from List.mem_singleton.mp hm]
    exact Or.inl rfl
  · intro w hw
    obtain rfl := Option.some.inj hw
    intro m hm _
    rw [show m = edited 1000 "edit-key-1" unedited from List.mem_singleton.mp hm]
    exact Or.inl rfl
  · intro w hw
    cases hw
  · intro w hw
    cases hw

end Birgap.Messaging.LateEdits
