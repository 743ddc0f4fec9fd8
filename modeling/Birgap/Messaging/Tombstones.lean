import Birgap.Messaging.Reclaim
import Birgap.Moderation.Closing
import Birgap.Moderation.Audited

/-!
# Deletion marks are written once

Messages are created, edited, deleted by their sender or a group admin, tombstoned and
restored by moderators, and tombstoned together with a suspended user. `tombstoneMessage`
and `suspendUser` look for a mark before they set one; a deletion for everyone does not.
Every operation but the creation of messages is one step, so every sequential run is among
the runs below.
-/
namespace Birgap.Messaging.Tombstones

set_option autoImplicit false

open Birgap.Lib Birgap.Lib.Run Birgap.Lib.Tx Birgap.Messages Birgap.Auth Birgap.Moderation
open Birgap.Moderation.Closing (updateMessage_ok)
open Birgap.Moderation.Audited (untombstoneCheck untombstoneAudit)
open Birgap.Messaging.Reclaim (DeletesForEveryone delete_cases deleteAccess_found)

/-- `ModerationService.tombstoneMessage`, run alone. -/
def tombstoneMessage (now : Time) (actorUserId : Id) (actorRole : UserRole) (messageId : Id)
    (dto : TombstoneMessageDto) (db : Db) : Except Err (Id × Time) × Db :=
  match tombstoneCheck actorRole messageId db with
  | .error e => (.error e, db)
  | .ok _ =>
      match tombstoneTx now actorUserId messageId dto db with
      | .error e => (.error e, db)
      | .ok db => (.ok (messageId, now), db)

/-- `ModerationService.untombstoneMessage`, run alone. -/
def untombstoneMessage (actorUserId : Id) (actorRole : UserRole) (messageId : Id)
    (reason : Option String) (db : Db) : Except Err Message × Db :=
  if actorRole ≠ .admin then (.error (.forbidden "Admin role required"), db)
  else
    match untombstoneCheck messageId db with
    | .error e => (.error e, db)
    | .ok _ =>
        match updateMessage messageId (fun m => { m with deletedAt := none }) db with
        | .error e => (.error e, db)
        | .ok (updated, db) => (.ok updated, auditWrite (untombstoneAudit actorUserId messageId reason) db)

/-- The messaging system and the jobs of group edits. -/
structure State where
  messaging : Messaging.State
  editJobs : List GroupEditFanoutJobData

def State.db (s : State) : Db := s.messaging.db

def State.store (s : State) (db : Db) : State := { s with messaging := { s.messaging with db := db } }

inductive Act where
  | message (a : Messaging.Act)
  | edit (limit : EditLimit) (now : Time) (userId messageId : Id) (dto : EditMessageDto)
  | editGroupMessage (limit : EditLimit) (now : Time) (addFails : Bool)
      (senderUserId groupId messageId : Id) (dto : EditGroupMessageDto)
  | delete (limit : EditLimit) (now : Time) (userId messageId : Id) (dto : DeleteMessageDto)
  | tombstoneMessage (now : Time) (actorUserId : Id) (actorRole : UserRole) (messageId : Id)
      (dto : TombstoneMessageDto)
  | untombstoneMessage (actorUserId : Id) (actorRole : UserRole) (messageId : Id)
      (reason : Option String)
  | suspendUser (now : Time) (suspensionId actorUserId : Id) (actorRole : UserRole)
      (targetUserId : Id) (dto : SuspendUserDto)

def step (env : AuthEnv) (configuredMax : Option Int) (s : State) : Act → State
  | .message a => { s with messaging := Messaging.step env configuredMax s.messaging a }
  | .edit limit now userId messageId dto => s.store (edit limit now userId messageId dto s.db).2
  | .editGroupMessage limit now addFails senderUserId groupId messageId dto =>
      let (_, db, jobs) :=
        editGroupMessage limit now addFails senderUserId groupId messageId dto s.db s.editJobs
      { s.store db with editJobs := jobs }
  | .delete limit now userId messageId dto =>
      match Messages.delete limit now userId messageId dto s.db with
      | .ok (_, db) => s.store db
      | .error _ => s
  | .tombstoneMessage now actorUserId actorRole messageId dto =>
      s.store (tombstoneMessage now actorUserId actorRole messageId dto s.db).2
  | .untombstoneMessage actorUserId actorRole messageId reason =>
      s.store (untombstoneMessage actorUserId actorRole messageId reason s.db).2
  | .suspendUser now suspensionId actorUserId actorRole targetUserId dto =>
      s.store (suspendUser now suspensionId actorUserId actorRole targetUserId dto s.db).2

/-- The message whose deletion a step announces to the devices. A suspension announces only
that the user is out. -/
def announced (s : State) : Act → Option Id
  | .delete limit now userId messageId dto =>
      match Messages.delete limit now userId messageId dto s.db with
      | .ok (some _, _) => some messageId
      | _ => none
  | .tombstoneMessage now actorUserId actorRole messageId dto =>
      match (tombstoneMessage now actorUserId actorRole messageId dto s.db).1 with
      | .ok _ => some messageId
      | .error _ => none
  | _ => none

/-! ## What is asked of a step -/

/-- The operations that set a mark. -/
def Act.Deletes : Act → Prop
  | .delete _ _ _ _ _ | .tombstoneMessage _ _ _ _ _ | .suspendUser _ _ _ _ _ _ => True
  | _ => False

/-- The operation that takes a mark away. -/
def Act.Restores : Act → Prop
  | .untombstoneMessage _ _ _ _ => True
  | _ => False

/-- What an operation may do to a mark: nothing, set it where there is none, take it away. -/
def Act.Marks (a : Act) (deletedAt deletedAt' : Option Time) : Prop :=
  deletedAt' = deletedAt ∨ (deletedAt = none ∧ a.Deletes) ∨ (deletedAt' = none ∧ a.Restores)

/-- Every message is kept, its mark changes as the operation allows, and a deletion is
announced only for a message that had no mark. -/
def WrittenOnce (env : AuthEnv) (configuredMax : Option Int) (s : State) (a : Act) : Prop :=
  (∀ m ∈ s.db.messages, ∃ m' ∈ (step env configuredMax s a).db.messages,
    m'.id = m.id ∧ a.Marks m.deletedAt m'.deletedAt) ∧
  ∀ m ∈ s.db.messages, announced s a = some m.id → m.deletedAt = none

/-- A deletion for everyone that passes its checks finds the message without a mark. -/
def FindsUndeleted (s : State) : Act → Prop
  | .delete limit now userId messageId dto =>
      DeletesForEveryone limit now userId messageId dto s.db →
        ∀ m ∈ s.db.messages, m.id = messageId → m.deletedAt = none
  | _ => True

def Keyed (s : State) : Prop := Rows.Unique (·.id) s.db.messages

/-! ## What an operation does to the marks -/

/-- The ids stay unique, every message is kept, and `L` relates its two marks. -/
structure Rewrites (L : Option Time → Option Time → Prop) (db db' : Db) : Prop where
  ids : Rows.Unique (·.id) db.messages → Rows.Unique (·.id) db'.messages
  rows : ∀ m ∈ db.messages, ∃ m' ∈ db'.messages, m'.id = m.id ∧ L m.deletedAt m'.deletedAt

theorem rewrites_same {L : Option Time → Option Time → Prop} (hL : ∀ d, L d d) {db db' : Db}
    (h : db'.messages = db.messages) : Rewrites L db db' := by
  refine ⟨fun hu => h ▸ hu, ?_⟩
  intro m hm
  exact ⟨m, h ▸ hm, rfl, hL _⟩

theorem rewrites_updateMany {L : Option Time → Option Time → Prop} {db db' : Db}
    {p : Message → Bool} {f : Message → Message}
    (h : db'.messages = Rows.updateMany p f db.messages) (hid : ∀ m, (f m).id = m.id)
    (hL : ∀ d, L d d) (hp : ∀ m ∈ db.messages, p m = true → L m.deletedAt (f m).deletedAt) :
    Rewrites L db db' := by
  refine ⟨?_, ?_⟩
  · intro hu
    rw [h]
    exact Rows.unique_updateMany hid hu
  · intro m hm
    rw [h]
    refine ⟨_, Rows.mem_updateMany.mpr ⟨m, hm, rfl⟩, ?_⟩
    cases hpm : p m with
    | true => exact ⟨hid m, hp m hm hpm⟩
    | false => exact ⟨rfl, hL _⟩

theorem Act.marks_refl (a : Act) (d : Option Time) : a.Marks d d := Or.inl rfl

/-- Claiming an edit leaves the mark alone. -/
theorem claimEdit_rewrites (a : Act) (now : Time) (messageId : Id) (key : String) {db db' : Db}
    (h : db'.messages = (claimEdit now messageId key db).2.messages) : Rewrites a.Marks db db' :=
  rewrites_updateMany (f := edited now key) h (fun _ => rfl) a.marks_refl
    fun _ _ _ => a.marks_refl _

theorem edit_rewrites (a : Act) (limit : EditLimit) (now : Time) (userId messageId : Id)
    (dto : EditMessageDto) (db : Db) :
    Rewrites a.Marks db (edit limit now userId messageId dto db).2 := by
  unfold edit
  split
  · exact rewrites_same a.marks_refl rfl
  · dsimp only
    split
    · split
      · exact claimEdit_rewrites a now messageId dto.idempotencyKey rfl
      · exact claimEdit_rewrites a now messageId dto.idempotencyKey rfl
    · split
      · exact claimEdit_rewrites a now messageId dto.idempotencyKey rfl
      · exact claimEdit_rewrites a now messageId dto.idempotencyKey rfl

theorem editGroupMessage_rewrites (a : Act) (limit : EditLimit) (now : Time) (addFails : Bool)
    (senderUserId groupId messageId : Id) (dto : EditGroupMessageDto) (db : Db)
    (jobs : List GroupEditFanoutJobData) :
    Rewrites a.Marks db
      (editGroupMessage limit now addFails senderUserId groupId messageId dto db jobs).2.1 := by
  have hclaim := @claimEdit_rewrites a now messageId dto.idempotencyKey db _ rfl
  unfold editGroupMessage
  split
  · exact rewrites_same a.marks_refl rfl
  · dsimp only
    split
    · exact hclaim
    · split
      · exact hclaim
      · split
        · exact hclaim
        · split <;> exact hclaim

/-- The tombstone of a moderator marks the message and leaves the envelopes alone. -/
theorem tombstoneTx_messages {now : Time} {actor messageId : Id} {dto : TombstoneMessageDto}
    {db db' : Db} (h : tombstoneTx now actor messageId dto db = .ok db') :
    db'.messages = Rows.updateMany (·.id == messageId) (tombstoned now) db.messages ∧
      db'.messageEnvelopes = db.messageEnvelopes := by
  unfold tombstoneTx at h
  obtain ⟨⟨m, marked⟩, hmark, h⟩ := bind_ok.mp h
  obtain ⟨closed, hclose, h⟩ := bind_ok.mp h
  obtain rfl := Except.ok.inj h
  -- what is closed and logged besides are reports and an audit row
  have hsame : closed.messages = marked.messages ∧
      closed.messageEnvelopes = marked.messageEnvelopes := by
    unfold closeReportsWith at hclose
    split at hclose
    · unfold cascadeCloseReports at hclose
      obtain ⟨⟨r, signed⟩, hsign, hclose⟩ := bind_ok.mp hclose
      obtain rfl := Except.ok.inj hclose
      rw [Closing.updateReport_ok hsign]
      exact ⟨rfl, rfl⟩
    · obtain rfl := Except.ok.inj hclose
      exact ⟨rfl, rfl⟩
  show closed.messages = _ ∧ closed.messageEnvelopes = _
  rw [hsame.1, hsame.2, updateMessage_ok hmark]
  exact ⟨rfl, rfl⟩

theorem tombstoneCheck_ok {role : UserRole} {messageId : Id} {db : Db} {m : Message}
    (h : tombstoneCheck role messageId db = .ok m) :
    m ∈ db.messages ∧ m.id = messageId ∧ m.deletedAt = none := by
  unfold tombstoneCheck at h
  split at h
  · cases h
  · split at h
    · cases h
    · rename_i x hfind
      split at h
      · cases h
      · rename_i hdel
        obtain rfl := Except.ok.inj h
        exact ⟨List.mem_of_find?_eq_some hfind, by simpa using List.find?_some hfind,
          by simpa using hdel⟩

/-- A suspension marks the messages of the user that have no mark and leaves the envelopes
alone. -/
theorem suspendTx_messages {now : Time} {sid actor target : Id} {dto : SuspendUserDto} {db db' : Db}
    {r : SuspendResult} (h : suspendTx now sid actor target dto db = .ok (r, db')) :
    db'.messages = Rows.updateMany
      (fun m => ((db.messages.filter fun m => m.senderUserId == target && m.deletedAt.isNone).map
        (·.id)).contains m.id) (tombstoned now) db.messages ∧
      db'.messageEnvelopes = db.messageEnvelopes := by
  unfold suspendTx at h
  split at h
  · cases h
  · split at h
    · cases h
    · simp only [Except.ok.injEq, Prod.mk.injEq] at h
      obtain ⟨_, rfl⟩ := h
      have hmarked : ∀ (ids : List Id) (d : Db), d.messages = db.messages →
          d.messageEnvelopes = db.messageEnvelopes →
          (if ids.isEmpty then d else tombstoneAll now sid actor ids d).messages =
            Rows.updateMany (fun m => ids.contains m.id) (tombstoned now) db.messages ∧
          (if ids.isEmpty then d else tombstoneAll now sid actor ids d).messageEnvelopes =
            db.messageEnvelopes := by
        intro ids d hd he
        split
        · rename_i hempty
          rw [hd, List.isEmpty_iff.mp hempty]
          exact ⟨(Rows.updateMany_eq_self fun _ _ => rfl).symm, he⟩
        · refine ⟨?_, he⟩
          show Rows.updateMany _ _ d.messages = _
          rw [hd]
          rfl
      unfold auditWrite
      dsimp only
      split
      · exact hmarked _ _ rfl rfl
      · exact hmarked _ _ rfl rfl

/-- The user's messages that a suspension selects have no mark. -/
theorem selected_unmarked {target : Id} {db : Db} (hu : Rows.Unique (·.id) db.messages) {m : Message}
    (hm : m ∈ db.messages)
    (h : ((db.messages.filter fun m => m.senderUserId == target && m.deletedAt.isNone).map
      (·.id)).contains m.id = true) : m.deletedAt = none := by
  obtain ⟨x, hx, hid⟩ := List.mem_map.mp (List.contains_iff_mem.mp h)
  obtain ⟨hx, hsel⟩ := List.mem_filter.mp hx
  rw [← hu.eq hx hm hid]
  simpa using (Bool.and_eq_true_iff.mp hsel).2

theorem suspendUser_rewrites (now : Time) (sid actor : Id) (role : UserRole) (target : Id)
    (dto : SuspendUserDto) {db : Db} (hu : Rows.Unique (·.id) db.messages) :
    Rewrites (Act.suspendUser now sid actor role target dto).Marks db
      (suspendUser now sid actor role target dto db).2 := by
  unfold suspendUser
  split
  · exact rewrites_same (Act.marks_refl _) rfl
  · split
    · exact rewrites_same (Act.marks_refl _) rfl
    · rename_i htx
      refine rewrites_updateMany (suspendTx_messages htx).1 (fun _ => rfl) (Act.marks_refl _) ?_
      intro m hm hsel
      exact Or.inr (Or.inl ⟨selected_unmarked hu hm hsel, trivial⟩)

theorem tombstoneMessage_rewrites (now : Time) (actor : Id) (role : UserRole) (messageId : Id)
    (dto : TombstoneMessageDto) {db : Db} (hu : Rows.Unique (·.id) db.messages) :
    Rewrites (Act.tombstoneMessage now actor role messageId dto).Marks db
      (tombstoneMessage now actor role messageId dto db).2 := by
  unfold tombstoneMessage
  split
  · exact rewrites_same (Act.marks_refl _) rfl
  · rename_i x hcheck
    obtain ⟨hx, hxid, hnone⟩ := tombstoneCheck_ok hcheck
    split
    · exact rewrites_same (Act.marks_refl _) rfl
    · rename_i htx
      refine rewrites_updateMany (tombstoneTx_messages htx).1 (fun _ => rfl) (Act.marks_refl _) ?_
      intro m hm hsel
      -- the row that is marked is the row that was checked
      rw [hu.eq hm hx ((beq_iff_eq.mp hsel).trans hxid.symm)]
      exact Or.inr (Or.inl ⟨hnone, trivial⟩)

theorem untombstoneMessage_rewrites (actor : Id) (role : UserRole) (messageId : Id)
    (reason : Option String) (db : Db) :
    Rewrites (Act.untombstoneMessage actor role messageId reason).Marks db
      (untombstoneMessage actor role messageId reason db).2 := by
  unfold untombstoneMessage
  split
  · exact rewrites_same (Act.marks_refl _) rfl
  · split
    · exact rewrites_same (Act.marks_refl _) rfl
    · split
      · exact rewrites_same (Act.marks_refl _) rfl
      · rename_i hup
        have hmessages := congrArg Db.messages (updateMessage_ok hup)
        refine rewrites_updateMany hmessages (fun _ => rfl) (Act.marks_refl _) ?_
        intro m _ _
        exact Or.inr (Or.inr ⟨rfl, trivial⟩)

/-! ## One step -/

section Steps

variable {env : AuthEnv} {configuredMax : Option Int} {s : State}

/-- What a deletion leaves, in whatever scope and with whatever outcome. -/
theorem delete_step (limit : EditLimit) (now : Time) (userId messageId : Id) (dto : DeleteMessageDto) :
    ((step env configuredMax s (.delete limit now userId messageId dto)).db.messages = s.db.messages ∧
      announced s (.delete limit now userId messageId dto) = none ∧
      ¬ DeletesForEveryone limit now userId messageId dto s.db) ∨
    ((step env configuredMax s (.delete limit now userId messageId dto)).db.messages =
        Rows.updateMany (·.id == messageId) (tombstoned now) s.db.messages ∧
      announced s (.delete limit now userId messageId dto) = some messageId ∧
      DeletesForEveryone limit now userId messageId dto s.db) := by
  rcases delete_cases limit now userId messageId dto s.db with
    ⟨⟨e, he⟩, hno⟩ | ⟨he, hno⟩ | ⟨hdel, who, log, he⟩
  · left
    simp only [step, announced, he]
    exact ⟨trivial, trivial, hno⟩
  · left
    simp only [step, announced, he]
    refine ⟨?_, trivial, hno⟩
    show (hideMessage userId messageId s.db).messages = _
    rw [hideMessage_frame]
  · right
    simp only [step, announced, he]
    exact ⟨rfl, trivial, hdel⟩

theorem step_rewrites (hu : Keyed s) (a : Act) (hc : FindsUndeleted s a) :
    Rewrites a.Marks s.db (step env configuredMax s a).db := by
  cases a with
  | message a =>
      have hext := exec_extends env configuredMax s.messaging a
      refine ⟨hext.ids, ?_⟩
      intro m hm
      exact ⟨m, hext.messages m hm, rfl, Act.marks_refl _ _⟩
  | edit limit now userId messageId dto => exact edit_rewrites _ limit now userId messageId dto s.db
  | editGroupMessage limit now addFails senderUserId groupId messageId dto =>
      exact editGroupMessage_rewrites _ limit now addFails senderUserId groupId messageId dto s.db _
  | delete limit now userId messageId dto =>
      rcases @delete_step env configuredMax s limit now userId messageId dto with ⟨hsame, _, _⟩ | ⟨hmark, _, hdel⟩
      · exact rewrites_same (Act.marks_refl _) hsame
      · refine rewrites_updateMany hmark (fun _ => rfl) (Act.marks_refl _) ?_
        intro m hm hsel
        exact Or.inr (Or.inl ⟨hc hdel m hm (beq_iff_eq.mp hsel), trivial⟩)
  | tombstoneMessage now actor role messageId dto =>
      exact tombstoneMessage_rewrites now actor role messageId dto hu
  | untombstoneMessage actor role messageId reason =>
      exact untombstoneMessage_rewrites actor role messageId reason s.db
  | suspendUser now sid actor role target dto =>
      exact suspendUser_rewrites now sid actor role target dto hu

/-- An announced tombstone has found the message without a mark. -/
theorem announced_unmarked (hu : Keyed s) {a : Act} (hc : FindsUndeleted s a) {m : Message}
    (hm : m ∈ s.db.messages) (h : announced s a = some m.id) : m.deletedAt = none := by
  cases a with
  | delete limit now userId messageId dto =>
      rcases delete_cases limit now userId messageId dto s.db with
        ⟨⟨e, he⟩, _⟩ | ⟨he, _⟩ | ⟨hdel, who, log, he⟩
      · simp only [announced, he] at h
        cases h
      · simp only [announced, he] at h
        cases h
      · simp only [announced, he] at h
        exact hc hdel m hm (Option.some.inj h).symm
  | tombstoneMessage now actor role messageId dto =>
      unfold announced tombstoneMessage at h
      cases hcheck : tombstoneCheck role messageId s.db with
      | error e =>
          simp only [hcheck] at h
          cases h
      | ok x =>
          obtain ⟨hx, hxid, hnone⟩ := tombstoneCheck_ok hcheck
          have hid : messageId = m.id := by
            simp only [hcheck] at h
            split at h
            · exact Option.some.inj h
            · cases h
          rw [hu.eq hm hx (hid.symm.trans hxid.symm)]
          exact hnone
  | _ => cases h

theorem step_keyed (s : State) (a : Act) (hu : Keyed s) : Keyed (step env configuredMax s a) := by
  cases a with
  | delete limit now userId messageId dto =>
      -- marking twice is no harm to the ids
      have hrewrites : Rewrites (fun _ _ => True) s.db
          (step env configuredMax s (.delete limit now userId messageId dto)).db := by
        rcases @delete_step env configuredMax s limit now userId messageId dto with ⟨hsame, _, _⟩ | ⟨hmark, _, _⟩
        · exact rewrites_same (fun _ => trivial) hsame
        · exact rewrites_updateMany hmark (fun _ => rfl) (fun _ => trivial) fun _ _ _ => trivial
      exact hrewrites.ids hu
  | message a => exact (step_rewrites hu (.message a) trivial).ids hu
  | edit limit now userId messageId dto =>
      exact (step_rewrites hu (.edit limit now userId messageId dto) trivial).ids hu
  | editGroupMessage limit now addFails senderUserId groupId messageId dto =>
      exact (step_rewrites hu
        (.editGroupMessage limit now addFails senderUserId groupId messageId dto) trivial).ids hu
  | tombstoneMessage now actor role messageId dto =>
      exact (step_rewrites hu (.tombstoneMessage now actor role messageId dto) trivial).ids hu
  | untombstoneMessage actor role messageId reason =>
      exact (step_rewrites hu (.untombstoneMessage actor role messageId reason) trivial).ids hu
  | suspendUser now sid actor role target dto =>
      exact (step_rewrites hu (.suspendUser now sid actor role target dto) trivial).ids hu

theorem writtenOnce_iff (s : State) (a : Act) (hu : Keyed s) :
    WrittenOnce env configuredMax s a ↔ FindsUndeleted s a := by
  constructor
  · intro h
    cases a with
    | delete limit now userId messageId dto =>
        intro hdel m hm hid
        rcases @delete_step env configuredMax s limit now userId messageId dto with ⟨_, _, hno⟩ | ⟨_, hsome, _⟩
        · exact absurd hdel hno
        · exact h.2 m hm (hsome.trans (congrArg some hid.symm))
    | _ => trivial
  · intro hc
    exact ⟨(step_rewrites hu a hc).rows, fun m hm => announced_unmarked hu hc hm⟩

end Steps

/-- In a run every mark is written once, and every deletion announced once, exactly when each
deletion for everyone that passes its checks finds the message without a mark. -/
theorem tombstones_written_once_iff (env : AuthEnv) (configuredMax : Option Int) (s : State)
    (hkeys : Rows.Unique (·.id) s.db.messages) (acts : List Act) :
    Along (step env configuredMax) (WrittenOnce env configuredMax) s acts ↔
      Along (step env configuredMax) FindsUndeleted s acts :=
  along_congr (J := Keyed) step_keyed writtenOnce_iff acts s hkeys

/-- Alice's message to Bob. -/
def sampleState : State :=
  { messaging := { db := editDb unedited, calls := fun _ => .idle, jobs := [] }, editJobs := [] }

def tombstoneByMod : Act := .tombstoneMessage 10 "mod" .moderator "m1" {}

def deleteByAlice : Act := .delete {} 20 "alice" "m1" { deviceId := "d1", scope := .forEveryone }

/-- A moderator takes the message down, and Alice then deletes it. -/
theorem deletion_overwrites_tombstone :
    ¬ ∀ (env : AuthEnv) (configuredMax : Option Int) (s : State),
      Rows.Unique (·.id) s.db.messages → ∀ acts : List Act,
        Along (step env configuredMax) (WrittenOnce env configuredMax) s acts := by
  intro h
  have hrun := h Devices.sampleEnv none sampleState (by decide) [tombstoneByMod, deleteByAlice]
  have hlast := hrun [tombstoneByMod] deleteByAlice (List.prefix_refl _)
  obtain ⟨m', hm', hid, hmark⟩ := hlast.1 (tombstoned 10 unedited) (by decide)
  have hnew : m' = tombstoned 20 unedited := by
    have hrows : (step Devices.sampleEnv none
        (run (step Devices.sampleEnv none) sampleState [tombstoneByMod]) deleteByAlice).db.messages =
          [tombstoned 20 unedited] := by decide
    rw [hrows] at hm'
    exact List.mem_singleton.mp hm'
  rw [hnew] at hmark
  rcases hmark with hsame | ⟨hnone, _⟩ | ⟨hnone, _⟩
  · cases hsame
  · cases hnone
  · cases hnone

/-- Restored in between, the message is deleted and announced a second time by right. -/
theorem restored_message_deleted_again :
    Along (step Devices.sampleEnv none) (WrittenOnce Devices.sampleEnv none) sampleState
      [tombstoneByMod, .untombstoneMessage "root" .admin "m1" none, deleteByAlice] := by
  refine (tombstones_written_once_iff Devices.sampleEnv none sampleState (by decide) _).mpr ?_
  simp only [along_cons]
  refine ⟨trivial, trivial, ?_, along_nil _ _ _⟩
  intro _
  decide

end Birgap.Messaging.Tombstones
