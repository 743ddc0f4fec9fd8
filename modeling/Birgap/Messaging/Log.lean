import Birgap.Lib.AppendLog
import Birgap.Messages.Scrolling
import Birgap.Messaging.Numbering
import Birgap.Messaging.Tombstones
import Birgap.Groups.Members

/-!
# A conversation is an append-only log

Sends, forwards and group messages append one message at a time to the log of one thread or
group, whatever the interleaving of their statements. Edits, deletions, tombstones,
suspensions and changes of the members rewrite marks and other tables only. `getMessages`
answers with a page of the log, so a page that lies below a number in use stays what it is.
-/
namespace Birgap.Messaging.Log

set_option autoImplicit false

open Birgap.Lib Birgap.Lib.Run Birgap.Lib.Tx Birgap.Lib.AppendLog Birgap.Lib.Sequence
open Birgap.Messages Birgap.Messages.History Birgap.Messages.Scrolling Birgap.Messages.Sequence
open Birgap.Groups Birgap.Auth Birgap.Moderation
open Birgap.Moderation.Closing (updateMessage_ok updateReport_ok)
open Birgap.Messaging.Reclaim (delete_cases)

/-- The columns of a message that are written once. -/
def entry (m : Message) : Message :=
  { m with deletedAt := none, editedAt := none, lastEditIdempotencyKey := none }

/-- The log of each thread and group, in the order of the inserts. -/
def logs (db : Db) : Logs Conversation Message := fun c => (messagesOf c db).map entry

/-- The statements of the messaging system and the operations on stored messages, beside the
changes of the members. -/
inductive Act where
  | message (a : Tombstones.Act)
  | createGroup (groupId creatorUserId : Id) (dto : CreateGroupDto)
  | addMembers (userId groupId : Id) (memberIds : List Id)
  | removeMember (userId groupId targetUserId : Id)

def step (env : AuthEnv) (configuredMax : Option Int) (s : Tombstones.State) :
    Act → Tombstones.State
  | .message a => Tombstones.step env configuredMax s a
  | .createGroup groupId creatorUserId dto =>
      match createGroup groupId creatorUserId dto s.db with
      | .ok db => s.store db
      | .error _ => s
  | .addMembers userId groupId memberIds =>
      match addMembers userId groupId memberIds s.db with
      | .ok (_, db) => s.store db
      | .error _ => s
  | .removeMember userId groupId targetUserId =>
      match removeMember userId groupId targetUserId s.db with
      | .ok db => s.store db
      | .error _ => s

def start (db : Db) : Tombstones.State := { messaging := Messaging.start db, editJobs := [] }

/-! ## What leaves the logs alone -/

/-- The two stores differ in the marks of their messages and in other tables at most. -/
structure SameEntries (db db' : Db) : Prop where
  entries : db'.messages.map entry = db.messages.map entry
  threads : db'.directThreads = db.directThreads

theorem sameEntries_same {db db' : Db} (hm : db'.messages = db.messages)
    (ht : db'.directThreads = db.directThreads) : SameEntries db db' := by
  refine ⟨?_, ht⟩
  rw [hm]

theorem sameEntries_updateMany {db db' : Db} {p : Message → Bool} {f : Message → Message}
    (hm : db'.messages = Rows.updateMany p f db.messages) (hf : ∀ m, entry (f m) = entry m)
    (ht : db'.directThreads = db.directThreads) : SameEntries db db' := by
  refine ⟨?_, ht⟩
  rw [hm]
  exact Rows.map_updateMany hf _

/-- A property of the entries does not tell the stores apart. -/
theorem SameEntries.filter {db db' : Db} (h : SameEntries db db') (p : Message → Bool)
    (hp : ∀ m, p (entry m) = p m) :
    (db'.messages.filter p).map entry = (db.messages.filter p).map entry := by
  have hcomm : ∀ l : List Message, (l.filter p).map entry = (l.map entry).filter p := by
    intro l
    rw [List.filter_map]
    congr 1
    exact List.filter_congr fun m _ => (hp m).symm
  rw [hcomm, hcomm, h.entries]

theorem SameEntries.logs {db db' : Db} (h : SameEntries db db') : logs db' = logs db := by
  funext c
  exact h.filter (c.has ·) (fun m => by cases c <;> rfl)

theorem SameEntries.numbers {db db' : Db} (h : SameEntries db db') (p : Message → Bool)
    (hp : ∀ m, p (entry m) = p m) :
    (db'.messages.filter p).map (·.threadSequence) = (db.messages.filter p).map (·.threadSequence) := by
  have hentries := congrArg (List.map (·.threadSequence)) (h.filter p hp)
  rw [List.map_map, List.map_map] at hentries
  exact hentries

theorem SameEntries.sequenced {db db' : Db} (h : SameEntries db db') (hs : Sequenced db) :
    Sequenced db' := by
  constructor
  · rw [h.threads]
    exact hs.ids
  · rw [h.threads]
    exact hs.pairs
  · rw [h.threads]
    exact hs.canonical
  · intro m hm id he
    have hmem : entry m ∈ db.messages.map entry := by
      rw [← h.entries]
      exact List.mem_map_of_mem hm
    obtain ⟨x, hx, hxm⟩ := List.mem_map.mp hmem
    have hthread := congrArg Message.threadId hxm
    rw [h.threads]
    exact hs.owned x hx id (hthread.trans he)
  · intro t ht
    rw [h.threads] at ht
    have hsame : threadSequences t.id db' = threadSequences t.id db := h.numbers _ fun _ => rfl
    rw [hsame]
    exact hs.gapless t ht

theorem SameEntries.numbered {s : Messaging.State} {db' : Db} (h : SameEntries s.db db')
    (hn : Messaging.Numbered s) : Messaging.Numbered { s with db := db' } :=
  hn.of_same fun _ => h.numbers _ fun _ => rfl

theorem claimEdit_sameEntries (now : Time) (messageId : Id) (key : String) {db db' : Db}
    (hm : db'.messages = (claimEdit now messageId key db).2.messages)
    (ht : db'.directThreads = db.directThreads) : SameEntries db db' :=
  sameEntries_updateMany (f := edited now key) hm (fun _ => rfl) ht

theorem edit_sameEntries (limit : EditLimit) (now : Time) (userId messageId : Id)
    (dto : EditMessageDto) (db : Db) : SameEntries db (edit limit now userId messageId dto db).2 := by
  unfold edit
  split
  · exact sameEntries_same rfl rfl
  · dsimp only
    split
    · split
      · exact claimEdit_sameEntries now messageId dto.idempotencyKey rfl rfl
      · exact claimEdit_sameEntries now messageId dto.idempotencyKey rfl rfl
    · split
      · exact claimEdit_sameEntries now messageId dto.idempotencyKey rfl rfl
      · exact claimEdit_sameEntries now messageId dto.idempotencyKey rfl rfl

theorem editGroupMessage_sameEntries (limit : EditLimit) (now : Time) (addFails : Bool)
    (senderUserId groupId messageId : Id) (dto : EditGroupMessageDto) (db : Db)
    (jobs : List GroupEditFanoutJobData) :
    SameEntries db
      (editGroupMessage limit now addFails senderUserId groupId messageId dto db jobs).2.1 := by
  have hclaim := @claimEdit_sameEntries now messageId dto.idempotencyKey db _ rfl rfl
  unfold editGroupMessage
  split
  · exact sameEntries_same rfl rfl
  · dsimp only
    split
    · exact hclaim
    · split
      · exact hclaim
      · split
        · exact hclaim
        · split <;> exact hclaim

theorem delete_sameEntries {limit : EditLimit} {now : Time} {userId messageId : Id}
    {dto : DeleteMessageDto} {db db' : Db} {who : Option DeletedBy}
    (h : Messages.delete limit now userId messageId dto db = .ok (who, db')) : SameEntries db db' := by
  rcases delete_cases limit now userId messageId dto db with ⟨⟨e, he⟩, _⟩ | ⟨he, _⟩ | ⟨_, _, log, he⟩
  · rw [he] at h
    cases h
  · obtain ⟨_, rfl⟩ := Prod.mk.inj (Except.ok.inj (he.symm.trans h))
    rw [hideMessage_frame]
    exact sameEntries_same rfl rfl
  · obtain ⟨_, rfl⟩ := Prod.mk.inj (Except.ok.inj (he.symm.trans h))
    exact sameEntries_updateMany (f := tombstoned now) rfl (fun _ => rfl) rfl

theorem tombstoneTx_threads {now : Time} {actor messageId : Id} {dto : TombstoneMessageDto}
    {db db' : Db} (h : tombstoneTx now actor messageId dto db = .ok db') :
    db'.directThreads = db.directThreads := by
  unfold tombstoneTx at h
  obtain ⟨⟨m, marked⟩, hmark, h⟩ := bind_ok.mp h
  obtain ⟨closed, hclose, h⟩ := bind_ok.mp h
  obtain rfl := Except.ok.inj h
  rw [updateMessage_ok hmark] at hclose
  show closed.directThreads = _
  unfold closeReportsWith at hclose
  split at hclose
  · unfold cascadeCloseReports at hclose
    obtain ⟨⟨r, signed⟩, hsign, hclose⟩ := bind_ok.mp hclose
    obtain rfl := Except.ok.inj hclose
    rw [updateReport_ok hsign]
    rfl
  · obtain rfl := Except.ok.inj hclose
    rfl

theorem tombstoneMessage_sameEntries (now : Time) (actor : Id) (role : UserRole) (messageId : Id)
    (dto : TombstoneMessageDto) (db : Db) :
    SameEntries db (Tombstones.tombstoneMessage now actor role messageId dto db).2 := by
  unfold Tombstones.tombstoneMessage
  split
  · exact sameEntries_same rfl rfl
  · split
    · exact sameEntries_same rfl rfl
    · rename_i htx
      exact sameEntries_updateMany (Tombstones.tombstoneTx_messages htx).1 (fun _ => rfl)
        (tombstoneTx_threads htx)

theorem untombstoneMessage_sameEntries (actor : Id) (role : UserRole) (messageId : Id)
    (reason : Option String) (db : Db) :
    SameEntries db (Tombstones.untombstoneMessage actor role messageId reason db).2 := by
  unfold Tombstones.untombstoneMessage
  split
  · exact sameEntries_same rfl rfl
  · split
    · exact sameEntries_same rfl rfl
    · split
      · exact sameEntries_same rfl rfl
      · rename_i hup
        have hmessages := congrArg Db.messages (updateMessage_ok hup)
        have hthreads := congrArg Db.directThreads (updateMessage_ok hup)
        exact sameEntries_updateMany hmessages (fun _ => rfl) hthreads

theorem suspendTx_threads {now : Time} {sid actor target : Id} {dto : SuspendUserDto} {db db' : Db}
    {r : SuspendResult} (h : suspendTx now sid actor target dto db = .ok (r, db')) :
    db'.directThreads = db.directThreads := by
  unfold suspendTx at h
  split at h
  · cases h
  · split at h
    · cases h
    · simp only [Except.ok.injEq, Prod.mk.injEq] at h
      obtain ⟨_, rfl⟩ := h
      have hmarked : ∀ (ids : List Id) (d : Db), d.directThreads = db.directThreads →
          (if ids.isEmpty then d else tombstoneAll now sid actor ids d).directThreads =
            db.directThreads := by
        intro ids d hd
        split
        · exact hd
        · exact hd
      unfold auditWrite
      dsimp only
      split <;> exact hmarked _ _ rfl

theorem suspendUser_sameEntries (now : Time) (sid actor : Id) (role : UserRole) (target : Id)
    (dto : SuspendUserDto) (db : Db) :
    SameEntries db (suspendUser now sid actor role target dto db).2 := by
  unfold suspendUser
  split
  · exact sameEntries_same rfl rfl
  · split
    · exact sameEntries_same rfl rfl
    · rename_i htx
      exact sameEntries_updateMany (Tombstones.suspendTx_messages htx).1 (fun _ => rfl)
        (suspendTx_threads htx)

theorem createMembers_sameEntries {new : List GroupMember} {db db' : Db}
    (h : createMembers new db = .ok db') : SameEntries db db' := by
  rw [createMembers_ok h]
  exact sameEntries_same rfl rfl

theorem createGroup_sameEntries {groupId creatorUserId : Id} {dto : CreateGroupDto} {db db' : Db}
    (h : createGroup groupId creatorUserId dto db = .ok db') : SameEntries db db' := by
  unfold createGroup at h
  dsimp only at h
  split at h
  · cases h
  · rw [createMembers_ok h]
    exact sameEntries_same rfl rfl

theorem addMembers_sameEntries {userId groupId : Id} {memberIds : List Id} {db db' : Db} {count : Nat}
    (h : addMembers userId groupId memberIds db = .ok (count, db')) : SameEntries db db' := by
  unfold addMembers at h
  obtain ⟨_, _, h⟩ := bind_ok.mp h
  dsimp only at h
  split at h
  · obtain ⟨_, rfl⟩ := Prod.mk.inj (Except.ok.inj h)
    exact sameEntries_same rfl rfl
  · obtain ⟨created, hcreate, h⟩ := bind_ok.mp h
    obtain ⟨_, rfl⟩ := Prod.mk.inj (Except.ok.inj h)
    exact createMembers_sameEntries hcreate

theorem removeMember_sameEntries {userId groupId targetUserId : Id} {db db' : Db}
    (h : removeMember userId groupId targetUserId db = .ok db') : SameEntries db db' := by
  unfold removeMember at h
  obtain ⟨_, _, h⟩ := bind_ok.mp h
  rw [deleteMember_ok h]
  exact sameEntries_same rfl rfl

/-! ## The invariant -/

structure Inv (s : Tombstones.State) : Prop where
  sequenced : Sequenced s.db
  numbered : Messaging.Numbered s.messaging
  positions : ∀ c, AppendLog.Numbered (·.threadSequence) (logs s.db c)

theorem start_inv (db : Db) : Inv (start db) :=
  ⟨sequenced_of_empty rfl (fun m hm => by cases hm), start_numbered db, fun _ => numbered_nil⟩

/-- A step that leaves the calls alone and rewrites marks and other tables. -/
theorem Inv.store {s : Tombstones.State} (h : Inv s) {db : Db} (hsame : SameEntries s.db db) :
    Inv (s.store db) := by
  refine ⟨hsame.sequenced h.sequenced, hsame.numbered h.numbered, ?_⟩
  intro c
  show AppendLog.Numbered _ (logs db c)
  rw [hsame.logs]
  exact h.positions c

theorem logs_append {db db' : Db} {m : Message} (h : db'.messages = db.messages ++ [m])
    (c : Conversation) : logs db' c = logs db c ++ if c.has m then [entry m] else [] := by
  unfold logs messagesOf
  rw [h, List.filter_append, List.map_append, List.filter_singleton]
  cases c.has m <;> rfl

/-- The message belongs to one conversation, under the number after its last. -/
structure Next (db : Db) (m : Message) (c : Conversation) : Prop where
  has : c.has m = true
  only : ∀ d : Conversation, d ≠ c → d.has m = false
  sequence : m.threadSequence = (logs db c).length + 1

theorem length_logs_thread (threadId : Id) (db : Db) :
    (logs db (.thread threadId)).length = (threadSequences threadId db).length := by
  unfold logs messagesOf threadSequences
  rw [List.length_map, List.length_map]
  rfl

theorem length_logs_group (groupId : Id) (db : Db) :
    (logs db (.group groupId)).length = (groupSequences groupId db).length := by
  unfold logs messagesOf groupSequences
  rw [List.length_map, List.length_map]
  rfl

theorem gapless_length {n : Nat} {seqs : List Nat} (h : Gapless n seqs) : seqs.length = n := by
  rw [List.Perm.length_eq h, List.length_range']

/-- A message in a thread and in no group. -/
theorem next_thread {db : Db} {m : Message} {threadId : Id} (ht : m.threadId = some threadId)
    (hg : m.groupId = none) (hn : m.threadSequence = (logs db (.thread threadId)).length + 1) :
    Next db m (.thread threadId) := by
  refine ⟨?_, ?_, hn⟩
  · simp [Conversation.has, ht]
  · intro d hd
    cases d with
    | thread id =>
        have hne : id ≠ threadId := fun he => hd (he ▸ rfl)
        simpa [Conversation.has, ht] using hne.symm
    | group id => simp [Conversation.has, hg]

theorem next_group {db : Db} {m : Message} {groupId : Id} (ht : m.threadId = none)
    (hg : m.groupId = some groupId) (hn : m.threadSequence = (logs db (.group groupId)).length + 1) :
    Next db m (.group groupId) := by
  refine ⟨?_, ?_, hn⟩
  · simp [Conversation.has, hg]
  · intro d hd
    cases d with
    | thread id => simp [Conversation.has, ht]
    | group id =>
        have hne : id ≠ groupId := fun he => hd (he ▸ rfl)
        simpa [Conversation.has, hg] using hne.symm

/-- A posted message takes the number after the counter of its thread, which counts the log. -/
theorem posted_next {threadId : Id} {pair : Id × Id} {m : Message}
    {envelopes : List MessageEnvelope} {db db' : Db} (h : Posted threadId pair m envelopes db db')
    (hlt : pair.1 < pair.2) (hs : Sequenced db) : ∃ c, Next db m c := by
  obtain ⟨thread, x, db₁, media, hu, hx, hid, ht, hg, hn, _, _, _⟩ := h
  have hgapless := (upsertThread_sequenced hu hlt hs).gapless x hx
  have hsame : threadSequences x.id db₁ = threadSequences x.id db := by
    rw [upsertThread_frame hu]
    rfl
  rw [hsame] at hgapless
  refine ⟨.thread thread.id, next_thread ht hg ?_⟩
  rw [length_logs_thread, ← hid, gapless_length hgapless, hn]
  rfl

theorem inserts_next {s : Messaging.State} {a : Messaging.Act} {db' : Db} {m : Message}
    (h : Inserts s db' a m) (hs : Sequenced s.db) (hn : Messaging.Numbered s) :
    ∃ c, Next s.db m c := by
  have hclash := h.messages.1
  cases h with
  | posted hc htx =>
      obtain ⟨_, _, _, hroute, _, hp⟩ := DirectTask.tx_ok htx
      exact posted_next hp (canonicalDirectPair_lt (routeDevices_ne hroute)) hs
  | @committed pid t sequence replyTo now messageId mediaId hc hdb =>
      have hgroup := groupMessage_group now messageId t.request sequence replyTo
      have hread := hn.read pid
      rw [hc] at hread
      have hrange : InRange s.db t.request.groupId
          (groupMessage now messageId t.request sequence replyTo).threadSequence := by
        rw [groupMessage_sequence]
        exact hread
      refine ⟨.group t.request.groupId, next_group (groupMessage_thread ..) hgroup ?_⟩
      rw [length_logs_group]
      exact hn.next hgroup hrange hclash

/-- The log of its conversation gets the message, the others stay. -/
theorem Next.moves {db db' : Db} {m : Message} {c : Conversation} (h : Next db m c)
    (hm : db'.messages = db.messages ++ [m]) : AppendLog.Moves (logs db) (logs db') := by
  refine Or.inr ⟨c, entry m, ?_, ?_⟩
  · rw [logs_append hm, if_pos h.has]
  · intro d hd
    rw [logs_append hm, h.only d hd, if_neg Bool.false_ne_true, List.append_nil]

theorem Next.positions {db db' : Db} {m : Message} {c : Conversation} (h : Next db m c)
    (hm : db'.messages = db.messages ++ [m])
    (hp : ∀ d, AppendLog.Numbered (·.threadSequence) (logs db d)) :
    ∀ d, AppendLog.Numbered (·.threadSequence) (logs db' d) := by
  intro d
  by_cases hd : d = c
  · subst hd
    rw [logs_append hm, if_pos h.has]
    exact numbered_snoc.mpr ⟨hp d, h.sequence⟩
  · rw [logs_append hm, h.only d hd, if_neg Bool.false_ne_true, List.append_nil]
    exact hp d

section Steps

variable {env : AuthEnv} {configuredMax : Option Int} (s : Tombstones.State)

/-- What one step can do: append to one log, or store what differs in marks and other tables
and leave the calls alone. -/
theorem step_cases (a : Act) :
    (∃ b, a = .message (.message b)) ∨
    ∃ db, (step env configuredMax s a).messaging = { s.messaging with db := db } ∧
      SameEntries s.db db := by
  have hstay : ∃ db, s.messaging = { s.messaging with db := db } ∧ SameEntries s.db db :=
    ⟨s.db, rfl, sameEntries_same rfl rfl⟩
  cases a with
  | message a =>
      cases a with
      | message b => exact Or.inl ⟨b, rfl⟩
      | edit limit now userId messageId dto =>
          exact Or.inr ⟨_, rfl, edit_sameEntries limit now userId messageId dto s.db⟩
      | editGroupMessage limit now addFails senderUserId groupId messageId dto =>
          exact Or.inr ⟨_, rfl, editGroupMessage_sameEntries limit now addFails senderUserId groupId
            messageId dto s.db s.editJobs⟩
      | delete limit now userId messageId dto =>
          right
          simp only [step, Tombstones.step]
          split
          · rename_i hok
            exact ⟨_, rfl, delete_sameEntries hok⟩
          · exact hstay
      | tombstoneMessage now actor role messageId dto =>
          exact Or.inr ⟨_, rfl, tombstoneMessage_sameEntries now actor role messageId dto s.db⟩
      | untombstoneMessage actor role messageId reason =>
          exact Or.inr ⟨_, rfl, untombstoneMessage_sameEntries actor role messageId reason s.db⟩
      | suspendUser now sid actor role target dto =>
          exact Or.inr ⟨_, rfl, suspendUser_sameEntries now sid actor role target dto s.db⟩
  | createGroup groupId creatorUserId dto =>
      right
      simp only [step]
      split
      · rename_i hok
        exact ⟨_, rfl, createGroup_sameEntries hok⟩
      · exact hstay
  | addMembers userId groupId memberIds =>
      right
      simp only [step]
      split
      · rename_i hok
        exact ⟨_, rfl, addMembers_sameEntries hok⟩
      · exact hstay
  | removeMember userId groupId targetUserId =>
      right
      simp only [step]
      split
      · rename_i hok
        exact ⟨_, rfl, removeMember_sameEntries hok⟩
      · exact hstay

theorem step_inv (a : Act) (h : Inv s) : Inv (step env configuredMax s a) := by
  rcases step_cases s a with ⟨b, rfl⟩ | ⟨db, he, hsame⟩
  · have hnumbered := step_numbered env configuredMax s.messaging b h.numbered
    have heffect := exec_effect env configuredMax s.messaging b
    refine ⟨heffect.sequenced h.sequenced, hnumbered, ?_⟩
    rcases heffect.inserts with hsame | ⟨m, hm⟩
    · intro c
      have hlogs := (sameEntries_same hsame.messages hsame.threads).logs
      show AppendLog.Numbered _ (logs (Messaging.step env configuredMax s.messaging b).db c)
      rw [show logs (Messaging.step env configuredMax s.messaging b).db = logs s.db from hlogs]
      exact h.positions c
    · obtain ⟨c, hnext⟩ := inserts_next hm h.sequenced h.numbered
      exact hnext.positions hm.messages.2 h.positions
  · have hstore := h.store hsame
    refine ⟨?_, ?_, ?_⟩
    · show Sequenced (step env configuredMax s a).messaging.db
      rw [he]
      exact hstore.sequenced
    · rw [he]
      exact hstore.numbered
    · show ∀ c, AppendLog.Numbered _ (logs (step env configuredMax s a).messaging.db c)
      rw [he]
      exact hstore.positions

theorem step_moves (a : Act) (h : Inv s) :
    AppendLog.Moves (logs s.db) (logs (step env configuredMax s a).db) := by
  rcases step_cases s a with ⟨b, rfl⟩ | ⟨db, he, hsame⟩
  · rcases (exec_effect env configuredMax s.messaging b).inserts with hsame | ⟨m, hm⟩
    · exact Or.inl (sameEntries_same hsame.messages hsame.threads).logs
    · obtain ⟨c, hnext⟩ := inserts_next hm h.sequenced h.numbered
      exact hnext.moves hm.messages.2
  · left
    show logs (step env configuredMax s a).messaging.db = logs s.db
    rw [he]
    exact hsame.logs

end Steps

variable (env : AuthEnv) (configuredMax : Option Int)

theorem run_inv (db : Db) (acts : List Act) : Inv (run (step env configuredMax) (start db) acts) :=
  run_invariant (fun s a h => step_inv s a h) acts (start db) (start_inv db)

/-- In every interleaving each step appends at most one message to the log of one
conversation, nothing that was appended is lost or changed later but for its marks, and every
message stands at the position its number says. -/
theorem conversations_append_only (db : Db) (acts : List Act) :
    Along (step env configuredMax)
      (fun s a => AppendLog.Moves (logs s.db) (logs (step env configuredMax s a).db)) (start db) acts ∧
    Later (step env configuredMax) (fun s t => AppendLog.Extends (logs s.db) (logs t.db)) (start db) acts ∧
    Always (step env configuredMax)
      (fun s => ∀ c, AppendLog.Numbered (·.threadSequence) (logs s.db c)) (start db) acts := by
  have hmoves : Along (step env configuredMax)
      (fun s a => AppendLog.Moves (logs s.db) (logs (step env configuredMax s a).db)) (start db) acts :=
    fun pre a _ => step_moves _ a (run_inv env configuredMax db pre)
  have hlater := later_extends hmoves
  exact ⟨hmoves, hlater,
    fun pre _ => (run_inv env configuredMax db pre).positions⟩

/-! ## Pages -/

section Pages

variable {orders : Orders} {c : Conversation} {opts : HistoryOptions} {db : Db}

theorem messagesOf_numbered (h : AppendLog.Numbered (·.threadSequence) (logs db c)) :
    AppendLog.Numbered (·.threadSequence) (messagesOf c db) := by
  unfold AppendLog.Numbered logs at h
  rw [List.map_map, List.length_map] at h
  exact h

/-- The rows a call selects, by their positions. -/
theorem selected_eq (h : AppendLog.Numbered (·.threadSequence) (messagesOf c db)) :
    (db.messages.filter fun m => c.has m && (sequenceFilter opts).all (·.holds m)) =
      (match opts.afterSequence, opts.beforeSequence with
        | some after, _ => (messagesOf c db).drop after.toNat
        | none, some before => (messagesOf c db).take (before - 1).toNat
        | none, none => messagesOf c db) := by
  have hsplit : (db.messages.filter fun m => c.has m && (sequenceFilter opts).all (·.holds m)) =
      (messagesOf c db).filter fun m => (sequenceFilter opts).all (·.holds m) := by
    unfold messagesOf
    rw [List.filter_filter]
    exact List.filter_congr fun m _ => Bool.and_comm _ _
  rw [hsplit]
  unfold sequenceFilter spread
  cases hafter : opts.afterSequence with
  | some after => exact h.filter_gt after
  | none =>
      cases hbefore : opts.beforeSequence with
      | some before => exact h.filter_lt before
      | none => exact List.filter_eq_self.mpr fun _ _ => rfl

/-- The numbers rise along what a call selects. -/
theorem selected_increasing (h : AppendLog.Numbered (·.threadSequence) (messagesOf c db)) :
    (db.messages.filter fun m => c.has m && (sequenceFilter opts).all (·.holds m)).Pairwise
      fun a b => a.threadSequence < b.threadSequence := by
  have hsub : (db.messages.filter fun m => c.has m && (sequenceFilter opts).all (·.holds m)).Sublist
      (messagesOf c db) := by
    refine List.monotone_filter_right db.messages ?_
    intro m hm
    exact (Bool.and_eq_true_iff.mp hm).1
  exact h.increasing.sublist hsub

/-- The rows of a page are a page of the log. -/
theorem page_eq (h : AppendLog.Numbered (·.threadSequence) (messagesOf c db)) :
    History.page orders c.has opts db =
      AppendLog.page (min (opts.limit.getD 50) 100) opts.beforeSequence opts.afterSequence
        (messagesOf c db) := by
  unfold History.page
  rw [arrange_reverse orders.messages (selected_increasing h), reverse_take_reverse, selected_eq h]
  rfl

theorem getMessages_ok {userId : Id} {answer : List HistoryMessage}
    (h : getMessages orders c userId opts db = .ok answer) :
    answer = history orders c.has opts db := by
  cases c with
  | thread threadId =>
      unfold getMessages DirectThreads.getMessages at h
      dsimp only at h
      split at h
      · cases h
      · split at h
        · cases h
        · exact (Except.ok.inj h).symm
  | group groupId =>
      unfold getMessages Groups.getMessages at h
      dsimp only at h
      split at h
      · cases h
      · exact (Except.ok.inj h).symm

end Pages

/-- In every state of every interleaving, `getMessages` answers with a page of the log: the
newest messages below `beforeSequence`, or above `afterSequence` where that is given, as many
as the limit allows, oldest first. -/
theorem history_is_page (db : Db) (acts : List Act) (orders : Orders) (c : Conversation) (userId : Id)
    (opts : HistoryOptions) (answer : List HistoryMessage)
    (h : getMessages orders c userId opts (run (step env configuredMax) (start db) acts).db =
      .ok answer) :
    answer.map (·.toSyncedMessage) =
      AppendLog.page (min (opts.limit.getD 50) 100) opts.beforeSequence opts.afterSequence
        ((messagesOf c (run (step env configuredMax) (start db) acts).db).map syncedMessage) := by
  have hnumbered := messagesOf_numbered ((run_inv env configuredMax db acts).positions c)
  rw [getMessages_ok h, history_views, page_eq hnumbered, map_page]

/-- Alice's message number `n` to Bob. -/
def sendNumber (n : Nat) : List Act :=
  [.message (.message (.send 0 "alice" (sampleDto s!"send-key-{n}"))),
   .message (.message (.tx 0 (sampleCtx s!"m{n}")))]

/-- Of three messages Bob asks for the newest two. -/
theorem newest_two_of_three :
    (history storedOrder (Conversation.has · (.thread "t1")) { limit := some 2 }
      (run (step Devices.sampleEnv none) (start sampleDb)
        (sendNumber 1 ++ sendNumber 2 ++ sendNumber 3)).db).map (·.toSyncedMessage) =
      AppendLog.page 2 none none ((messagesOf (.thread "t1") (run (step Devices.sampleEnv none)
        (start sampleDb) (sendNumber 1 ++ sendNumber 2 ++ sendNumber 3)).db).map syncedMessage) :=
  history_is_page Devices.sampleEnv none sampleDb (sendNumber 1 ++ sendNumber 2 ++ sendNumber 3)
    storedOrder (.thread "t1") "bob" { limit := some 2 } _
    (getMessages_readable ⟨_, rfl, .inr rfl⟩)

/-- A page below a number in use, or below the next one, is made of the same messages whenever
it is asked for. -/
theorem older_page_stable (db : Db) (acts more : List Act) (orders orders' : Orders)
    (c : Conversation) (userId userId' : Id) (limit : Option Nat) (before : Int)
    (answer answer' : List HistoryMessage)
    (hbefore : before ≤ (messagesOf c (run (step env configuredMax) (start db) acts).db).length + 1)
    (h : getMessages orders c userId { limit, beforeSequence := some before }
      (run (step env configuredMax) (start db) acts).db = .ok answer)
    (h' : getMessages orders' c userId' { limit, beforeSequence := some before }
      (run (step env configuredMax) (start db) (acts ++ more)).db = .ok answer') :
    answer'.map (·.toPendingMessage) = answer.map (·.toPendingMessage) := by
  have hext := (conversations_append_only env configuredMax db (acts ++ more)).2.1 acts more
    (List.prefix_refl _) c
  -- the columns of a page are columns of the entries of the log
  have hview : ∀ (o : Orders) (u : Id) (as : List Act) (found : List HistoryMessage),
      getMessages o c u { limit, beforeSequence := some before }
        (run (step env configuredMax) (start db) as).db = .ok found →
      found.map (·.toPendingMessage) = AppendLog.page (min (limit.getD 50) 100) (some before) none
        ((logs (run (step env configuredMax) (start db) as).db c).map pendingMessage) := by
    intro o u as found hfound
    have hpage := congrArg (List.map (·.toPendingMessage))
      (history_is_page env configuredMax db as o c u _ found hfound)
    rw [List.map_map, map_page, List.map_map] at hpage
    unfold logs
    rw [List.map_map]
    exact hpage
  rw [hview orders' userId' (acts ++ more) answer' h', hview orders userId acts answer h]
  refine page_stable (hext.map pendingMessage) _ ?_
  unfold logs
  rw [List.length_map, List.length_map]
  exact hbefore

/-- The page below the second message, asked for before and after two more are sent. -/
theorem first_page_kept :
    ((history storedOrder (Conversation.has · (.thread "t1")) { limit := none, beforeSequence := some 2 }
      (run (step Devices.sampleEnv none) (start sampleDb) (sendNumber 1 ++
        (sendNumber 2 ++ sendNumber 3))).db).map fun x => x.toPendingMessage) =
    ((history storedOrder (Conversation.has · (.thread "t1")) { limit := none, beforeSequence := some 2 }
      (run (step Devices.sampleEnv none) (start sampleDb) (sendNumber 1)).db).map
        fun x => x.toPendingMessage) :=
  older_page_stable Devices.sampleEnv none sampleDb (sendNumber 1) (sendNumber 2 ++ sendNumber 3)
    storedOrder storedOrder (.thread "t1") "alice" "bob" none 2 _ _ (by decide)
    (getMessages_readable ⟨_, rfl, .inl rfl⟩) (getMessages_readable ⟨_, rfl, .inr rfl⟩)

end Birgap.Messaging.Log
