import Birgap.Messages.Access
import Birgap.Lib.Rows
import Mathlib.Data.List.Induction

/-!
# Reactions

`ReactionsService`: one reaction of a user on a message, the counts of a message with
their cache, and the events a change sends. A reaction on a message of a direct thread is
sent through the gateway at once; one on a group message becomes a fan-out job.
-/
namespace Birgap.Reactions

set_option autoImplicit false

open Birgap.Lib Birgap.Lib.Tx Birgap.Messages

/-- The payload both socket events share. -/
structure ReactionPayload where
  reactionId : Id
  messageId : Id
  userId : Id
  emoji : String
  threadId : Option Id
  groupId : Option Id
  deriving DecidableEq

/-- `type` of a change. -/
inductive ChangeType where
  | created
  | removed
  deriving DecidableEq

/-- What the gateway emits to the room of a user; `createdAt` goes with a new reaction. -/
inductive SocketEvent where
  | reactionNew (payload : ReactionPayload) (createdAt : Time)
  | reactionRemoved (payload : ReactionPayload)
  deriving DecidableEq

structure ReactionFanoutJobData where
  reactionId : Id
  messageId : Id
  groupId : Id
  userId : Id
  emoji : String
  createdAt : Time
  type : ChangeType
  deriving DecidableEq

/-- What a change sends: the socket events by receiving user, and the queued jobs. -/
structure Sent where
  events : List (Id × SocketEvent) := []
  jobs : List ReactionFanoutJobData := []
  deriving DecidableEq

/-- The counts of a message as `cacheReactions` stores them. -/
abbrev Counts := List (String × Nat)

structure Store where
  db : Db
  cache : Id → Option Counts

structure ReactionCount where
  emoji : String
  count : Nat
  reacted : Bool
  deriving DecidableEq

structure ToggleResult where
  type : ChangeType
  emoji : String
  reactionId : Id
  deriving DecidableEq

/-- The unique key `userId_messageId`. -/
def reactionKey (r : MessageReaction) : Id × Id := (r.userId, r.messageId)

def findReaction (userId messageId : Id) (db : Db) : Option MessageReaction :=
  db.messageReactions.find? fun r => r.userId == userId && r.messageId == messageId

def deleteReaction (id : Id) (db : Db) : Db :=
  { db with messageReactions := db.messageReactions.filter fun r => r.id != id }

/-- The upsert of `toggle` on a row that exists. -/
def changeEmoji (userId messageId : Id) (emoji : String) (db : Db) : Db :=
  { db with
    messageReactions := Rows.updateMany (fun r => r.userId == userId && r.messageId == messageId)
      (fun r => { r with emoji := emoji }) db.messageReactions }

/-- The transaction of `toggle`. -/
def toggleTx (now : Time) (reactionId userId messageId : Id) (emoji : String) (db : Db) :
    Except Err (ToggleResult × Db) :=
  match findReaction userId messageId db with
  | some existing =>
      if existing.emoji = emoji then
        .ok (⟨.removed, existing.emoji, existing.id⟩, deleteReaction existing.id db)
      else .ok (⟨.created, emoji, existing.id⟩, changeEmoji userId messageId emoji db)
  | none =>
      if db.messageReactions.any (·.id == reactionId) then .error .uniqueConstraint
      else
        .ok (⟨.created, emoji, reactionId⟩,
          { db with
            messageReactions := db.messageReactions ++
              [{ id := reactionId, messageId, userId, emoji, createdAt := now }] })

/-- The transaction of `remove`. -/
def removeTx (userId messageId : Id) (db : Db) : Option MessageReaction × Db :=
  match findReaction userId messageId db with
  | none => (none, db)
  | some existing => (some existing, deleteReaction existing.id db)

/-- `RealtimeGateway.onReactionCreated` and `onReactionRemoved`. -/
def gatewayEvents (type : ChangeType) (payload : ReactionPayload) (createdAt : Time)
    (targetUserIds : List Id) : List (Id × SocketEvent) :=
  targetUserIds.map fun target =>
    match type with
    | .created => (target, .reactionNew payload createdAt)
    | .removed => (target, .reactionRemoved payload)

/-- `emitReactionEvent`. -/
def emitReactionEvent (now : Time) (type : ChangeType) (reactionId : Id) (message : Message)
    (userId : Id) (emoji : String) (db : Db) : Sent :=
  match message.groupId, message.threadId with
  | some groupId, _ =>
      { jobs := [{ reactionId, messageId := message.id, groupId, userId, emoji, createdAt := now
                   type }] }
  | none, some threadId =>
      match db.directThreads.find? (·.id == threadId) with
      | none => {}
      | some thread =>
          let targetUserIds := [thread.userAId, thread.userBId].filter (· != userId)
          { events := gatewayEvents type
              { reactionId, messageId := message.id, userId, emoji, threadId := some threadId
                groupId := none } now targetUserIds }
  | none, none => {}

def Store.invalidate (s : Store) (messageId : Id) : Store :=
  { s with cache := fun m => if m = messageId then none else s.cache m }

/-- `ReactionsService.toggle`. -/
def toggle (now : Time) (reactionId userId messageId : Id) (emoji : String) (s : Store) :
    Except Err (ToggleResult × Store × Sent) := do
  let message ← reactionAccess userId messageId s.db
  let (result, db) ← toggleTx now reactionId userId messageId emoji s.db
  pure (result, { s with db := db }.invalidate messageId,
    emitReactionEvent now result.type result.reactionId message userId result.emoji s.db)

/-- `ReactionsService.remove`; answers whether there was a reaction. -/
def remove (now : Time) (userId messageId : Id) (s : Store) :
    Except Err (Bool × Store × Sent) := do
  let message ← reactionAccess userId messageId s.db
  match removeTx userId messageId s.db with
  | (none, _) => pure (false, s, {})
  | (some existing, db) =>
      pure (true, { s with db := db }.invalidate messageId,
        emitReactionEvent now .removed existing.id message userId existing.emoji s.db)

/-- `counts.set(emoji, (counts.get(emoji) ?? 0) + 1)` on an insertion-ordered map. -/
def bump (counts : Counts) (emoji : String) : Counts :=
  if counts.any (·.1 == emoji) then
    Rows.updateMany (·.1 == emoji) (fun c => (c.1, c.2 + 1)) counts
  else counts ++ [(emoji, 1)]

def aggregate (rows : List MessageReaction) : Counts :=
  rows.foldl (fun counts r => bump counts r.emoji) []

/-- `ReactionsService.getAggregated`. -/
def getAggregated (userId messageId : Id) (s : Store) :
    Except Err (List ReactionCount × Store) := do
  let _ ← reactionAccess userId messageId s.db
  let mine := (findReaction userId messageId s.db).map (·.emoji)
  let answer (counts : Counts) : List ReactionCount :=
    counts.map fun c => { emoji := c.1, count := c.2, reacted := mine == some c.1 }
  match s.cache messageId with
  | some cached => pure (answer cached, s)
  | none =>
      let counts := aggregate (s.db.messageReactions.filter (·.messageId == messageId))
      pure (answer counts,
        { s with cache := fun m => if m = messageId then some counts else s.cache m })

/-! ## Counting -/

/-- The stored reactions on a message with an emoji. -/
def stored (messageId : Id) (emoji : String) (db : Db) : Nat :=
  db.messageReactions.countP fun r => r.messageId == messageId && r.emoji == emoji

/-- The entry of an emoji, zero when there is none. -/
def lookup (emoji : String) (counts : Counts) : Nat :=
  ((counts.find? (·.1 == emoji)).map (·.2)).getD 0

theorem lookup_bump (counts : Counts) (e emoji : String) :
    lookup e (bump counts emoji) = lookup e counts + if emoji = e then 1 else 0 := by
  unfold bump lookup
  split
  · rename_i hany
    rw [Rows.find?_updateMany (f := fun c => (c.1, c.2 + 1)) (fun _ => rfl)]
    cases hfind : counts.find? (·.1 == e) with
    | none =>
        -- the bumped entry exists, so it is not the one asked for
        obtain ⟨c, hc, hkey⟩ := List.any_eq_true.mp hany
        have hne : emoji ≠ e := by
          rintro rfl
          exact List.find?_eq_none.mp hfind c hc hkey
        simp [hne]
    | some c =>
        have hkey : c.1 = e := by simpa using List.find?_some hfind
        by_cases he : emoji = e
        · simp [hkey, he]
        · have hne : ¬ e = emoji := fun h => he h.symm
          simp [hkey, he, hne]
  · rename_i hnone
    rw [List.find?_append]
    cases hfind : counts.find? (·.1 == e) with
    | none =>
        by_cases he : emoji = e
        · simp [he]
        · simp [he]
    | some c =>
        have hkey := List.find?_some hfind
        have hne : emoji ≠ e := by
          rintro rfl
          exact hnone (List.any_eq_true.mpr ⟨c, List.mem_of_find?_eq_some hfind, hkey⟩)
        simp [hne]

/-- The counts of `getAggregated` are the numbers of rows. -/
theorem lookup_aggregate (e : String) (rows : List MessageReaction) :
    lookup e (aggregate rows) = rows.countP (·.emoji == e) := by
  induction rows using List.reverseRecOn with
  | nil => rfl
  | append_singleton rows r ih =>
      have hlast : aggregate (rows ++ [r]) = bump (aggregate rows) r.emoji := by
        simp [aggregate, List.foldl_append]
      rw [hlast, lookup_bump, ih, List.countP_append, List.countP_singleton]
      simp

theorem lookup_aggregate_stored (e : String) (messageId : Id) (db : Db) :
    lookup e (aggregate (db.messageReactions.filter (·.messageId == messageId))) =
      stored messageId e db := by
  rw [lookup_aggregate, List.countP_filter]
  unfold stored
  congr 1
  funext r
  exact Bool.and_comm _ _

/-! ## What a change does to the numbers of rows -/

theorem findReaction_some {userId messageId : Id} {db : Db} {r : MessageReaction}
    (h : findReaction userId messageId db = some r) :
    r ∈ db.messageReactions ∧ r.userId = userId ∧ r.messageId = messageId := by
  have hkey : r.userId = userId ∧ r.messageId = messageId := by simpa using List.find?_some h
  exact ⟨List.mem_of_find?_eq_some h, hkey⟩

theorem stored_delete {db : Db} {r : MessageReaction} (hu : Rows.Unique (·.id) db.messageReactions)
    (hr : r ∈ db.messageReactions) (m : Id) (e : String) :
    stored m e (deleteReaction r.id db) + (if r.messageId = m ∧ r.emoji = e then 1 else 0) =
      stored m e db := by
  have h := hu.countP_filter_ne hr fun a => a.messageId == m && a.emoji == e
  simpa [stored, deleteReaction] using h

theorem stored_changeEmoji {db : Db} {r : MessageReaction}
    (hu : Rows.Unique reactionKey db.messageReactions) (hr : r ∈ db.messageReactions)
    (emoji : String) (m : Id) (e : String) :
    stored m e (changeEmoji r.userId r.messageId emoji db) +
        (if r.messageId = m ∧ r.emoji = e then 1 else 0) =
      stored m e db + (if r.messageId = m ∧ emoji = e then 1 else 0) := by
  have h := hu.countP_updateMany hr (fun r => { r with emoji := emoji })
    fun a => a.messageId == m && a.emoji == e
  have hcolumns : (fun a => instBEqOfDecidableEq.beq (reactionKey a) (reactionKey r)) =
      fun a => a.userId == r.userId && a.messageId == r.messageId := by
    funext a
    rw [Bool.eq_iff_iff]
    simp [reactionKey]
  rw [hcolumns] at h
  simpa [stored, changeEmoji] using h

theorem stored_create (db : Db) (r : MessageReaction) (m : Id) (e : String) :
    stored m e { db with messageReactions := db.messageReactions ++ [r] } =
      stored m e db + (if r.messageId = m ∧ r.emoji = e then 1 else 0) := by
  simp [stored, List.countP_append, List.countP_singleton]

end Birgap.Reactions
