import Birgap.Messaging.Log

/-!
# The list of direct conversations

`DirectThreadsService.findById`, `findByIdWithDetails`, `findByUser` and
`findByUserWithDetails`. In a state the messaging system can reach, the list of a user has one
entry for everyone the user has exchanged a message with, dated by the newest message, and
names exactly the threads whose details and history the user is given.
-/
namespace Birgap.DirectThreads

set_option autoImplicit false

open Birgap.Lib Birgap.Lib.Run Birgap.Lib.Paging Birgap.Messages Birgap.Messages.Sequence
  Birgap.Messaging Birgap.Auth

/-- The columns `createdAt` and `updatedAt` of the threads, and `createdAt` of the users. -/
structure Stamps where
  createdAt : Id → Time
  updatedAt : Id → Time
  userCreatedAt : Id → Time

/-- Both `orderBy` of the list, ties in any order. -/
structure Orders (stamps : Stamps) where
  threads : OrderBy fun t : DirectThread => OrderDual.toDual (stamps.updatedAt t.id)
  messages : OrderBy fun m : Message => OrderDual.toDual m.threadSequence

structure ThreadEntry where
  id : Id
  otherUserId : Id
  otherUserName : String
  otherUserAvatarUrl : Option String
  lastMessagePreview : Option String
  lastMessageAt : Time
  unreadCount : Nat
  createdAt : Time
  updatedAt : Time
  deriving DecidableEq

/-- `new Map(rows.map(...))`: of two rows with one key the later one counts. -/
def mapOf {α β : Type} (key : α → Id) (value : α → β) (rows : List α) : Id → Option β :=
  rows.foldl (fun map r => Function.update map (key r) (some (value r))) fun _ => none

def findById (id : Id) (db : Db) : Except Err DirectThread :=
  match db.directThreads.find? (·.id == id) with
  | none => .error (.notFound "DirectThread not found")
  | some thread => .ok thread

/-- The columns of a participant. -/
structure Participant where
  id : Id
  username : Option String
  profileAvatarUrl : Option String
  encryptedProfile : Option Ciphertext
  profileKeyHash : Option String
  createdAt : Time
  deriving DecidableEq

def participant (stamps : Stamps) (userId : Id) (db : Db) : Option Participant :=
  (db.users.find? (·.id == userId)).map fun u =>
    { id := u.id, username := u.username, profileAvatarUrl := u.profileAvatarUrl
      encryptedProfile := u.encryptedProfile, profileKeyHash := u.profileKeyHash
      createdAt := stamps.userCreatedAt u.id }

structure ThreadDetails where
  thread : DirectThread
  userA : Option Participant
  userB : Option Participant
  deriving DecidableEq

def findByIdWithDetails (stamps : Stamps) (id userId : Id) (db : Db) : Except Err ThreadDetails :=
  match findById id db with
  | .error e => .error e
  | .ok thread =>
      if thread.userAId ≠ userId ∧ thread.userBId ≠ userId then
        .error (.forbidden "Cannot query a thread you are not part of")
      else
        .ok ⟨thread, participant stamps thread.userAId db, participant stamps thread.userBId db⟩

section List

variable {stamps : Stamps} (orders : Orders stamps) (userId : Id) (db : Db)

def threadsOf : List DirectThread :=
  db.directThreads.filter fun t => t.userAId == userId || t.userBId == userId

def findByUser : List DirectThread := orders.threads.arrange (threadsOf userId db)

/-- The `include` of one message, the newest. -/
def lastMessage (t : DirectThread) : Option Message :=
  ((orders.messages.arrange (db.messages.filter (·.threadId == some t.id))).take 1).head?

def otherUserId (t : DirectThread) : Id := if t.userAId = userId then t.userBId else t.userAId

/-- `findByUserWithDetails`. -/
def findByUserWithDetails : List ThreadEntry :=
  let threads := findByUser orders userId db
  let unreadCounts := db.unreadCounters.filter fun u =>
    u.userId == userId && u.threadType == .direct && (threads.map (·.id)).contains u.threadId
  let unreadMap := mapOf (·.threadId) (·.count) unreadCounts
  let otherUsers := db.users.filter fun u => (threads.map (otherUserId userId)).contains u.id
  let userMap := mapOf (·.id) id otherUsers
  threads.map fun thread =>
    let otherUser := userMap (otherUserId userId thread)
    { id := thread.id
      otherUserId := otherUserId userId thread
      otherUserName :=
        ((otherUser.bind (·.username)).or (otherUser.bind (·.phoneMasked))).getD "Unknown"
      otherUserAvatarUrl := otherUser.bind (·.profileAvatarUrl)
      lastMessagePreview := none
      lastMessageAt := ((lastMessage orders db thread).map (·.createdAt)).getD
        (stamps.updatedAt thread.id)
      unreadCount := (unreadMap thread.id).getD 0
      createdAt := stamps.createdAt thread.id
      updatedAt := stamps.updatedAt thread.id }

end List

/-! ## What is asked of a list -/

/-- The counter rows of the user for a thread, of which there is one at most. -/
def countersOf (userId threadId : Id) (db : Db) : List UnreadCounter :=
  db.unreadCounters.filter fun u =>
    u.userId == userId && u.threadType == .direct && u.threadId == threadId

structure Listing (stamps : Stamps) (userId : Id) (db : Db) (entries : List ThreadEntry) : Prop where
  /-- Everyone the user shares a message with is listed, and nobody else. -/
  peers : ∀ peer, peer ∈ entries.map (·.otherUserId) ↔
    ∃ t ∈ db.directThreads, Joins userId peer t ∧ ∃ m ∈ db.messages, m.threadId = some t.id
  once : (entries.map (·.otherUserId)).Nodup
  notSelf : ∀ e ∈ entries, e.otherUserId ≠ userId
  /-- The date is that of the message with the highest number. -/
  newest : ∀ e ∈ entries, ∃ m ∈ db.messages, m.threadId = some e.id ∧ e.lastMessageAt = m.createdAt ∧
    ∀ x ∈ db.messages, x.threadId = some e.id → x.threadSequence ≤ m.threadSequence
  sorted : entries.Pairwise fun a b => b.updatedAt ≤ a.updatedAt
  unread : ∀ e ∈ entries,
    e.unreadCount = (((countersOf userId e.id db).getLast?).map (·.count)).getD 0
  /-- The user is given the details and the history of the listed threads. -/
  opens : ∀ id, (∃ details, findByIdWithDetails stamps id userId db = .ok details) ↔
    id ∈ entries.map (·.id)
  reads : ∀ id orders opts, (∃ messages,
    History.DirectThreads.getMessages orders id userId opts db = .ok messages) ↔
      id ∈ entries.map (·.id)

/-- Every thread has a message. -/
def NoneEmpty (db : Db) : Prop := ∀ t ∈ db.directThreads, 1 ≤ t.latestSequence

/-! ## The lists in memory -/

theorem mapOf_eq {α β : Type} (key : α → Id) (value : α → β) (rows : List α) (k : Id) :
    mapOf key value rows k = ((rows.filter (key · == k)).getLast?).map value := by
  induction rows using List.reverseRecOn with
  | nil => rfl
  | append_singleton rows r ih =>
      have hstep : mapOf key value (rows ++ [r]) k =
          if key r = k then some (value r) else mapOf key value rows k := by
        unfold mapOf
        rw [List.foldl_append]
        by_cases hk : key r = k
        · subst hk
          simp
        · rw [if_neg hk]
          exact Function.update_of_ne (Ne.symm hk) _ _
      rw [hstep, List.filter_append, List.filter_singleton]
      by_cases hk : key r = k
      · simp [hk]
      · rw [if_neg hk, ih, beq_false_of_ne hk, cond_false, List.append_nil]

section Entries

variable {stamps : Stamps} {orders : Orders stamps} {userId : Id} {db : Db}

theorem mem_findByUser {t : DirectThread} :
    t ∈ findByUser orders userId db ↔ t ∈ db.directThreads ∧ (t.userAId = userId ∨ t.userBId = userId) := by
  unfold findByUser threadsOf
  rw [OrderBy.mem_arrange, List.mem_filter]
  simp

theorem entries_ids : (findByUserWithDetails orders userId db).map (·.id) =
    (findByUser orders userId db).map (·.id) := by
  unfold findByUserWithDetails
  rw [List.map_map]
  rfl

theorem entries_others : (findByUserWithDetails orders userId db).map (·.otherUserId) =
    (findByUser orders userId db).map (otherUserId userId) := by
  unfold findByUserWithDetails
  rw [List.map_map]
  rfl

theorem mem_entry {e : ThreadEntry} (he : e ∈ findByUserWithDetails orders userId db) :
    ∃ t ∈ findByUser orders userId db, e.id = t.id ∧ e.otherUserId = otherUserId userId t ∧
      e.lastMessageAt = ((lastMessage orders db t).map (·.createdAt)).getD (stamps.updatedAt t.id) ∧
      e.unreadCount = (mapOf (·.threadId) (·.count) (db.unreadCounters.filter fun u =>
        u.userId == userId && u.threadType == .direct &&
          ((findByUser orders userId db).map (·.id)).contains u.threadId) t.id).getD 0 := by
  obtain ⟨t, ht, rfl⟩ := List.mem_map.mp he
  exact ⟨t, ht, rfl, rfl, rfl, rfl⟩

/-- A thread of the user joins the user and the other one, who is somebody else. -/
theorem joins_other (hs : Sequenced db) {t : DirectThread} (ht : t ∈ findByUser orders userId db) :
    Joins userId (otherUserId userId t) t ∧ otherUserId userId t ≠ userId := by
  obtain ⟨hmem, hpart⟩ := mem_findByUser.mp ht
  have hlt := hs.canonical t hmem
  unfold otherUserId
  by_cases ha : t.userAId = userId
  · rw [if_pos ha]
    refine ⟨Or.inl ⟨ha, rfl⟩, ?_⟩
    rw [← ha]
    exact (ne_of_lt hlt).symm
  · rw [if_neg ha]
    exact ⟨Or.inr ⟨rfl, hpart.resolve_left ha⟩, ha⟩

theorem other_of_joins {t : DirectThread} {peer : Id} (hs : Sequenced db) (ht : t ∈ db.directThreads)
    (hj : Joins userId peer t) : otherUserId userId t = peer := by
  have hlt := hs.canonical t ht
  unfold otherUserId
  rcases hj with ⟨ha, hb⟩ | ⟨ha, hb⟩
  · rw [if_pos ha, hb]
  · have hne : t.userAId ≠ userId := by
      rw [← hb]
      exact ne_of_lt hlt
    rw [if_neg hne, ha]

theorem findByUser_nodup (hs : Sequenced db) : (findByUser orders userId db).Nodup := by
  have hrows : db.directThreads.Nodup := List.Nodup.of_map _ hs.ids
  exact (orders.threads.perm _).nodup_iff.mpr (hrows.filter _)

/-- Two threads of the user lead to two different users. -/
theorem others_nodup (hs : Sequenced db) :
    ((findByUser orders userId db).map (otherUserId userId)).Nodup := by
  refine List.Nodup.map_on ?_ (findByUser_nodup hs)
  intro t ht u hu he
  have hjt := (joins_other hs ht).1
  have hju := (joins_other hs hu).1
  rw [← he] at hju
  exact hs.joins_eq (mem_findByUser.mp ht).1 (mem_findByUser.mp hu).1 hjt hju

/-- A thread whose counter has moved has a message, and the newest one is included. -/
theorem lastMessage_newest (hs : Sequenced db) (hne : NoneEmpty db) {t : DirectThread}
    (ht : t ∈ db.directThreads) : ∃ m ∈ db.messages, lastMessage orders db t = some m ∧
      m.threadId = some t.id ∧
      ∀ x ∈ db.messages, x.threadId = some t.id → x.threadSequence ≤ m.threadSequence := by
  have hmem : t.latestSequence ∈ threadSequences t.id db :=
    (hs.gapless t ht).mem_iff.mpr ⟨hne t ht, le_refl _⟩
  obtain ⟨x, hx, _⟩ := List.mem_map.mp hmem
  unfold lastMessage
  rw [List.head?_take, if_neg Nat.one_ne_zero]
  cases hhead : (orders.messages.arrange (db.messages.filter (·.threadId == some t.id))).head? with
  | none =>
      rw [orders.messages.head?_eq_none] at hhead
      rw [hhead] at hx
      cases hx
  | some m =>
      obtain ⟨hm, hleast⟩ := orders.messages.head?_least hhead
      obtain ⟨hm, hthread⟩ := List.mem_filter.mp hm
      refine ⟨m, hm, rfl, by simpa using hthread, ?_⟩
      intro y hy hyt
      exact hleast y (List.mem_filter.mpr ⟨hy, by simpa using hyt⟩)

/-- Both look-ups by id let a user in who takes part in the thread. -/
theorem found_iff (hs : Sequenced db) (id : Id) :
    (∃ t, db.directThreads.find? (·.id == id) = some t ∧ (t.userAId = userId ∨ t.userBId = userId)) ↔
      id ∈ (findByUser orders userId db).map (·.id) := by
  rw [List.mem_map]
  constructor
  · intro h
    obtain ⟨t, hfind, hpart⟩ := h
    exact ⟨t, mem_findByUser.mpr ⟨List.mem_of_find?_eq_some hfind, hpart⟩,
      by simpa using List.find?_some hfind⟩
  · intro h
    obtain ⟨t, ht, rfl⟩ := h
    obtain ⟨hmem, hpart⟩ := mem_findByUser.mp ht
    exact ⟨t, hs.ids.find?_eq hmem, hpart⟩

theorem findByIdWithDetails_ok_iff (id : Id) :
    (∃ details, findByIdWithDetails stamps id userId db = .ok details) ↔
      ∃ t, db.directThreads.find? (·.id == id) = some t ∧ (t.userAId = userId ∨ t.userBId = userId) := by
  unfold findByIdWithDetails findById
  cases db.directThreads.find? (·.id == id) with
  | none => simp
  | some t =>
      by_cases hout : t.userAId ≠ userId ∧ t.userBId ≠ userId
      · simp [hout]
      · have hin : t.userAId = userId ∨ t.userBId = userId := by tauto
        simp [hout, hin]

theorem getMessages_ok_iff (historyOrders : History.Orders) (id : Id) (opts : History.HistoryOptions) :
    (∃ messages, History.DirectThreads.getMessages historyOrders id userId opts db = .ok messages) ↔
      ∃ t, db.directThreads.find? (·.id == id) = some t ∧ (t.userAId = userId ∨ t.userBId = userId) := by
  unfold History.DirectThreads.getMessages
  cases db.directThreads.find? (·.id == id) with
  | none => simp
  | some t =>
      by_cases hout : t.userAId ≠ userId ∧ t.userBId ≠ userId
      · simp [hout]
      · have hin : t.userAId = userId ∨ t.userBId = userId := by tauto
        simp [hout, hin]

theorem listing_of_sequenced (hs : Sequenced db) (hne : NoneEmpty db) :
    Listing stamps userId db (findByUserWithDetails orders userId db) := by
  constructor
  · intro peer
    rw [entries_others, List.mem_map]
    constructor
    · intro h
      obtain ⟨t, ht, rfl⟩ := h
      have hmem := (mem_findByUser.mp ht).1
      obtain ⟨m, hm, _, hthread, _⟩ := @lastMessage_newest _ orders _ hs hne t hmem
      exact ⟨t, hmem, (joins_other hs ht).1, m, hm, hthread⟩
    · intro h
      obtain ⟨t, ht, hj, _⟩ := h
      refine ⟨t, mem_findByUser.mpr ⟨ht, ?_⟩, other_of_joins hs ht hj⟩
      rcases hj with ⟨ha, _⟩ | ⟨_, hb⟩
      · exact Or.inl ha
      · exact Or.inr hb
  · rw [entries_others]
    exact others_nodup hs
  · intro e he
    obtain ⟨t, ht, _, hother, _⟩ := mem_entry he
    rw [hother]
    exact (joins_other hs ht).2
  · intro e he
    obtain ⟨t, ht, hid, _, hdate, _⟩ := mem_entry he
    obtain ⟨m, hm, hlast, hthread, hmax⟩ :=
      @lastMessage_newest _ orders _ hs hne t (mem_findByUser.mp ht).1
    rw [hlast] at hdate
    rw [hid]
    exact ⟨m, hm, hthread, hdate, hmax⟩
  · unfold findByUserWithDetails
    rw [List.pairwise_map]
    exact orders.threads.sorted _
  · intro e he
    obtain ⟨t, ht, hid, _, _, hunread⟩ := mem_entry he
    have hlisted : ((findByUser orders userId db).map (·.id)).contains t.id = true := by
      simpa using ⟨t, ht, rfl⟩
    rw [hunread, mapOf_eq, hid]
    congr 3
    unfold countersOf
    rw [List.filter_filter]
    apply List.filter_congr
    intro u _
    by_cases hu : u.threadId = t.id
    · rw [hu, hlisted, beq_self_eq_true, Bool.true_and, Bool.and_comm]
    · rw [beq_false_of_ne hu, Bool.false_and, Bool.and_false]
  · intro id
    rw [entries_ids, findByIdWithDetails_ok_iff, found_iff hs]
  · intro id historyOrders opts
    rw [entries_ids, getMessages_ok_iff, found_iff hs]

end Entries

/-! ## Reachable states -/

/-- A posted message moves the counter of its thread, new or not. -/
theorem posted_noneEmpty {threadId : Id} {pair : Id × Id} {m : Message}
    {envelopes : List MessageEnvelope} {db db' : Db} (h : Posted threadId pair m envelopes db db')
    (hne : NoneEmpty db) : NoneEmpty db' := by
  obtain ⟨thread, x, db₁, media, hu, hx, hid, _, _, _, _, _, rfl⟩ := h
  intro t ht
  obtain ⟨t₀, ht₀, rfl⟩ := Rows.mem_updateMany.mp ht
  by_cases hbumped : t₀.id = thread.id
  · rw [if_pos (beq_iff_eq.mpr hbumped)]
    show 1 ≤ t₀.latestSequence + 1
    omega
  · rw [if_neg fun hc => hbumped (beq_iff_eq.mp hc)]
    obtain ⟨_, _, _, rfl⟩ | ⟨_, _, rfl, rfl⟩ := upsertThread_ok hu
    · exact hne t₀ ht₀
    · rcases List.mem_append.mp ht₀ with hold | hnew
      · exact hne t₀ hold
      · rw [List.mem_singleton.mp hnew] at hbumped
        exact absurd rfl hbumped

section Runs

variable {env : AuthEnv} {configuredMax : Option Int}

theorem step_noneEmpty (s : Tombstones.State) (a : Log.Act) (h : NoneEmpty s.db) :
    NoneEmpty (Log.step env configuredMax s a).db := by
  rcases Log.step_cases s a with ⟨b, rfl⟩ | ⟨db, he, hsame⟩
  · show NoneEmpty (Messaging.step env configuredMax s.messaging b).db
    rcases (exec_effect env configuredMax s.messaging b).inserts with hsame | ⟨m, hm⟩
    · unfold NoneEmpty
      rw [show (Messaging.step env configuredMax s.messaging b).db.directThreads = _ from hsame.threads]
      exact h
    · generalize hdb : (exec env configuredMax s.messaging b).1.db = db' at hm
      show NoneEmpty (exec env configuredMax s.messaging b).1.db
      rw [hdb]
      cases hm with
      | posted hc htx =>
          obtain ⟨_, _, _, _, _, hp⟩ := DirectTask.tx_ok htx
          exact posted_noneEmpty hp h
      | committed hc hcommit =>
          obtain ⟨_, hrow⟩ := Groups.commitGroupMessage_eq hcommit
          rw [hrow]
          exact h
  · show NoneEmpty (Log.step env configuredMax s a).messaging.db
    rw [he]
    unfold NoneEmpty
    rw [show ({ s.messaging with db := db } : Messaging.State).db.directThreads = _ from hsame.threads]
    exact h

/-- In every state of every interleaving, the list of a user has one entry for everyone the
user has exchanged a message with and for nobody else, dated by the newest message, with the
user's counter, newest change first, and it names the threads the user may read. -/
theorem conversations_listed (env : AuthEnv) (configuredMax : Option Int) (db : Db)
    (acts : List Log.Act) (stamps : Stamps) (orders : Orders stamps) (userId : Id) :
    Listing stamps userId (run (Log.step env configuredMax) (Log.start db) acts).db
      (findByUserWithDetails orders userId
        (run (Log.step env configuredMax) (Log.start db) acts).db) := by
  have hne : NoneEmpty (run (Log.step env configuredMax) (Log.start db) acts).db := by
    refine run_invariant (I := fun s => NoneEmpty s.db) (fun s a h => step_noneEmpty s a h) acts
      (Log.start db) ?_
    intro t ht
    cases ht
  exact listing_of_sequenced (Log.run_inv env configuredMax db acts).sequenced hne

end Runs

end Birgap.DirectThreads
