import Birgap.Messages.Queries
import Mathlib.Data.List.Induction

/-!
# History windows

`getMessages` of the direct threads and of the groups: the newest messages of a conversation
between optional bounds, oldest first, with their media and the messages they reply to. The two
methods are one query behind two different checks. The bounds are spread into one filter on
the sequence number, where the second replaces the first.
-/
namespace Birgap.Messages.History

set_option autoImplicit false

open Birgap.Lib Birgap.Lib.Paging

structure HistoryOptions where
  limit : Option Nat := none
  beforeSequence : Option Int := none
  afterSequence : Option Int := none

/-- The filter on `threadSequence`. -/
inductive SequenceFilter where
  | lt (n : Int)
  | gt (n : Int)

def SequenceFilter.holds (m : Message) : SequenceFilter → Bool
  | .lt n => decide ((m.threadSequence : Int) < n)
  | .gt n => decide (n < (m.threadSequence : Int))

/-- Spreading a condition on a key that is there replaces it. -/
def spread (filter : Option SequenceFilter) (condition : Option SequenceFilter) :
    Option SequenceFilter := condition.or filter

def sequenceFilter (opts : HistoryOptions) : Option SequenceFilter :=
  spread (spread none (opts.beforeSequence.map .lt)) (opts.afterSequence.map .gt)

structure HistoryMessage extends SyncedMessage where
  media : List MessageMedia
  replyTo : Option SyncedMessage
  deriving DecidableEq

/-- The media rows collected under their message, in the order they come. -/
def mediaByMessage (records : List MessageMedia) : Id → Option (List MessageMedia) :=
  records.foldl
    (fun map m =>
      match m.messageId with
      | none => map
      | some id => Function.update map id (some ((map id).getD [] ++ [m])))
    fun _ => none

def replyMap (replies : List SyncedMessage) : Id → Option SyncedMessage :=
  replies.foldl (fun map r => Function.update map r.id (some r)) fun _ => none

/-- The order of the messages, newest first, and of the media, oldest first. -/
structure Orders where
  messages : OrderBy fun m : Message => OrderDual.toDual m.threadSequence
  media : OrderBy fun m : MessageMedia => m.createdAt

/-- The query both services make once the caller has been let in. -/
def history (orders : Orders) (inConversation : Message → Bool) (opts : HistoryOptions) (db : Db) :
    List HistoryMessage :=
  let take := min (opts.limit.getD 50) 100
  let messages := (orders.messages.arrange (db.messages.filter fun m =>
    inConversation m && (sequenceFilter opts).all (·.holds m))).take take
  let reversed := messages.reverse
  let mediaRecords := orders.media.arrange (db.messageMedia.filter fun x =>
    x.messageId.any (reversed.map (·.id)).contains)
  let replyIds := reversed.filterMap (·.replyToMessageId)
  let replyMessages :=
    if replyIds.isEmpty then [] else db.messages.filter fun m => replyIds.contains m.id
  reversed.map fun m =>
    { syncedMessage m with
      media := (mediaByMessage mediaRecords m.id).getD []
      replyTo := m.replyToMessageId.bind (replyMap (replyMessages.map syncedMessage)) }

/-- `DirectThreadsService.getMessages`. -/
def DirectThreads.getMessages (orders : Orders) (threadId userId : Id) (opts : HistoryOptions)
    (db : Db) : Except Err (List HistoryMessage) :=
  match db.directThreads.find? (·.id == threadId) with
  | none => .error (.notFound "DirectThread not found")
  | some thread =>
      if thread.userAId ≠ userId ∧ thread.userBId ≠ userId then
        .error (.forbidden "Cannot query a thread you are not part of")
      else .ok (history orders (·.threadId == some threadId) opts db)

/-- `GroupsService.getMessages`. -/
def Groups.getMessages (orders : Orders) (groupId userId : Id) (opts : HistoryOptions) (db : Db) :
    Except Err (List HistoryMessage) :=
  match db.groupMembers.find? fun m => m.groupId == groupId && m.userId == userId with
  | none => .error (.forbidden "Not a member of this group")
  | some _ => .ok (history orders (·.groupId == some groupId) opts db)

/-! ## What is claimed of a window -/

inductive Conversation where
  | thread (threadId : Id)
  | group (groupId : Id)

def getMessages (orders : Orders) (c : Conversation) (userId : Id) (opts : HistoryOptions) (db : Db) :
    Except Err (List HistoryMessage) :=
  match c with
  | .thread threadId => DirectThreads.getMessages orders threadId userId opts db
  | .group groupId => Groups.getMessages orders groupId userId opts db

def Conversation.has (m : Message) : Conversation → Bool
  | .thread threadId => m.threadId == some threadId
  | .group groupId => m.groupId == some groupId

/-- The caller takes part in the conversation. -/
def Conversation.Readable (userId : Id) (db : Db) : Conversation → Prop
  | .thread threadId => ∃ t, db.directThreads.find? (·.id == threadId) = some t ∧
      (t.userAId = userId ∨ t.userBId = userId)
  | .group groupId => ∃ m ∈ db.groupMembers, m.groupId = groupId ∧ m.userId = userId

/-- The message satisfies every bound that was given. -/
def HistoryOptions.admits (opts : HistoryOptions) (m : Message) : Bool :=
  opts.beforeSequence.all (fun n => decide ((m.threadSequence : Int) < n)) &&
    opts.afterSequence.all fun n => decide (n < (m.threadSequence : Int))

def matching (c : Conversation) (opts : HistoryOptions) (db : Db) : List Message :=
  db.messages.filter fun m => c.has m && opts.admits m

structure Window (c : Conversation) (opts : HistoryOptions) (db : Db)
    (window : List HistoryMessage) : Prop where
  increasing : window.Pairwise fun x y => x.threadSequence < y.threadSequence
  length : window.length = min (min (opts.limit.getD 50) 100) (matching c opts db).length
  bounds : ∀ x ∈ window, ∃ m ∈ matching c opts db, x.toSyncedMessage = syncedMessage m
  gapless : ∀ x ∈ window, ∀ y ∈ window, ∀ m ∈ matching c opts db,
    x.threadSequence < m.threadSequence → m.threadSequence < y.threadSequence →
      ∃ z ∈ window, z.toSyncedMessage = syncedMessage m
  media : ∀ x ∈ window, x.media.Perm (db.messageMedia.filter (·.messageId == some x.id)) ∧
    x.media.Pairwise fun a b => a.createdAt ≤ b.createdAt
  replyTo : ∀ x ∈ window, x.replyTo = x.replyToMessageId.bind fun id =>
    (db.messages.find? (·.id == id)).map syncedMessage

/-- The primary key of the messages and the two indexes on their numbers. -/
structure Stored (db : Db) : Prop where
  ids : Rows.Unique (·.id) db.messages
  threadNumbers : Rows.Unique (fun m => (m.threadId, m.threadSequence))
    (db.messages.filter (·.threadId.isSome))
  groupNumbers : Rows.Unique (fun m => (m.groupId, m.threadSequence))
    (db.messages.filter (·.groupId.isSome))

/-- At most one bound was given, or the upper one excludes nothing above the lower one. -/
def OneBound (c : Conversation) (opts : HistoryOptions) (db : Db) : Prop :=
  ∀ before after, opts.beforeSequence = some before → opts.afterSequence = some after →
    ∀ m ∈ db.messages, c.has m = true → after < m.threadSequence → m.threadSequence < before

/-! ## The joins in memory -/

theorem mediaByMessage_append (records : List MessageMedia) (m : MessageMedia) (id : Id) :
    (mediaByMessage (records ++ [m]) id).getD [] =
      (mediaByMessage records id).getD [] ++ if m.messageId = some id then [m] else [] := by
  unfold mediaByMessage
  rw [List.foldl_append, List.foldl_cons, List.foldl_nil]
  generalize records.foldl _ _ = map
  cases hm : m.messageId with
  | none => simp
  | some x =>
      by_cases hx : x = id
      · subst hx
        simp
      · simp [hx, Ne.symm hx]

/-- Under its message's id stands every media row of a message, in the given order. -/
theorem mediaByMessage_eq (records : List MessageMedia) (id : Id) :
    (mediaByMessage records id).getD [] = records.filter (·.messageId == some id) := by
  induction records using List.reverseRecOn with
  | nil => rfl
  | append_singleton records m ih =>
      rw [mediaByMessage_append, ih, List.filter_append, List.filter_singleton]
      simp

theorem replyMap_append (replies : List SyncedMessage) (r : SyncedMessage) (id : Id) :
    replyMap (replies ++ [r]) id = if r.id = id then some r else replyMap replies id := by
  unfold replyMap
  rw [List.foldl_append, List.foldl_cons, List.foldl_nil]
  by_cases hid : r.id = id
  · subst hid
    simp
  · rw [if_neg hid, Function.update_of_ne (Ne.symm hid)]

/-- What the map holds are the rows it was made from. -/
theorem replyMap_some {replies : List SyncedMessage} {id : Id} {r : SyncedMessage}
    (h : replyMap replies id = some r) : r ∈ replies ∧ r.id = id := by
  induction replies using List.reverseRecOn with
  | nil => cases h
  | append_singleton replies x ih =>
      rw [replyMap_append] at h
      split at h
      · rename_i hid
        obtain rfl := Option.some.inj h
        exact ⟨List.mem_append_right _ List.mem_cons_self, hid⟩
      · obtain ⟨hr, hid⟩ := ih h
        exact ⟨List.mem_append_left _ hr, hid⟩

theorem replyMap_none {replies : List SyncedMessage} {id : Id} (h : replyMap replies id = none) :
    ∀ r ∈ replies, r.id ≠ id := by
  induction replies using List.reverseRecOn with
  | nil =>
      intro r hr
      cases hr
  | append_singleton replies x ih =>
      rw [replyMap_append] at h
      split at h
      · cases h
      · rename_i hid
        intro r hr
        rcases List.mem_append.mp hr with hold | hnew
        · exact ih h r hold
        · obtain rfl := List.mem_singleton.mp hnew
          exact hid

/-! ## The window -/

/-- The rows of the query: the newest, oldest first. -/
def page (orders : Orders) (inConversation : Message → Bool) (opts : HistoryOptions) (db : Db) :
    List Message :=
  ((orders.messages.arrange (db.messages.filter fun m =>
    inConversation m && (sequenceFilter opts).all (·.holds m))).take
      (min (opts.limit.getD 50) 100)).reverse

/-- A message with its media and the message it replies to. -/
def joined (orders : Orders) (rows : List Message) (db : Db) (m : Message) : HistoryMessage :=
  { syncedMessage m with
    media := (mediaByMessage (orders.media.arrange (db.messageMedia.filter fun x =>
      x.messageId.any (rows.map (·.id)).contains)) m.id).getD []
    replyTo := m.replyToMessageId.bind (replyMap
      ((if (rows.filterMap (·.replyToMessageId)).isEmpty then []
        else db.messages.filter fun m => (rows.filterMap (·.replyToMessageId)).contains m.id).map
          syncedMessage)) }

theorem history_eq (orders : Orders) (inConversation : Message → Bool) (opts : HistoryOptions)
    (db : Db) : history orders inConversation opts db =
      (page orders inConversation opts db).map
        (joined orders (page orders inConversation opts db) db) := rfl

variable {orders : Orders} {opts : HistoryOptions} {db : Db}

theorem joined_media {rows : List Message} {m : Message} (hm : m ∈ rows) :
    (joined orders rows db m).media.Perm (db.messageMedia.filter (·.messageId == some m.id)) ∧
      (joined orders rows db m).media.Pairwise fun a b => a.createdAt ≤ b.createdAt := by
  have hmedia : (joined orders rows db m).media = (orders.media.arrange (db.messageMedia.filter
      fun x => x.messageId.any (rows.map (·.id)).contains)).filter (·.messageId == some m.id) :=
    mediaByMessage_eq _ _
  rw [hmedia]
  constructor
  · have hperm := (orders.media.perm (db.messageMedia.filter
      fun x => x.messageId.any (rows.map (·.id)).contains)).filter (·.messageId == some m.id)
    refine hperm.trans (List.Perm.of_eq ?_)
    rw [List.filter_filter]
    apply List.filter_congr
    intro x _
    by_cases hx : x.messageId = some m.id
    · have hin : (rows.map (·.id)).contains m.id = true := by
        simpa using ⟨m, hm, rfl⟩
      rw [hx, Option.any_some, hin, Bool.and_true]
    · simp [hx]
  · exact (orders.media.sorted _).filter _

theorem joined_replyTo (hids : Rows.Unique (·.id) db.messages) {rows : List Message} {m : Message}
    (hm : m ∈ rows) :
    (joined orders rows db m).replyTo = m.replyToMessageId.bind fun id =>
      (db.messages.find? (·.id == id)).map syncedMessage := by
  show m.replyToMessageId.bind _ = _
  cases hreply : m.replyToMessageId with
  | none => rfl
  | some id =>
      rw [Option.bind_some, Option.bind_some]
      have hin : id ∈ rows.filterMap (·.replyToMessageId) := List.mem_filterMap.mpr ⟨m, hm, hreply⟩
      have hne : (rows.filterMap (·.replyToMessageId)).isEmpty = false := by
        cases hl : rows.filterMap (·.replyToMessageId) with
        | nil => rw [hl] at hin; cases hin
        | cons a l => rfl
      rw [hne, if_neg Bool.false_ne_true]
      have hfound : ∀ x ∈ db.messages, x.id = id → syncedMessage x ∈
          (db.messages.filter fun m => (rows.filterMap (·.replyToMessageId)).contains m.id).map
            syncedMessage := by
        intro x hx hid
        refine List.mem_map.mpr ⟨x, List.mem_filter.mpr ⟨hx, ?_⟩, rfl⟩
        rw [hid]
        simpa using List.mem_filterMap.mp hin
      cases hmap : replyMap ((db.messages.filter fun m =>
          (rows.filterMap (·.replyToMessageId)).contains m.id).map syncedMessage) id with
      | some r =>
          obtain ⟨hr, hid⟩ := replyMap_some hmap
          obtain ⟨x, hx, rfl⟩ := List.mem_map.mp hr
          have hx := (List.mem_filter.mp hx).1
          have hxid : x.id = id := hid
          have hfind := hids.find?_eq hx
          rw [hxid] at hfind
          rw [hfind]
          rfl
      | none =>
          cases hfind : db.messages.find? (·.id == id) with
          | none => rfl
          | some x =>
              have hid : x.id = id := by simpa using List.find?_some hfind
              exact absurd hid
                (replyMap_none hmap _ (hfound x (List.mem_of_find?_eq_some hfind) hid))

/-- Rows with one value in the first column of an index differ in the second. -/
theorem second_differs {κ : Type} [DecidableEq κ] {column : Message → Option κ} {k : κ}
    {p : Message → Bool} {rows : List Message}
    (hunique : Rows.Unique (fun m => (column m, m.threadSequence))
      (rows.filter fun m => (column m).isSome)) :
    (rows.filter fun m => column m == some k && p m).Pairwise fun a b =>
      OrderDual.toDual a.threadSequence ≠ OrderDual.toDual b.threadSequence := by
  have hpairs := (List.pairwise_map.mp hunique).filter fun m => column m == some k && p m
  rw [List.filter_filter] at hpairs
  have hrows : (rows.filter fun m => (column m == some k && p m) && (column m).isSome) =
      rows.filter fun m => column m == some k && p m := by
    apply List.filter_congr
    intro m _
    by_cases hk : column m = some k <;> simp [hk]
  rw [hrows] at hpairs
  refine hpairs.imp_of_mem ?_
  intro a b ha hb hne heq
  have hcolumn : ∀ m ∈ rows.filter (fun m => column m == some k && p m), column m = some k := by
    intro m hm
    have hsel := (Bool.and_eq_true_iff.mp (List.mem_filter.mp hm).2).1
    simpa using hsel
  exact hne (Prod.ext ((hcolumn a ha).trans (hcolumn b hb).symm) (OrderDual.toDual_inj.mp heq))

/-- In one conversation no two messages have the same number. -/
theorem numbers_differ (hstored : Stored db) (c : Conversation) (p : Message → Bool) :
    (db.messages.filter fun m => c.has m && p m).Pairwise fun a b =>
      OrderDual.toDual a.threadSequence ≠ OrderDual.toDual b.threadSequence := by
  cases c with
  | thread id => exact second_differs hstored.threadNumbers
  | group id => exact second_differs hstored.groupNumbers

/-- The messages that the query selects, before they are cut to a page. -/
def selected (c : Conversation) (opts : HistoryOptions) (db : Db) : List Message :=
  db.messages.filter fun m => c.has m && (sequenceFilter opts).all (·.holds m)

section Page

variable (hstored : Stored db) (c : Conversation)
include hstored

theorem page_increasing :
    (page orders c.has opts db).Pairwise fun a b => a.threadSequence < b.threadSequence := by
  unfold page
  rw [List.pairwise_reverse]
  have hdesc := orders.messages.ascending (numbers_differ hstored c
    fun m => (sequenceFilter opts).all (·.holds m))
  exact (hdesc.sublist (List.take_sublist _ _)).imp fun h => OrderDual.toDual_lt_toDual.mp h

omit hstored in
theorem page_length : (page orders c.has opts db).length =
    min (min (opts.limit.getD 50) 100) (selected c opts db).length := by
  unfold page selected
  rw [List.length_reverse, List.length_take, orders.messages.length_arrange]

omit hstored in
theorem mem_selected_of_page {m : Message} (hm : m ∈ page orders c.has opts db) :
    m ∈ selected c opts db :=
  orders.messages.mem_arrange.mp (List.mem_of_mem_take (List.mem_reverse.mp hm))

/-- Whatever is newer than a message of the page is on the page. -/
theorem newer_on_page {x m : Message} (hx : x ∈ page orders c.has opts db)
    (hm : m ∈ selected c opts db) (hlt : x.threadSequence < m.threadSequence) :
    m ∈ page orders c.has opts db := by
  have hdesc := orders.messages.ascending (numbers_differ hstored c
    fun m => (sequenceFilter opts).all (·.holds m))
  have hm := orders.messages.mem_arrange.mpr hm
  unfold page at hx ⊢
  unfold selected at hm
  rw [List.mem_reverse] at hx ⊢
  rw [← List.take_append_drop (min (opts.limit.getD 50) 100) (orders.messages.arrange _)] at hm hdesc
  rcases List.mem_append.mp hm with hon | hoff
  · exact hon
  · have horder := (List.pairwise_append.mp hdesc).2.2 x hx m hoff
    have hle := OrderDual.toDual_lt_toDual.mp horder
    omega

end Page

theorem admits_eq_of_oneBound {c : Conversation} (hone : OneBound c opts db) :
    selected c opts db = matching c opts db := by
  apply List.filter_congr
  intro m hm
  cases hhas : c.has m with
  | false => rfl
  | true =>
      rw [Bool.true_and, Bool.true_and]
      unfold sequenceFilter spread HistoryOptions.admits
      cases hbefore : opts.beforeSequence with
      | none => cases opts.afterSequence <;> simp [SequenceFilter.holds]
      | some before =>
          cases hafter : opts.afterSequence with
          | none => simp [SequenceFilter.holds]
          | some after =>
              -- the second bound has replaced the first
              by_cases hlt : after < (m.threadSequence : Int)
              · have hbelow := hone before after hbefore hafter m hm hhas hlt
                simp [SequenceFilter.holds, hlt, hbelow]
              · simp [SequenceFilter.holds, hlt]

/-- The window is right when the query selects what it should. -/
theorem window_of_selected (hstored : Stored db) {c : Conversation}
    (hselected : selected c opts db = matching c opts db) :
    Window c opts db (history orders c.has opts db) := by
  rw [history_eq]
  constructor
  case increasing =>
    rw [List.pairwise_map]
    exact page_increasing hstored c
  case length =>
    rw [List.length_map, page_length, hselected]
  case bounds =>
    intro x hx
    obtain ⟨m, hm, rfl⟩ := List.mem_map.mp hx
    exact ⟨m, hselected ▸ mem_selected_of_page c hm, rfl⟩
  case gapless =>
    intro x hx y hy m hm hlow _
    obtain ⟨mx, hmx, rfl⟩ := List.mem_map.mp hx
    have hon := newer_on_page hstored c hmx (hselected ▸ hm) hlow
    exact ⟨_, List.mem_map.mpr ⟨m, hon, rfl⟩, rfl⟩
  case media =>
    intro x hx
    obtain ⟨m, hm, rfl⟩ := List.mem_map.mp hx
    exact joined_media hm
  case replyTo =>
    intro x hx
    obtain ⟨m, hm, rfl⟩ := List.mem_map.mp hx
    exact joined_replyTo hstored.ids hm

/-- A window that holds its bounds selects nothing beyond them: its newest message would be. -/
theorem oneBound_of_window {c : Conversation} (hstored : Stored db) (hlimit : opts.limit ≠ some 0)
    (hwindow : Window c opts db (history orders c.has opts db)) : OneBound c opts db := by
  intro before after hbefore hafter m hm hhas hlt
  by_contra hge
  have hmem : m ∈ selected c opts db := by
    refine List.mem_filter.mpr ⟨hm, ?_⟩
    simp [hhas, sequenceFilter, spread, hafter, SequenceFilter.holds, hlt]
  have htake : 0 < min (opts.limit.getD 50) 100 := by
    cases hl : opts.limit with
    | none => decide
    | some n =>
        have hn : n ≠ 0 := fun h => hlimit (by rw [hl, h])
        rw [Option.getD_some]
        omega
  obtain ⟨x, hx⟩ : ∃ x, x ∈ page orders c.has opts db := by
    apply List.exists_mem_of_length_pos
    rw [page_length]
    have hpos := List.length_pos_of_mem hmem
    omega
  obtain ⟨y, hy, hle⟩ : ∃ y ∈ page orders c.has opts db, m.threadSequence ≤ y.threadSequence := by
    rcases Nat.lt_or_ge x.threadSequence m.threadSequence with hlt | hle
    · exact ⟨m, newer_on_page hstored c hx hmem hlt, le_rfl⟩
    · exact ⟨x, hx, hle⟩
  rw [history_eq] at hwindow
  obtain ⟨z, hz, hsame⟩ := hwindow.bounds _ (List.mem_map.mpr ⟨y, hy, rfl⟩)
  have hnumber : y.threadSequence = z.threadSequence :=
    congrArg (fun r : SyncedMessage => r.threadSequence) hsame
  have hadmits := (Bool.and_eq_true_iff.mp (List.mem_filter.mp hz).2).2
  unfold HistoryOptions.admits at hadmits
  rw [hbefore] at hadmits
  have hbelow : (z.threadSequence : Int) < before := by
    simpa using (Bool.and_eq_true_iff.mp hadmits).1
  omega

theorem getMessages_readable {c : Conversation} {userId : Id} (hread : c.Readable userId db) :
    getMessages orders c userId opts db = .ok (history orders c.has opts db) := by
  cases c with
  | thread threadId =>
      obtain ⟨t, ht, hin⟩ := hread
      have hparticipant : ¬(t.userAId ≠ userId ∧ t.userBId ≠ userId) := by tauto
      simp only [getMessages, DirectThreads.getMessages, ht, if_neg hparticipant]
      rfl
  | group groupId =>
      obtain ⟨m, hm, hgroup, huser⟩ := hread
      cases hfind : db.groupMembers.find? fun m => m.groupId == groupId && m.userId == userId with
      | none =>
          have hno := List.find?_eq_none.mp hfind m hm
          simp [hgroup, huser] at hno
      | some x =>
          simp only [getMessages, Groups.getMessages, hfind]
          rfl

/-- A thread with three messages. -/
def threeMessages : Db :=
  { directThreads := [{ id := "t1", userAId := "alice", userBId := "bob", latestSequence := 3 }]
    messages := [1, 2, 3].map fun n =>
      { id := s!"m{n}", threadId := some "t1", senderUserId := "alice", senderDeviceId := "d1"
        idempotencyKey := s!"k{n}", threadSequence := n, createdAt := n } }

def storedOrder : Orders where
  messages := OrderBy.stable _
  media := OrderBy.stable _

end Birgap.Messages.History
