import Birgap.Messages.History
import Birgap.Lib.Polling

/-!
# Reading a conversation in several calls

Two clients of `getMessages`: one scrolls back from the newest message, the other catches up
from the last number it has. A page is always cut at the old end of what its bounds select.
So the client that scrolls back continues where its page was cut, while the one that catches
up continues at the other end and never sees what a page left out.
-/
namespace Birgap.Messages.Scrolling

set_option autoImplicit false

open Birgap.Lib Birgap.Lib.Polling
open Birgap.Messages.History

/-- The answer of a call, none when it is an error. -/
def answered {α : Type} (answer : Except Err α) : Option α := answer.toOption

/-- The options of the next call of a client that scrolls back. -/
def olderOptions (limit : Option Nat) (received : List HistoryMessage) : HistoryOptions :=
  { limit, beforeSequence := (received.map (·.threadSequence)).min?.map Int.ofNat }

/-- The options of the next call of a client that catches up from `s`. -/
def newerOptions (limit : Option Nat) (s : Int) (received : List HistoryMessage) : HistoryOptions :=
  { limit, afterSequence := some ((received.map fun x => (x.threadSequence : Int)).max?.getD s) }

/-- Scrolling back; call `i` is answered from the store `db i`. -/
def scrollBack (orders : Nat → Orders) (c : Conversation) (userId : Id) (limit : Option Nat)
    (db : Nat → Db) (fuel : Nat) : Option (List HistoryMessage) :=
  collect (fun i received =>
    answered (getMessages (orders i) c userId (olderOptions limit received) (db i))) fuel 0 []

def catchUp (orders : Nat → Orders) (c : Conversation) (userId : Id) (limit : Option Nat) (s : Int)
    (db : Nat → Db) (fuel : Nat) : Option (List HistoryMessage) :=
  collect (fun i received =>
    answered (getMessages (orders i) c userId (newerOptions limit s received) (db i))) fuel 0 []

/-- Every one of the messages is received exactly once, and no message twice. -/
structure EachOnce (received : List HistoryMessage) (messages : List Message) : Prop where
  once : (received.map (·.id)).Nodup
  all : ∀ m ∈ messages, ∃ x ∈ received, x.toSyncedMessage = syncedMessage m

def messagesOf (c : Conversation) (db : Db) : List Message := db.messages.filter (c.has ·)

/-- Between two calls messages of larger number arrive, and nothing else happens to the
messages of the conversation. -/
structure Arriving (c : Conversation) (db : Nat → Db) : Prop where
  stays : ∀ i, ∀ m ∈ messagesOf c (db i), m ∈ messagesOf c (db (i + 1))
  larger : ∀ i, ∀ m ∈ messagesOf c (db (i + 1)), m ∉ messagesOf c (db i) →
    ∀ x ∈ messagesOf c (db i), x.threadSequence < m.threadSequence

/-- The conversation is the same at every call. -/
def Unchanging (c : Conversation) (db : Nat → Db) : Prop :=
  ∀ i, (messagesOf c (db i)).Perm (messagesOf c (db 0))

/-- The messages of the conversation with a number greater than `s`. -/
def above (c : Conversation) (s : Int) (db : Db) : List Message :=
  (messagesOf c db).filter fun m => decide (s < (m.threadSequence : Int))

/-! ## One call -/

section Call

variable {orders : Orders} {c : Conversation} {opts : HistoryOptions} {db : Db}

theorem answered_readable {userId : Id} (hread : c.Readable userId db) :
    answered (getMessages orders c userId opts db) = some (history orders c.has opts db) := by
  rw [getMessages_readable hread]
  rfl

/-- The columns of the messages on a page are those stored. -/
theorem history_views : (history orders c.has opts db).map (·.toSyncedMessage) =
    (page orders c.has opts db).map syncedMessage := by
  rw [history_eq, List.map_map]
  rfl

theorem take_pos (hlimit : opts.limit ≠ some 0) : 0 < min (opts.limit.getD 50) 100 := by
  cases hl : opts.limit with
  | none => decide
  | some n =>
      have hn : n ≠ 0 := fun h => hlimit (by rw [hl, h])
      rw [Option.getD_some]
      omega

/-- Only where nothing is selected is the page empty. -/
theorem selected_of_history_nil (hlimit : opts.limit ≠ some 0)
    (h : history orders c.has opts db = []) : selected c opts db = [] := by
  have hlength := congrArg List.length h
  rw [history_eq, List.length_map, page_length, List.length_nil] at hlength
  have hpos := take_pos hlimit
  apply List.eq_nil_of_length_eq_zero
  omega

/-- In one conversation a number belongs to one message. -/
theorem eq_of_number (hstored : Stored db) {m x : Message} (hm : m ∈ messagesOf c db)
    (hx : x ∈ messagesOf c db) (h : m.threadSequence = x.threadSequence) : m = x := by
  have hpairs := numbers_differ hstored c fun _ => true
  simp only [Bool.and_true] at hpairs
  have hunique : Rows.Unique (·.threadSequence) (messagesOf c db) :=
    List.pairwise_map.mpr (hpairs.imp fun hne heq => hne (congrArg _ heq))
  exact hunique.eq hm hx h

/-- A client that has every message it wants once, by the columns it was sent. -/
theorem eachOnce_of_views (hstored : Stored db) {received : List HistoryMessage}
    {rows messages : List Message}
    (hviews : received.map (·.toSyncedMessage) = rows.map syncedMessage) (hnodup : rows.Nodup)
    (hrows : ∀ m ∈ rows, m ∈ messagesOf c db) (hall : ∀ m ∈ messages, m ∈ rows) :
    EachOnce received messages := by
  constructor
  · have hids : received.map (·.id) = rows.map (·.id) := by
      have hmap := congrArg (List.map fun r : SyncedMessage => r.id) hviews
      rw [List.map_map, List.map_map] at hmap
      exact hmap
    rw [hids]
    apply hnodup.map_on
    intro x hx y hy hid
    exact hstored.ids.eq (List.mem_of_mem_filter (hrows x hx)) (List.mem_of_mem_filter (hrows y hy))
      hid
  · intro m hm
    have hview := List.mem_map_of_mem (f := syncedMessage) (hall m hm)
    rw [← hviews] at hview
    exact List.mem_map.mp hview

theorem page_nodup (hstored : Stored db) : (page orders c.has opts db).Nodup :=
  (page_increasing hstored c).imp fun hlt heq => by
    rw [heq] at hlt
    exact absurd hlt (Nat.lt_irrefl _)

end Call

/-! ## Scrolling back -/

/-- The newest messages of a conversation, down to some number. -/
structure Head (messages rows : List Message) : Prop where
  nodup : rows.Nodup
  stored : ∀ m ∈ rows, m ∈ messages
  newest : ∀ x ∈ rows, ∀ m ∈ messages, x.threadSequence < m.threadSequence → m ∈ rows

theorem Head.length_le {messages rows : List Message} (h : Head messages rows) :
    rows.length ≤ messages.length := (h.nodup.subperm h.stored).length_le

section Back

variable {orders : Nat → Orders} {c : Conversation} {limit : Option Nat} {db : Nat → Db}

theorem Arriving.still (harrive : Arriving c db) {m : Message} (hm : m ∈ messagesOf c (db 0)) :
    ∀ i, m ∈ messagesOf c (db i) := by
  intro i
  induction i with
  | zero => exact hm
  | succ i ih => exact harrive.stays i m ih

/-- What was not there at the first call has a larger number than all that was. -/
theorem Arriving.later (harrive : Arriving c db) {x : Message} (hx : x ∈ messagesOf c (db 0)) :
    ∀ i, ∀ m ∈ messagesOf c (db i), m ∉ messagesOf c (db 0) →
      x.threadSequence < m.threadSequence := by
  intro i
  induction i with
  | zero => intro m hm hnew; exact absurd hm hnew
  | succ i ih =>
      intro m hm hnew
      by_cases hold : m ∈ messagesOf c (db i)
      · exact ih m hold hnew
      · exact harrive.larger i m hm hold x (harrive.still hx i)

/-- What the client has before call `i` are the newest messages of the first store. -/
def Scrolled (c : Conversation) (db : Nat → Db) (rows : List Message) (i : Nat)
    (received : List HistoryMessage) : Prop :=
  Head (messagesOf c (db 0)) rows ∧ received.map (·.toSyncedMessage) = rows.map syncedMessage ∧
    (rows = [] → i = 0)

theorem numbers_of_views {received : List HistoryMessage} {rows : List Message}
    (h : received.map (·.toSyncedMessage) = rows.map syncedMessage) :
    received.map (·.threadSequence) = rows.map (·.threadSequence) := by
  have hmap := congrArg (List.map fun r : SyncedMessage => r.threadSequence) h
  rw [List.map_map, List.map_map] at hmap
  exact hmap

theorem mem_selected_older {rows : List Message} {received : List HistoryMessage} {i : Nat}
    {m : Message} (hviews : received.map (·.toSyncedMessage) = rows.map syncedMessage) :
    m ∈ selected c (olderOptions limit received) (db i) ↔
      m ∈ messagesOf c (db i) ∧ ∀ x ∈ rows, m.threadSequence < x.threadSequence := by
  unfold selected messagesOf olderOptions sequenceFilter spread
  rw [numbers_of_views hviews, List.mem_filter, List.mem_filter, Bool.and_eq_true, and_assoc]
  refine and_congr_right fun _ => and_congr_right fun _ => ?_
  cases hmin : (rows.map (·.threadSequence)).min? with
  | none =>
      have hrows : rows = [] := by simpa using hmin
      simp [hrows]
  | some low =>
      obtain ⟨hlow, hleast⟩ := List.min?_eq_some_iff.mp hmin
      have hbound : ∀ x ∈ rows, low ≤ x.threadSequence :=
        fun x hx => hleast _ (List.mem_map_of_mem hx)
      obtain ⟨x, hx, rfl⟩ := List.mem_map.mp hlow
      simp only [Option.map_some, Option.map_none, Option.or_none, Option.none_or,
        Option.all_some, SequenceFilter.holds, decide_eq_true_eq]
      constructor
      · intro hlt y hy
        have hle := hbound y hy
        have hlt : (m.threadSequence : Int) < (x.threadSequence : Int) := by simpa using hlt
        omega
      · intro hall
        have hlt := hall x hx
        show (m.threadSequence : Int) < (x.threadSequence : Int)
        omega

/-- The next query selects what is missing of the first store, and nothing else. -/
theorem selected_missing (limit : Option Nat) (hstored : ∀ i, Stored (db i)) (harrive : Arriving c db)
    {rows : List Message} {i : Nat} {received : List HistoryMessage}
    (h : Scrolled c db rows i received) (m : Message) :
    m ∈ selected c (olderOptions limit received) (db i) ↔
      m ∈ messagesOf c (db 0) ∧ m ∉ rows := by
  obtain ⟨hhead, hviews, hfirst⟩ := h
  rw [mem_selected_older hviews]
  constructor
  · intro hm
    obtain ⟨hm, hbelow⟩ := hm
    have hmissing : m ∉ rows := fun hin => absurd (hbelow m hin) (Nat.lt_irrefl _)
    refine ⟨?_, hmissing⟩
    cases hrows : rows with
    | nil =>
        rw [hfirst hrows] at hm
        exact hm
    | cons x rest =>
        -- an arrival would have a larger number than a message that was received
        have hx : x ∈ rows := by rw [hrows]; exact List.mem_cons_self
        by_contra hnew
        have hlarger := harrive.later (hhead.stored x hx) i m hm hnew
        have hlt := hbelow x hx
        omega
  · intro hm
    obtain ⟨hm, hmissing⟩ := hm
    refine ⟨harrive.still hm i, ?_⟩
    intro x hx
    by_contra hge
    rcases Nat.eq_or_lt_of_le (Nat.le_of_not_lt hge) with heq | hlt
    · exact hmissing (eq_of_number (hstored 0) (hhead.stored x hx) hm heq ▸ hx)
    · exact hmissing (hhead.newest x hx m hm hlt)

/-- A page continues the head of the conversation. -/
theorem Scrolled.page (hstored : ∀ i, Stored (db i)) (harrive : Arriving c db)
    {rows : List Message} {i : Nat} {received : List HistoryMessage}
    (h : Scrolled c db rows i received)
    (hpage : history (orders i) c.has (olderOptions limit received) (db i) ≠ []) :
    Scrolled c db (rows ++ History.page (orders i) c.has (olderOptions limit received) (db i))
      (i + 1) (received ++ history (orders i) c.has (olderOptions limit received) (db i)) := by
  have hmissing := selected_missing limit hstored harrive h
  obtain ⟨hhead, hviews, _⟩ := h
  have hon : ∀ m ∈ History.page (orders i) c.has (olderOptions limit received) (db i),
      m ∈ messagesOf c (db 0) ∧ m ∉ rows :=
    fun m hm => (hmissing m).mp (mem_selected_of_page c hm)
  refine ⟨⟨?_, ?_, ?_⟩, ?_, ?_⟩
  · apply List.Nodup.append hhead.nodup
    · exact page_nodup (hstored i)
    · intro m hm hnew
      exact (hon m hnew).2 hm
  · intro m hm
    rcases List.mem_append.mp hm with hold | hnew
    · exact hhead.stored m hold
    · exact (hon m hnew).1
  · intro x hx m hm hlt
    by_cases hold : m ∈ rows
    · exact List.mem_append_left _ hold
    · rcases List.mem_append.mp hx with hx | hx
      · exact absurd (hhead.newest x hx m hm hlt) hold
      · have hsel := (hmissing m).mpr ⟨hm, hold⟩
        exact List.mem_append_right _ (newer_on_page (hstored i) c hx hsel hlt)
  · rw [List.map_append, List.map_append, hviews, history_views]
  · intro hnone
    have hnil := (List.append_eq_nil_iff.mp hnone).2
    rw [history_eq, hnil] at hpage
    exact absurd rfl hpage

/-- A client that scrolls back ends after finitely many calls with every message that was there
at the first one, each once, whatever arrives meanwhile. -/
theorem scrollBack_complete (orders : Nat → Orders) (c : Conversation) (userId : Id)
    (limit : Option Nat) (db : Nat → Db) (hstored : ∀ i, Stored (db i))
    (hread : ∀ i, c.Readable userId (db i)) (hlimit : limit ≠ some 0) (harrive : Arriving c db) :
    ∃ fuel received, scrollBack orders c userId limit db fuel = some received ∧
      EachOnce received (messagesOf c (db 0)) := by
  have hstep : ∀ i received, (∃ rows, Scrolled c db rows i received) → ∃ page,
      answered (getMessages (orders i) c userId (olderOptions limit received) (db i)) = some page ∧
      (page ≠ [] → (∃ rows, Scrolled c db rows (i + 1) (received ++ page)) ∧
        (messagesOf c (db 0)).length - (received ++ page).length <
          (messagesOf c (db 0)).length - received.length) := by
    intro i received hscrolled
    obtain ⟨rows, hscrolled⟩ := hscrolled
    refine ⟨_, answered_readable (hread i), ?_⟩
    intro hpage
    have hnext := hscrolled.page hstored harrive hpage
    refine ⟨⟨_, hnext⟩, ?_⟩
    have hlength := congrArg List.length hnext.2.1
    have hle := hnext.1.length_le
    have hpos := List.length_pos_iff.mpr hpage
    rw [List.length_map, List.length_map] at hlength
    rw [← hlength, List.length_append] at hle
    rw [List.length_append]
    omega
  have hfirst : Scrolled c db [] 0 [] :=
    ⟨⟨List.nodup_nil, by simp, by simp⟩, rfl, fun _ => rfl⟩
  obtain ⟨j, received, hrun, ⟨rows, hscrolled⟩, hlast⟩ :=
    collect_ends (fun i received => ∃ rows, Scrolled c db rows i received)
      (fun received => (messagesOf c (db 0)).length - received.length) hstep
      ((messagesOf c (db 0)).length + 1) 0 [] ⟨[], hfirst⟩ (Nat.lt_succ_of_le (Nat.sub_le _ _))
  refine ⟨_, received, hrun, eachOnce_of_views (hstored 0) hscrolled.2.1 hscrolled.1.nodup
    hscrolled.1.stored ?_⟩
  rw [answered_readable (hread j)] at hlast
  have hnone := selected_of_history_nil hlimit (Option.some.inj hlast)
  intro m hm
  by_contra hmissing
  have hsel := (selected_missing limit hstored harrive hscrolled m).mpr ⟨hm, hmissing⟩
  rw [hnone] at hsel
  cases hsel

end Back

def fourMessages : Db :=
  { threeMessages with
    messages := threeMessages.messages ++
      [{ id := "m4", threadId := some "t1", senderUserId := "alice", senderDeviceId := "d1"
         idempotencyKey := "k4", threadSequence := 4, createdAt := 4 }] }

/-- Three messages at first, a fourth from the second call on. -/
def oneArrival : Nat → Db
  | 0 => threeMessages
  | _ + 1 => fourMessages

theorem fourMessages_stored : Stored fourMessages := ⟨by decide, by decide, by decide⟩

theorem oneArrival_stored (i : Nat) : Stored (oneArrival i) := by
  cases i with
  | zero => exact ⟨by decide, by decide, by decide⟩
  | succ i => exact fourMessages_stored

theorem oneArrival_readable (i : Nat) :
    (Conversation.thread "t1").Readable "alice" (oneArrival i) := by
  cases i <;> exact ⟨_, rfl, .inl rfl⟩

theorem oneArrival_arriving : Arriving (.thread "t1") oneArrival := by
  constructor
  · intro i
    cases i with
    | zero => decide
    | succ i => exact fun m hm => hm
  · intro i
    cases i with
    | zero => decide
    | succ i => exact fun m hm hnew => absurd hm hnew

theorem scrollBack_three :
    ∃ fuel received, scrollBack (fun _ => storedOrder) (.thread "t1") "alice" (some 1) oneArrival
        fuel = some received ∧
      EachOnce received (messagesOf (.thread "t1") (oneArrival 0)) :=
  scrollBack_complete (fun _ => storedOrder) (.thread "t1") "alice" (some 1) oneArrival
    oneArrival_stored oneArrival_readable (by decide) oneArrival_arriving

/-! ## Catching up -/

section Forward

variable {c : Conversation} {limit : Option Nat} {s : Int} {db : Db}

theorem mem_selected_newer {received : List HistoryMessage} {m : Message} :
    m ∈ selected c (newerOptions limit s received) db ↔
      m ∈ messagesOf c db ∧ (received = [] → s < m.threadSequence) ∧
        ∀ x ∈ received, x.threadSequence < m.threadSequence := by
  unfold selected messagesOf newerOptions sequenceFilter spread
  rw [List.mem_filter, List.mem_filter, Bool.and_eq_true, and_assoc]
  refine and_congr_right fun _ => and_congr_right fun _ => ?_
  simp only [Option.map_some, Option.map_none, Option.none_or, Option.some_or,
    Option.all_some, SequenceFilter.holds, decide_eq_true_eq]
  cases hmax : (received.map fun x => (x.threadSequence : Int)).max? with
  | none =>
      have hnone : received = [] := by simpa using hmax
      simp [hnone]
  | some high =>
      obtain ⟨hhigh, hmost⟩ := List.max?_eq_some_iff.mp hmax
      obtain ⟨x, hx, rfl⟩ := List.mem_map.mp hhigh
      constructor
      · intro hlt
        rw [Option.getD_some] at hlt
        refine ⟨fun hnone => absurd hx (hnone ▸ List.not_mem_nil), ?_⟩
        intro y hy
        have hle := hmost _ (List.mem_map_of_mem hy)
        omega
      · intro h
        have hlt := h.2 x hx
        rw [Option.getD_some]
        omega

variable (limit s)

theorem selected_first : selected c (newerOptions limit s []) db = above c s db := by
  unfold selected above messagesOf newerOptions sequenceFilter spread
  rw [List.filter_filter]
  apply List.filter_congr
  intro m _
  exact Bool.and_comm _ _

/-- The first page has everything exactly when there is no more than one page. -/
theorem first_eachOnce_iff (orders : Orders) (hstored : Stored db) :
    EachOnce (history orders c.has (newerOptions limit s []) db) (above c s db) ↔
      (above c s db).length ≤ min (limit.getD 50) 100 := by
  have hlength : (page orders c.has (newerOptions limit s []) db).length =
      min (min (limit.getD 50) 100) (above c s db).length := by
    rw [← selected_first limit]
    exact page_length c
  constructor
  · intro h
    have hids : ((above c s db).map (·.id)).Nodup := (hstored.ids.filter _).filter _
    have hsub : (above c s db).map (·.id) ⊆
        (history orders c.has (newerOptions limit s []) db).map (·.id) := by
      intro id hid
      obtain ⟨m, hm, rfl⟩ := List.mem_map.mp hid
      obtain ⟨x, hx, hview⟩ := h.all m hm
      have hsame : x.id = m.id := congrArg (fun r : SyncedMessage => r.id) hview
      exact hsame ▸ List.mem_map_of_mem hx
    have hle := (hids.subperm hsub).length_le
    rw [List.length_map, List.length_map, history_eq, List.length_map, hlength] at hle
    exact hle.trans (Nat.min_le_left _ _)
  · intro hle
    refine eachOnce_of_views (c := c) hstored history_views (page_nodup hstored) ?_ ?_
    · intro m hm
      exact (mem_selected_newer.mp (mem_selected_of_page c hm)).1
    · intro m hm
      rw [← selected_first limit] at hm hle
      unfold page
      rw [List.mem_reverse, List.take_of_length_le]
      · exact orders.messages.mem_arrange.mpr hm
      · rw [orders.messages.length_arrange]
        exact hle

/-- Behind the first page nothing comes: it goes up to the newest message. -/
theorem catchUp_received {userId : Id} {db : Nat → Db} (orders : Nat → Orders)
    (hstored : ∀ i, Stored (db i)) (hread : ∀ i, c.Readable userId (db i)) (hsame : Unchanging c db) :
    ∃ fuel, catchUp orders c userId limit s db fuel =
      some (history (orders 0) c.has (newerOptions limit s []) (db 0)) := by
  by_cases hfirst : history (orders 0) c.has (newerOptions limit s []) (db 0) = []
  · refine ⟨1, ?_⟩
    rw [hfirst]
    exact collect_nothing ((answered_readable (hread 0)).trans (congrArg some hfirst))
  · refine ⟨2, (collect_page (answered_readable (hread 0)) hfirst).trans ?_⟩
    rw [List.nil_append]
    refine collect_nothing ((answered_readable (hread 1)).trans (congrArg some ?_))
    -- a message above all of the first page would have been on it
    have hnone : selected c (newerOptions limit s (history (orders 0) c.has
        (newerOptions limit s []) (db 0))) (db 1) = [] := by
      apply List.eq_nil_iff_forall_not_mem.mpr
      intro m hm
      obtain ⟨hm, _, habove⟩ := mem_selected_newer.mp hm
      have hin : m ∈ messagesOf c (db 0) := (hsame 1).mem_iff.mp hm
      rw [history_eq] at habove hfirst
      obtain ⟨x, hx⟩ := List.exists_mem_of_ne_nil _ fun h => hfirst (congrArg _ h)
      have hlt : x.threadSequence < m.threadSequence := habove _ (List.mem_map_of_mem hx)
      have hsel : m ∈ selected c (newerOptions limit s []) (db 0) := by
        have hxs := (mem_selected_newer.mp (mem_selected_of_page c hx)).2.1 rfl
        exact mem_selected_newer.mpr ⟨hin, fun _ => by omega, by simp⟩
      have hon := newer_on_page (hstored 0) c hx hsel hlt
      exact absurd (habove _ (List.mem_map_of_mem hon)) (Nat.lt_irrefl _)
    apply List.eq_nil_of_length_eq_zero
    rw [history_eq, List.length_map, page_length, hnone, List.length_nil, Nat.min_zero]

end Forward

end Birgap.Messages.Scrolling
