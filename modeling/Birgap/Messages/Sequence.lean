import Birgap.Messages.Direct
import Birgap.Lib.Run
import Birgap.Lib.Sequence

/-!
# Direct threads are numbered without gaps

Every state reached from an empty message store by `send` and `forwardToDirect`
requests has at most one thread for a pair of users, stored in canonical order, with its
messages numbered 1, 2, .. up to the counter of the thread. A transaction is one step,
so the steps of a run are the commits in any order; a request whose look-up ran before other
requests committed takes part with its transaction alone.
-/
namespace Birgap.Messages.Sequence

set_option autoImplicit false

open Birgap.Lib Birgap.Lib.Tx Birgap.Lib.Run Birgap.Lib.Sequence

inductive Op where
  | send (ctx : Ctx) (senderUserId : Id) (dto : SendMessageDto)
  | sendCommit (ctx : Ctx) (senderUserId : Id) (dto : SendMessageDto)
  | forward (ctx : Ctx) (f : Forward)
  | forwardCommit (ctx : Ctx) (f : Forward)

def step (db : Db) : Op → Db
  | .send ctx senderUserId dto => (send ctx senderUserId dto db).2
  | .sendCommit ctx senderUserId dto => (atomically (sendTx ctx senderUserId dto) db).2
  | .forward ctx f => (forwardToDirect ctx f db).2
  | .forwardCommit ctx f => (atomically (f.tx ctx) db).2

/-- The numbers of the messages of a thread, in insertion order. -/
def threadSequences (id : Id) (db : Db) : List Nat :=
  (db.messages.filter (·.threadId == some id)).map (·.threadSequence)

structure Sequenced (db : Db) : Prop where
  ids : Rows.Unique (·.id) db.directThreads
  pairs : Rows.Unique (fun t => (t.userAId, t.userBId)) db.directThreads
  canonical : ∀ t ∈ db.directThreads, t.userAId < t.userBId
  owned : ∀ m ∈ db.messages, ∀ id, m.threadId = some id → ∃ t ∈ db.directThreads, t.id = id
  gapless : ∀ t ∈ db.directThreads, Gapless t.latestSequence (threadSequences t.id db)

/-- A new thread starts at zero, and no message can refer to it yet. -/
theorem upsertThread_sequenced {threadId userAId userBId : Id} {db db' : Db} {t : DirectThread}
    (h : upsertThread threadId userAId userBId db = .ok (t, db')) (hlt : userAId < userBId)
    (hs : Sequenced db) : Sequenced db' := by
  obtain ⟨_, _, _, rfl⟩ | ⟨hpair, hid, rfl, rfl⟩ := upsertThread_ok h
  · exact hs
  · have hempty : threadSequences threadId db = [] := by
      unfold threadSequences
      rw [List.map_eq_nil_iff]
      apply Rows.filter_eq_nil_of_ne
      intro m hm he
      obtain ⟨x, hx, hxid⟩ := hs.owned m hm threadId he
      exact hid x hx hxid
    constructor
    · exact Rows.unique_append hs.ids hid
    · exact Rows.unique_append hs.pairs hpair
    · intro x hx
      rcases List.mem_append.mp hx with hx | hx
      · exact hs.canonical x hx
      · rw [List.mem_singleton.mp hx]
        exact hlt
    · intro m hm id he
      obtain ⟨x, hx, hxid⟩ := hs.owned m hm id he
      exact ⟨x, List.mem_append_left _ hx, hxid⟩
    · intro x hx
      rcases List.mem_append.mp hx with hx | hx
      · exact hs.gapless x hx
      · rw [List.mem_singleton.mp hx]
        show Gapless 0 (threadSequences threadId db)
        rw [hempty]
        exact gapless_nil

/-- Moving the counter and appending the message under the new number keep the thread
gapless, and every other thread as it was. -/
theorem append_sequenced {db : Db} {x : DirectThread} {m : Message}
    (envelopes : List MessageEnvelope) (media : List MessageMedia) (hx : x ∈ db.directThreads)
    (ht : m.threadId = some x.id) (hn : m.threadSequence = x.latestSequence + 1)
    (hs : Sequenced db) :
    Sequenced { db with
      directThreads := Rows.updateMany (·.id == x.id) bump db.directThreads
      messages := db.messages ++ [m]
      messageEnvelopes := db.messageEnvelopes ++ envelopes
      messageMedia := media } := by
  constructor
  · exact Rows.unique_updateMany (f := bump) (fun _ => rfl) hs.ids
  · exact Rows.unique_updateMany (f := bump) (fun _ => rfl) hs.pairs
  · intro t ht
    obtain ⟨t₀, ht₀, rfl⟩ := Rows.mem_updateMany.mp ht
    have hlt := hs.canonical t₀ ht₀
    split <;> exact hlt
  · intro m' hm' id he
    have hold : ∃ t ∈ db.directThreads, t.id = id := by
      rcases List.mem_append.mp hm' with hm' | hm'
      · exact hs.owned m' hm' id he
      · rw [List.mem_singleton.mp hm', ht] at he
        exact ⟨x, hx, Option.some.inj he⟩
    obtain ⟨t, ht, hid⟩ := hold
    refine ⟨_, Rows.mem_updateMany.mpr ⟨t, ht, rfl⟩, ?_⟩
    split <;> exact hid
  · intro t ht'
    obtain ⟨t₀, ht₀, rfl⟩ := Rows.mem_updateMany.mp ht'
    have hold := hs.gapless t₀ ht₀
    unfold threadSequences at hold ⊢
    rw [List.filter_append, List.map_append]
    by_cases hid : t₀.id = x.id
    · obtain rfl := hs.ids.eq ht₀ hx hid
      rw [if_pos (by simp)]
      simp only [bump, ht, hn, List.filter_singleton, beq_self_eq_true, cond_true,
        List.map_singleton]
      exact hold.snoc
    · rw [if_neg (by simpa using hid)]
      have hno : [m].filter (·.threadId == some t₀.id) = [] := by
        simp [ht, Ne.symm hid]
      rw [hno, List.map_nil, List.append_nil]
      exact hold

theorem posted_sequenced {threadId : Id} {pair : Id × Id} {m : Message}
    {envelopes : List MessageEnvelope} {db db' : Db} (h : Posted threadId pair m envelopes db db')
    (hlt : pair.1 < pair.2) (hs : Sequenced db) : Sequenced db' := by
  obtain ⟨thread, x, db₁, media, hu, hx, hid, ht, _, hn, _, _, rfl⟩ := h
  have hs₁ := upsertThread_sequenced hu hlt hs
  rw [← hid] at ht ⊢
  have happend := append_sequenced envelopes media hx ht hn hs₁
  rw [upsertThread_frame hu] at happend
  exact happend

/-- A posted message comes after every message of its thread. -/
theorem posted_after {threadId : Id} {pair : Id × Id} {m : Message}
    {envelopes : List MessageEnvelope} {db db' : Db} (h : Posted threadId pair m envelopes db db')
    (hlt : pair.1 < pair.2) (hs : Sequenced db) :
    ∀ p ∈ db.messages, p.threadId = m.threadId → p.threadSequence < m.threadSequence := by
  obtain ⟨thread, x, db₁, media, hu, hx, hid, ht, _, hn, _, _, _⟩ := h
  intro p hp hthread
  have hgapless := (upsertThread_sequenced hu hlt hs).gapless x hx
  have hp₁ : p ∈ db₁.messages := by
    rw [upsertThread_frame hu]
    exact hp
  have hmem : p.threadSequence ∈ threadSequences x.id db₁ := by
    apply List.mem_map_of_mem
    rw [List.mem_filter]
    exact ⟨hp₁, by simp [hthread, ht, hid]⟩
  have hle := (hgapless.mem_iff.mp hmem).2
  rw [hn]
  exact Nat.lt_succ_of_le hle

/-- A message outside of all threads leaves them as they are. -/
theorem Sequenced.append_other {db : Db} (hs : Sequenced db) {m : Message} (hm : m.threadId = none)
    (media : List MessageMedia) :
    Sequenced { db with messages := db.messages ++ [m], messageMedia := media } := by
  refine ⟨hs.ids, hs.pairs, hs.canonical, ?_, ?_⟩
  · intro m' hm' id he
    rcases List.mem_append.mp hm' with hm' | hm'
    · exact hs.owned m' hm' id he
    · rw [List.mem_singleton.mp hm', hm] at he
      cases he
  · intro t ht
    have hold := hs.gapless t ht
    unfold threadSequences at hold ⊢
    have hno : [m].filter (·.threadId == some t.id) = [] := by simp [hm]
    rw [List.filter_append, hno, List.append_nil]
    exact hold

/-- Only threads and messages matter. -/
theorem Sequenced.frame {db db' : Db} (hs : Sequenced db) (ht : db'.directThreads = db.directThreads)
    (hm : db'.messages = db.messages) : Sequenced db' := by
  constructor
  · rw [ht]
    exact hs.ids
  · rw [ht]
    exact hs.pairs
  · rw [ht]
    exact hs.canonical
  · rw [ht, hm]
    exact hs.owned
  · unfold threadSequences
    rw [ht, hm]
    exact hs.gapless

/-- A transaction of either kind posts a message between two different users. -/
theorem sendTx_sequenced {ctx : Ctx} {senderUserId : Id} {dto : SendMessageDto} {db db' : Db}
    {r : Serialized} (h : sendTx ctx senderUserId dto db = .ok (r, db')) (hs : Sequenced db) :
    Sequenced db' := by
  obtain ⟨ids, hr, _, hp⟩ := sendTx_ok h
  exact posted_sequenced hp (canonicalDirectPair_lt (routeDevices_ne hr)) hs

theorem forwardTx_sequenced {ctx : Ctx} {f : Forward} {db db' : Db} {r : Serialized}
    (h : f.tx ctx db = .ok (r, db')) (hs : Sequenced db) : Sequenced db' := by
  obtain ⟨ids, hr, _, hp⟩ := forwardTx_ok h
  exact posted_sequenced hp (canonicalDirectPair_lt (routeDevices_ne hr)) hs

/-- A request commits its transaction or leaves the store alone. -/
theorem step_sequenced (db : Db) (op : Op) (hs : Sequenced db) : Sequenced (step db op) := by
  cases op with
  | send ctx senderUserId dto =>
      exact idempotently_invariant (fun _ _ h hs => sendTx_sequenced h hs) hs
  | sendCommit ctx senderUserId dto =>
      exact atomically_invariant (fun _ _ h hs => sendTx_sequenced h hs) hs
  | forward ctx f =>
      exact idempotently_invariant (fun _ _ h hs => forwardTx_sequenced h hs) hs
  | forwardCommit ctx f =>
      exact atomically_invariant (fun _ _ h hs => forwardTx_sequenced h hs) hs

theorem sequenced_of_empty {db : Db} (ht : db.directThreads = [])
    (hm : ∀ m ∈ db.messages, m.threadId = none) : Sequenced db := by
  constructor
  · rw [Rows.Unique, ht]
    exact List.nodup_nil
  · rw [Rows.Unique, ht]
    exact List.nodup_nil
  · rw [ht]
    intro t h
    cases h
  · intro m h id he
    rw [hm m h] at he
    cases he
  · rw [ht]
    intro t h
    cases h

/-- A thread joins `a` and `b`, in either order. -/
def Joins (a b : Id) (t : DirectThread) : Prop :=
  (t.userAId = a ∧ t.userBId = b) ∨ (t.userAId = b ∧ t.userBId = a)

/-- Canonical order makes the unordered pair determine the thread. -/
theorem Sequenced.joins_eq {db : Db} (hs : Sequenced db) {a b : Id} {t u : DirectThread}
    (ht : t ∈ db.directThreads) (hu : u ∈ db.directThreads) (hjt : Joins a b t)
    (hju : Joins a b u) : t = u := by
  have hct := hs.canonical t ht
  have hcu := hs.canonical u hu
  apply hs.pairs.eq ht hu
  rcases hjt with ⟨hta, htb⟩ | ⟨hta, htb⟩ <;> rcases hju with ⟨hua, hub⟩ | ⟨hua, hub⟩
  · simp only [hta, htb, hua, hub]
  · rw [hta, htb] at hct
    rw [hua, hub] at hcu
    exact absurd hcu (lt_asymm hct)
  · rw [hta, htb] at hct
    rw [hua, hub] at hcu
    exact absurd hcu (lt_asymm hct)
  · simp only [hta, htb, hua, hub]

/-- After any requests, in any commit order and failing anywhere, a pair of users has at
most one thread, stored in canonical order, and its messages carry exactly the numbers
1, .., `latestSequence`. -/
theorem direct_sequencing (db : Db) (ht : db.directThreads = [])
    (hm : ∀ m ∈ db.messages, m.threadId = none) (ops : List Op) :
    (∀ a b, ∀ t ∈ (run step db ops).directThreads, ∀ u ∈ (run step db ops).directThreads,
      Joins a b t → Joins a b u → t = u) ∧
    (run step db ops).directThreads.Nodup ∧
    ∀ t ∈ (run step db ops).directThreads,
      t.userAId ≠ t.userBId ∧ (t.userAId, t.userBId) = canonicalDirectPair t.userAId t.userBId ∧
      (threadSequences t.id (run step db ops)).Perm (List.range' 1 t.latestSequence) := by
  have hs := run_invariant step_sequenced ops db (sequenced_of_empty ht hm)
  refine ⟨?_, List.Nodup.of_map _ hs.ids, ?_⟩
  · intro a b t htm u hum hjt hju
    exact hs.joins_eq htm hum hjt hju
  · intro t htm
    have hlt := hs.canonical t htm
    refine ⟨ne_of_lt hlt, ?_, hs.gapless t htm⟩
    unfold canonicalDirectPair
    rw [if_neg (ne_of_lt hlt), if_pos hlt]

def sampleDb : Db :=
  { devices :=
      [{ id := "d1", userId := "alice", platform := .ios, identityPublicKey := "k1", createdAt := 0 },
       { id := "d2", userId := "bob", platform := .ios, identityPublicKey := "k2", createdAt := 0 }] }

def sampleCtx (messageId : Id) : Ctx :=
  { now := 0, messageId, threadId := "t1"
    envelopeId := fun i => messageId ++ "-e" ++ toString i
    mediaId := fun i => messageId ++ "-m" ++ toString i }

/-- Alice writes to Bob, Bob's answer fails after the counter was moved and is sent again. -/
def sampleOps : List Op :=
  [.send (sampleCtx "m1") "alice"
     { senderDeviceId := "d1", recipientUserId := "bob", idempotencyKey := "send-key-1"
       envelopes := [⟨"d2", "c1"⟩] },
   .send { sampleCtx "m2" with fails := (· == .messageCreate) } "bob"
     { senderDeviceId := "d2", recipientUserId := "alice", idempotencyKey := "send-key-2"
       envelopes := [⟨"d1", "c2"⟩] },
   .send (sampleCtx "m3") "bob"
     { senderDeviceId := "d2", recipientUserId := "alice", idempotencyKey := "send-key-2"
       envelopes := [⟨"d1", "c2"⟩] }]

theorem direct_sequencing_after_failure :
    (run step sampleDb sampleOps).directThreads =
      [{ id := "t1", userAId := "alice", userBId := "bob", latestSequence := 2 }] ∧
    (threadSequences "t1" (run step sampleDb sampleOps)).Perm (List.range' 1 2) := by
  have ht : (run step sampleDb sampleOps).directThreads =
      [{ id := "t1", userAId := "alice", userBId := "bob", latestSequence := 2 }] := by decide
  refine ⟨ht, ?_⟩
  have h := direct_sequencing sampleDb rfl (by decide) sampleOps
  exact (h.2.2 _ (by rw [ht]; exact List.mem_singleton_self _)).2.2

end Birgap.Messages.Sequence
