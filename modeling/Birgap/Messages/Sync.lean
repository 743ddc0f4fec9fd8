import Birgap.Messages.Queries
import Birgap.Lib.Rows

/-!
# Offline sync

A client repeats `sync` with the stamp of the last envelope it got. The stamp is not unique
and the comparison is strict, so it gets every envelope exactly when no page ends between
two envelopes of one stamp. The deletions come from a second query with a bound of its own,
which nothing continues.
-/
namespace Birgap.Messages.Sync

set_option autoImplicit false

open Birgap.Lib Birgap.Lib.Paging

/-! ## The envelopes -/

/-- What the outside contributes to a call: the clock, and how the database arranges rows of
equal stamp. -/
structure Call where
  now : Time
  updated : OrderBy MessageEnvelope.updatedAt
  deleted : OrderBy fun m : Message => m.deletedAt.getD 0

/-- The client's loop from call `i` on: it asks again from the `updatedAt` of the last
envelope received until `hasMore` is false. -/
def syncAll (calls : Nat → Call) (userId deviceId : Id) (limit : Option Nat) (db : Db) :
    Nat → Nat → Time → Option (List SyncedEnvelope)
  | 0, _, _ => none
  | fuel + 1, i, since =>
      match sync (calls i).updated (calls i).deleted (calls i).now userId deviceId (some since)
          limit db with
      | .error _ => none
      | .ok answer =>
          if answer.hasMore then
            match answer.envelopes.getLast? with
            | none => none
            | some last => (syncAll calls userId deviceId limit db fuel (i + 1) last.updatedAt).map
                (answer.envelopes ++ ·)
          else some answer.envelopes

/-- The loop ends, having received every envelope of the device changed after `since`. -/
def SyncComplete (calls : Nat → Call) (userId deviceId : Id) (limit : Option Nat) (since : Time)
    (db : Db) : Prop :=
  ∃ fuel received, syncAll calls userId deviceId limit db fuel 0 since = some received ∧
    ∀ e ∈ db.messageEnvelopes, e.recipientDeviceId = deviceId → since < e.updatedAt →
      syncedEnvelope db e ∈ received

/-- An answer inside the window: one page of the envelopes, and whether more follow. -/
theorem sync_inside (call : Call) {userId deviceId : Id} {since : Time} {limit : Option Nat}
    {db : Db} (hd : assertActiveDevice userId deviceId db = .ok ())
    (hw : call.now - maxSyncWindow ≤ since) :
    let found := call.updated.arrange
      (rowsAfter (·.updatedAt) since (deviceEnvelopes deviceId db))
    sync call.updated call.deleted call.now userId deviceId (some since) limit db = .ok
      { requiresFullReload := false
        envelopes := (if syncTake limit < found.length then found.take (syncTake limit)
          else found).map (syncedEnvelope db)
        deletedMessages := ((call.deleted.arrange (deletionsSince userId since db)).take 200).map
          deletedMessage
        hasMore := decide (syncTake limit < found.length) } := by
  intro found
  have hin : ¬ since < call.now - maxSyncWindow := Int.not_lt.mpr hw
  have hmore : decide (syncTake limit < (found.take (syncTake limit + 1)).length) =
      decide (syncTake limit < found.length) := by
    rw [List.length_take, decide_eq_decide]
    omega
  simp only [sync, hd, hin, ↓reduceIte]
  rw [hmore]
  by_cases h : syncTake limit < found.length
  · simp only [h, decide_true, ↓reduceIte]
    rw [List.take_take, min_eq_left (Nat.le_succ _)]
  · simp only [h, decide_false, Bool.false_eq_true, ↓reduceIte]
    have hall : found.length ≤ syncTake limit + 1 := by omega
    rw [List.take_of_length_le hall]

/-- Inside the window the loop is the reader of pages over the envelopes of the device. -/
theorem syncAll_eq_drain (calls : Nat → Call) {userId deviceId : Id} (limit : Option Nat)
    {db : Db} (hd : assertActiveDevice userId deviceId db = .ok ()) :
    ∀ fuel i since, (∀ i, (calls i).now - maxSyncWindow ≤ since) →
      syncAll calls userId deviceId limit db fuel i since =
        (drain (fun i => (calls i).updated) (syncTake limit) (deviceEnvelopes deviceId db)
          fuel i since).map (List.map (syncedEnvelope db)) := by
  intro fuel
  induction fuel with
  | zero => intro i since _; rfl
  | succ fuel ih =>
      intro i since hw
      simp only [syncAll, sync_inside (calls i) hd (hw i), drain]
      by_cases hmore : syncTake limit < ((calls i).updated.arrange
          (rowsAfter (·.updatedAt) since (deviceEnvelopes deviceId db))).length
      · simp only [hmore, decide_true, ↓reduceIte, List.getLast?_map]
        cases hl : (((calls i).updated.arrange
            (rowsAfter (·.updatedAt) since (deviceEnvelopes deviceId db))).take
              (syncTake limit)).getLast? with
        | none => rfl
        | some last =>
            -- the next cursor is a later stamp, so it is inside the window as well
            have hlast := mem_rowsAfter.mp ((calls i).updated.mem_arrange.mp
              (List.mem_of_mem_take (List.mem_of_getLast? hl)))
            have hnext := ih (i + 1) last.updatedAt fun k => (hw k).trans hlast.2.le
            have hstamp : (syncedEnvelope db last).updatedAt = last.updatedAt := rfl
            simp only [Option.map_some, hstamp, hnext, Option.map_map]
            congr 1
            funext rest
            exact (List.map_append ..).symm
      · simp only [hmore, decide_false, Bool.false_eq_true, ↓reduceIte, Option.map_some]

theorem syncedEnvelope_mem {rows : List MessageEnvelope} {db : Db} {e : MessageEnvelope}
    (hk : Rows.Unique (·.id) db.messageEnvelopes) (he : e ∈ db.messageEnvelopes)
    (hrows : ∀ r ∈ rows, r ∈ db.messageEnvelopes) :
    syncedEnvelope db e ∈ rows.map (syncedEnvelope db) ↔ e ∈ rows := by
  constructor
  · intro h
    obtain ⟨r, hr, hview⟩ := List.mem_map.mp h
    have hid : r.id = e.id := congrArg SyncedEnvelope.id hview
    rw [← hk.eq (hrows r hr) he hid]
    exact hr
  · intro h
    exact List.mem_map_of_mem h

/-- For every store, active device, positive limit and `since` inside the window of every
call, the loop receives all changed envelopes exactly when no multiple of the page size
falls inside a run of envelopes of the device with one `updatedAt`. -/
theorem sync_complete_iff (calls : Nat → Call) (userId deviceId : Id) (limit : Option Nat)
    (since : Time) (db : Db) (hd : assertActiveDevice userId deviceId db = .ok ())
    (hk : Rows.Unique (·.id) db.messageEnvelopes) (hl : 0 < limit.getD 200)
    (hw : ∀ i, (calls i).now - maxSyncWindow ≤ since) :
    SyncComplete calls userId deviceId limit since db ↔
      NoSplit (·.updatedAt) (syncTake limit) since (deviceEnvelopes deviceId db) := by
  have htake : 0 < syncTake limit := by
    unfold syncTake
    omega
  have hrows : ∀ e, e ∈ deviceEnvelopes deviceId db ↔
      e ∈ db.messageEnvelopes ∧ e.recipientDeviceId = deviceId := by
    intro e
    rw [deviceEnvelopes, List.mem_filter, beq_iff_eq]
  have hn : (deviceEnvelopes deviceId db).Nodup := (List.Nodup.of_map _ hk).filter _
  -- whatever the fuel, what an ended loop received is the view of what the reader got
  have hread : ∀ fuel got, drain (fun i => (calls i).updated) (syncTake limit)
      (deviceEnvelopes deviceId db) fuel 0 since = some got →
      ((∀ e ∈ db.messageEnvelopes, e.recipientDeviceId = deviceId → since < e.updatedAt →
        syncedEnvelope db e ∈ got.map (syncedEnvelope db)) ↔
      NoSplit (·.updatedAt) (syncTake limit) since (deviceEnvelopes deviceId db)) := by
    intro fuel got hgot
    rw [← drain_complete_iff hn hgot]
    have hstored : ∀ r ∈ got, r ∈ db.messageEnvelopes :=
      fun r hr => ((hrows r).mp (drain_after hgot r hr).1).1
    constructor
    · intro h e he hsince
      obtain ⟨hm, hdev⟩ := (hrows e).mp he
      exact (syncedEnvelope_mem hk hm hstored).mp (h e hm hdev hsince)
    · intro h e he hdev hsince
      exact (syncedEnvelope_mem hk he hstored).mpr (h e ((hrows e).mpr ⟨he, hdev⟩) hsince)
  constructor
  · rintro ⟨fuel, received, hrun, hall⟩
    rw [syncAll_eq_drain calls limit hd fuel 0 since hw] at hrun
    obtain ⟨got, hgot, rfl⟩ := Option.map_eq_some_iff.mp hrun
    exact (hread fuel got hgot).mp hall
  · intro hsplit
    obtain ⟨got, hgot⟩ := drain_ends (fun i => (calls i).updated) htake
      (deviceEnvelopes deviceId db)
      ((rowsAfter (·.updatedAt) since (deviceEnvelopes deviceId db)).length + 1) 0 since
      (Nat.lt_succ_self _)
    have hrun := syncAll_eq_drain calls limit hd
      ((rowsAfter (·.updatedAt) since (deviceEnvelopes deviceId db)).length + 1) 0 since hw
    rw [hgot] at hrun
    exact ⟨_, _, hrun, (hread _ got hgot).mpr hsplit⟩

/-- One device, and two envelopes of it with the given stamps. -/
def sampleDb (first second : Time) : Db :=
  { devices := [{ id := "d1", userId := "alice", platform := .ios, identityPublicKey := "k1"
                  createdAt := 0 }]
    messageEnvelopes :=
      [{ id := "e1", messageId := "m1", recipientUserId := "alice", recipientDeviceId := "d1"
         ciphertext := "c1", status := .read, createdAt := 0, updatedAt := first },
       { id := "e2", messageId := "m2", recipientUserId := "alice", recipientDeviceId := "d1"
         ciphertext := "c2", status := .read, createdAt := 0, updatedAt := second }] }

/-- A call in the same second every time, with rows of equal stamp as they are stored. -/
def sampleCall : Call :=
  { now := 1000, updated := .stable _, deleted := .stable _ }

/-- Two envelopes marked read by one update, fetched one at a time: the second is never
received. -/
theorem equal_stamps_lost :
    ¬ ∀ (calls : Nat → Call) (userId deviceId : Id) (limit : Option Nat) (since : Time) (db : Db),
      assertActiveDevice userId deviceId db = .ok () → Rows.Unique (·.id) db.messageEnvelopes →
      0 < limit.getD 200 → (∀ i, (calls i).now - maxSyncWindow ≤ since) →
      SyncComplete calls userId deviceId limit since db := by
  intro h
  obtain ⟨fuel, received, hrun, hall⟩ := h (fun _ => sampleCall) "alice" "d1" (some 1) 0
    (sampleDb 500 500) rfl (by decide) (by decide) (by intro i; decide)
  have hgot : received.map (·.id) = ["e1"] := by
    match fuel, hrun with
    | 1, hrun => cases hrun
    | n + 2, hrun =>
        obtain rfl := Option.some.inj hrun
        rfl
  have hlost := List.mem_map_of_mem (f := (·.id)) (hall
    { id := "e2", messageId := "m2", recipientUserId := "alice", recipientDeviceId := "d1"
      ciphertext := "c2", status := .read, createdAt := 0, updatedAt := 500 }
    (by decide) rfl (by decide))
  rw [hgot] at hlost
  revert hlost
  decide

/-- With two stamps the same client receives both, so no page ends inside a run. -/
theorem distinct_stamps_received :
    NoSplit (·.updatedAt) (syncTake (some 1)) 0 (deviceEnvelopes "d1" (sampleDb 500 600)) :=
  (sync_complete_iff (fun _ => sampleCall) "alice" "d1" (some 1) 0 (sampleDb 500 600) rfl
    (by decide) (by decide) (by intro i; decide)).mp ⟨3, _, rfl, by decide⟩

/-! ## The deletions -/

/-- The user takes part in the direct thread or the group of the message. -/
def Participates (userId : Id) (m : Message) (db : Db) : Prop :=
  (∃ t ∈ db.directThreads, m.threadId = some t.id ∧ (t.userAId = userId ∨ t.userBId = userId)) ∨
  ∃ g ∈ db.groupMembers, m.groupId = some g.groupId ∧ g.userId = userId

/-- The list has exactly the messages of the user's conversations deleted after `since`,
each once. -/
structure DeletionsExact (userId : Id) (since : Time) (db : Db) (listed : List DeletedMessage) :
    Prop where
  once : (listed.map (·.messageId)).Nodup
  exact : ∀ d, d ∈ listed ↔ ∃ m ∈ db.messages, (∃ at_, m.deletedAt = some at_ ∧ since < at_) ∧
    Participates userId m db ∧ d = deletedMessage m

theorem mem_deletionsSince {userId : Id} {since : Time} {db : Db} {m : Message} :
    m ∈ deletionsSince userId since db ↔ m ∈ db.messages ∧
      (∃ at_, m.deletedAt = some at_ ∧ since < at_) ∧ Participates userId m db := by
  simp only [deletionsSince, inConversationOf, Participates, List.mem_filter, Bool.and_eq_true,
    Bool.or_eq_true, List.any_eq_true, beq_iff_eq, Option.any_eq_true, decide_eq_true_eq]

/-- The bounded list of deletions is exact exactly when the bound cuts nothing off. -/
theorem bounded_deletions_exact_iff (call : Call) (userId : Id) (since : Time) {db : Db}
    (hk : Rows.Unique (·.id) db.messages) :
    DeletionsExact userId since db
      (((call.deleted.arrange (deletionsSince userId since db)).take 200).map deletedMessage) ↔
      (deletionsSince userId since db).length ≤ 200 := by
  have hunique : Rows.Unique (·.id) (deletionsSince userId since db) := hk.filter _
  have hids : ((((call.deleted.arrange (deletionsSince userId since db)).take 200).map
      deletedMessage).map (·.messageId)) =
      (((call.deleted.arrange (deletionsSince userId since db)).take 200).map (·.id)) := by
    rw [List.map_map]
    rfl
  constructor
  · intro h
    -- all the deletions are among the first two hundred, and no two of them are the same
    have hsub : (deletionsSince userId since db).map (·.id) ⊆
        (((call.deleted.arrange (deletionsSince userId since db)).take 200).map (·.id)) := by
      intro id hid
      obtain ⟨m, hm, rfl⟩ := List.mem_map.mp hid
      obtain ⟨hstored, hwhen, hpart⟩ := mem_deletionsSince.mp hm
      have hlisted := (h.exact (deletedMessage m)).mpr ⟨m, hstored, hwhen, hpart, rfl⟩
      rw [← hids]
      exact List.mem_map_of_mem hlisted
    have hle := (List.Nodup.subperm hunique hsub).length_le
    rw [List.length_map, List.length_map, List.length_take] at hle
    omega
  · intro hle
    have hall : (call.deleted.arrange (deletionsSince userId since db)).take 200 =
        call.deleted.arrange (deletionsSince userId since db) := by
      apply List.take_of_length_le
      rw [call.deleted.length_arrange]
      exact hle
    constructor
    · rw [hids, hall]
      exact (((call.deleted.perm _).map _).nodup_iff).mpr hunique
    · intro d
      rw [hall, List.mem_map]
      constructor
      · rintro ⟨m, hm, rfl⟩
        obtain ⟨hstored, hwhen, hpart⟩ := mem_deletionsSince.mp (call.deleted.mem_arrange.mp hm)
        exact ⟨m, hstored, hwhen, hpart, rfl⟩
      · rintro ⟨m, hstored, hwhen, hpart, rfl⟩
        exact ⟨m, call.deleted.mem_arrange.mpr (mem_deletionsSince.mpr ⟨hstored, hwhen, hpart⟩), rfl⟩

/-- An answer that asks for no reload and announces nothing more has the right deletions
exactly when there are at most two hundred of them; where more envelopes follow, it does not
claim to be complete. -/
theorem deletions_exact_iff (call : Call) (userId deviceId : Id) (since : Time)
    (limit : Option Nat) (db : Db) (hd : assertActiveDevice userId deviceId db = .ok ())
    (hk : Rows.Unique (·.id) db.messages) (hw : call.now - maxSyncWindow ≤ since) :
    (∀ answer, sync call.updated call.deleted call.now userId deviceId (some since) limit db =
        .ok answer → answer.requiresFullReload = false → answer.hasMore = false →
        DeletionsExact userId since db answer.deletedMessages) ↔
      (deletionsSince userId since db).length ≤ 200 ∨
      syncTake limit < (rowsAfter (·.updatedAt) since (deviceEnvelopes deviceId db)).length := by
  rw [sync_inside call hd hw, call.updated.length_arrange, ← bounded_deletions_exact_iff call userId since hk]
  constructor
  · intro h
    rcases Nat.lt_or_ge (syncTake limit)
        (rowsAfter (·.updatedAt) since (deviceEnvelopes deviceId db)).length with hm | hm
    · exact Or.inr hm
    · exact Or.inl (h _ rfl rfl (decide_eq_false (Nat.not_lt.mpr hm)))
  · rintro h answer he _ hmore
    obtain rfl := Except.ok.inj he
    rcases h with h | hm
    · exact h
    · exact absurd hm (of_decide_eq_false hmore)

/-- A direct thread with `n` messages, all deleted by one suspension at time 500. -/
def suspendedDb (n : Nat) : Db :=
  { sampleDb 100 200 with
    directThreads := [{ id := "t1", userAId := "alice", userBId := "bob" }]
    messages := (List.range n).map fun i =>
      { id := String.ofList (List.replicate i 'm'), threadId := some "t1", senderUserId := "bob"
        senderDeviceId := "d2", idempotencyKey := "k", threadSequence := i, createdAt := 0
        deletedAt := some 500 } }

theorem suspendedDb_keys (n : Nat) : Rows.Unique (·.id) (suspendedDb n).messages := by
  simp only [Rows.Unique, suspendedDb, List.map_map]
  apply List.Nodup.map _ List.nodup_range
  intro i j h
  have hlen := congrArg (fun s : String => s.toList.length) h
  simpa using hlen

theorem suspendedDb_deletions (n : Nat) :
    (deletionsSince "alice" 300 (suspendedDb n)).length = n := by
  have hall : deletionsSince "alice" 300 (suspendedDb n) = (suspendedDb n).messages := by
    apply List.filter_eq_self.mpr
    intro m hm
    obtain ⟨i, _, rfl⟩ := List.mem_map.mp hm
    rfl
  rw [hall, suspendedDb, List.length_map, List.length_range]

/-- After the suspension of a user with 201 messages, one deletion is missing from an answer
that says it is complete. -/
theorem deletions_cut_off :
    ¬ ∀ (call : Call) (userId deviceId : Id) (since : Time) (limit : Option Nat) (db : Db),
      assertActiveDevice userId deviceId db = .ok () → Rows.Unique (·.id) db.messages →
      call.now - maxSyncWindow ≤ since →
      ∀ answer, sync call.updated call.deleted call.now userId deviceId (some since) limit db =
        .ok answer → answer.requiresFullReload = false → answer.hasMore = false →
        DeletionsExact userId since db answer.deletedMessages := by
  intro h
  have hw : sampleCall.now - maxSyncWindow ≤ 300 := by decide
  have hd : assertActiveDevice "alice" "d1" (suspendedDb 201) = .ok () := rfl
  have hexact := h sampleCall "alice" "d1" 300 none (suspendedDb 201) hd (suspendedDb_keys 201) hw _
    (sync_inside sampleCall hd hw) rfl rfl
  dsimp only at hexact
  have hle := (bounded_deletions_exact_iff sampleCall "alice" 300 (suspendedDb_keys 201)).mp hexact
  rw [suspendedDb_deletions] at hle
  omega

/-- Two hundred deletions are listed whole. -/
theorem deletions_up_to_the_bound :
    (deletionsSince "alice" 300 (suspendedDb 200)).length = 200 ∧
    ∀ answer, sync sampleCall.updated sampleCall.deleted 1000 "alice" "d1" (some 300) none
        (suspendedDb 200) = .ok answer → answer.requiresFullReload = false →
      answer.hasMore = false → DeletionsExact "alice" 300 (suspendedDb 200) answer.deletedMessages := by
  refine ⟨suspendedDb_deletions 200, ?_⟩
  exact (deletions_exact_iff sampleCall "alice" "d1" 300 none (suspendedDb 200) rfl
    (suspendedDb_keys 200) (by decide)).mpr (Or.inl (suspendedDb_deletions 200).le)

end Birgap.Messages.Sync
