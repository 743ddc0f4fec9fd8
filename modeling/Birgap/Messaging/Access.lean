import Birgap.Messaging.Routing
import Birgap.Messages.Access
import Birgap.Groups.MemberCache

/-!
# The access checks agree

The messaging system runs beside the calls that change the members of a group. Every message
is created in a thread or in a group and stays there, so the copies of the access check,
which let everyone through when a message has neither, decide the same.
-/
namespace Birgap.Messaging.Access

set_option autoImplicit false

open Birgap.Lib Birgap.Lib.Run Birgap.Lib.Tx Birgap.Messages Birgap.Messages.Sequence
  Birgap.Groups Birgap.Auth

/-- The members and their calls, and beside them the calls of the messaging system. -/
structure State extends MemberCache.State where
  calls : Nat → Call
  jobs : List GroupFanoutJobData

inductive Act where
  | message (a : Messaging.Act)
  | member (a : MemberCache.Act)
  | createGroup (groupId creatorUserId : Id) (dto : CreateGroupDto)

def State.messaging (s : State) : Messaging.State :=
  { db := s.db, calls := s.calls, jobs := s.jobs }

def step (env : AuthEnv) (configuredMax : Option Int) (s : State) : Act → State
  | .message a =>
      let m := Messaging.step env configuredMax s.messaging a
      { s with db := m.db, calls := m.calls, jobs := m.jobs }
  | .member a => { s with toState := MemberCache.step s.toState a }
  | .createGroup groupId creatorUserId dto =>
      match Groups.createGroup groupId creatorUserId dto s.db with
      | .ok db => { s with db := db }
      | .error _ => s

/-- No messages and threads yet; any users, groups, members and cached ids. -/
def start (db : Db) (cache : Id → List Id) : State :=
  { MemberCache.start (Messaging.start db).db cache with calls := fun _ => .idle, jobs := [] }

/-- Exactly one of the two ids is set. -/
def OneHome (m : Message) : Prop :=
  (m.threadId.isSome ∧ m.groupId = none) ∨ (m.threadId = none ∧ m.groupId.isSome)

/-- One of the two participants of the thread, or a current member of the group. -/
def InConversation (db : Db) (m : Message) (userId : Id) : Prop :=
  (∃ threadId, m.threadId = some threadId ∧ TakesPart db threadId userId) ∨
    ∃ groupId, m.groupId = some groupId ∧ isMember groupId userId db = true

structure Housed (db : Db) : Prop where
  sequenced : Sequenced db
  home : ∀ m ∈ db.messages, OneHome m

/-! ## The checks -/

/-- In a numbered store the look-up of a thread finds its participants. -/
theorem any_thread_iff {db : Db} (hs : Sequenced db) {threadId userId : Id} :
    ((db.directThreads.find? (·.id == threadId)).any fun t =>
      t.userAId == userId || t.userBId == userId) = true ↔ TakesPart db threadId userId := by
  cases hf : db.directThreads.find? (·.id == threadId) with
  | none =>
      constructor
      · intro h
        cases h
      · intro h
        obtain ⟨t, ht, hid, _⟩ := h
        have hno := List.find?_eq_none.mp hf t ht
        simp [hid] at hno
  | some x =>
      have hx := List.mem_of_find?_eq_some hf
      have hxid : x.id = threadId := by simpa using List.find?_some hf
      simp only [Option.any_some, Bool.or_eq_true, beq_iff_eq]
      constructor
      · intro h
        exact ⟨x, hx, hxid, h.imp Eq.symm Eq.symm⟩
      · intro h
        obtain ⟨t, ht, hid, hpart⟩ := h
        obtain rfl := hs.ids.eq ht hx (hid.trans hxid.symm)
        exact hpart.imp Eq.symm Eq.symm

/-- A copy of the check passes exactly for the users in the conversation. -/
theorem checkParticipant_iff {notInThread notInGroup : Err} {userId : Id} {m : Message} {db : Db}
    (hs : Sequenced db) (hm : OneHome m) :
    checkParticipant notInThread notInGroup userId m db = .ok () ↔ InConversation db m userId := by
  unfold checkParticipant InConversation
  rcases hm with ⟨hthread, hgroup⟩ | ⟨hthread, hgroup⟩
  · obtain ⟨threadId, ht⟩ := Option.isSome_iff_exists.mp hthread
    simp only [ht, hgroup]
    rw [ensure_ok, any_thread_iff hs]
    simp
  · obtain ⟨groupId, hg⟩ := Option.isSome_iff_exists.mp hgroup
    simp only [hthread, hg]
    rw [ensure_ok]
    simp

theorem hasAccess_eq (userId : Id) (m : Message) (db : Db) :
    hasAccess userId m db =
      checkParticipant (.forbidden "Not a participant in this thread")
        (.forbidden "Not a member of this group") userId m db := rfl

/-! ## Runs -/

/-- Every path that creates a message sets one id and not the other. -/
theorem effect_home {env : AuthEnv} {configuredMax : Option Int} {s : Messaging.State}
    {a : Messaging.Act} {o : Messaging.State × Option Returned}
    (he : Effect env configuredMax s a o) (h : ∀ m ∈ s.db.messages, OneHome m) :
    ∀ m ∈ o.1.db.messages, OneHome m := by
  rcases he.inserts with hsame | ⟨m, hm⟩
  · rw [hsame.messages]
    exact h
  · intro x hx
    rw [hm.messages.2] at hx
    rcases List.mem_append.mp hx with hold | hx
    · exact h x hold
    · obtain rfl := List.mem_singleton.mp hx
      cases hm with
      | posted hc htx =>
          obtain ⟨_, _, _, _, _, hp⟩ := DirectTask.tx_ok htx
          obtain ⟨_, _, hthread, hgroup⟩ := hp.messages
          exact Or.inl ⟨hthread, hgroup⟩
      | @committed pid t sequence replyTo now messageId mediaId hc hdb =>
          refine Or.inr ⟨groupMessage_thread now messageId t.request sequence replyTo, ?_⟩
          rw [groupMessage_group]
          rfl

theorem createGroup_frame {groupId creatorUserId : Id} {dto : CreateGroupDto} {db db' : Db}
    (h : Groups.createGroup groupId creatorUserId dto db = .ok db') :
    db'.directThreads = db.directThreads ∧ db'.messages = db.messages := by
  unfold Groups.createGroup at h
  dsimp only at h
  split at h
  · cases h
  · rw [createMembers_ok h]
    exact ⟨rfl, rfl⟩

theorem Housed.frame {db db' : Db} (h : Housed db) (ht : db'.directThreads = db.directThreads)
    (hm : db'.messages = db.messages) : Housed db' :=
  ⟨h.sequenced.frame ht hm, by rw [hm]; exact h.home⟩

theorem start_housed (db : Db) (cache : Id → List Id) : Housed (start db cache).db := by
  have hnone : ∀ m ∈ (start db cache).db.messages, False := by
    intro m hm
    cases hm
  exact ⟨sequenced_of_empty rfl fun m hm => (hnone m hm).elim, fun m hm => (hnone m hm).elim⟩

theorem step_housed (env : AuthEnv) (configuredMax : Option Int) (s : State) (a : Act)
    (h : Housed s.db) : Housed (step env configuredMax s a).db := by
  cases a with
  | message a =>
      have he := exec_effect env configuredMax s.messaging a
      exact ⟨he.sequenced h.sequenced, effect_home he h.home⟩
  | member a =>
      obtain ⟨members, hdb⟩ := MemberCache.step_frame s.toState a
      show Housed (MemberCache.step s.toState a).db
      rw [hdb]
      exact h.frame rfl rfl
  | createGroup groupId creatorUserId dto =>
      simp only [step]
      split
      · rename_i db hdb
        obtain ⟨ht, hm⟩ := createGroup_frame hdb
        exact h.frame ht hm
      · exact h

/-- In every run of message, group and membership calls, a message belongs to a thread or to
a group and not to both, and the four services let exactly its participants or current
members through. -/
theorem access_checks_agree (env : AuthEnv) (configuredMax : Option Int) (db : Db)
    (cache : Id → List Id) (acts : List Act) :
    Always (step env configuredMax)
      (fun s => ∀ m ∈ s.db.messages, OneHome m ∧ ∀ userId,
        (hasAccess userId m s.db = .ok () ↔ InConversation s.db m userId) ∧
        (checkReactor userId m s.db = .ok () ↔ InConversation s.db m userId) ∧
        (checkDownloader userId m s.db = .ok () ↔ InConversation s.db m userId) ∧
        (checkReporter userId m s.db = .ok () ↔ InConversation s.db m userId))
      (start db cache) acts := by
  intro pre _
  have h : Housed (run (step env configuredMax) (start db cache) pre).db :=
    run_invariant (I := fun s => Housed s.db) (fun s a hs => step_housed env configuredMax s a hs)
      pre _ (start_housed db cache)
  intro m hm
  have hhome := h.home m hm
  refine ⟨hhome, ?_⟩
  intro userId
  rw [hasAccess_eq]
  exact ⟨checkParticipant_iff h.sequenced hhome, checkParticipant_iff h.sequenced hhome,
    checkParticipant_iff h.sequenced hhome, checkParticipant_iff h.sequenced hhome⟩

end Birgap.Messaging.Access
