import Birgap.Groups.Queue

/-!
# Accepted group messages reach the fan-out queue

A call that answers with success names a message for which exactly one fan-out job has
been added, with the group of the stored message. The commit and the job are two effects,
and the two idempotency look-ups answer or add a job for messages of other calls; the
result below holds along every run that keeps out of the gaps between them.
-/
namespace Birgap.Groups.Queue

set_option autoImplicit false

open Birgap.Lib Birgap.Lib.Run Birgap.Messages

/-- Exactly one job was added for the message, and it names the stored group. -/
def FannedOutOnce (messageId : Id) (s : State) : Prop :=
  ∃ job, s.jobs.filter (·.messageId == messageId) = [job] ∧
    ∃ m ∈ s.db.messages, m.id = messageId ∧ m.groupId = some job.groupId

/-- What a success promises in this step. -/
def SuccessMeansFannedOut (s : State) (a : Act) : Prop :=
  ∀ messageId, answer s a = some messageId → FannedOutOnce messageId (step s a)

/-- A job for the message has been added. -/
def Added (messageId : Id) (s : State) : Prop := ∃ job ∈ s.jobs, job.messageId = messageId

/-- Some call has committed or found the message and is about to add its job. -/
def Adding (messageId : Id) (s : State) : Prop :=
  ∃ pid r m, s.phases pid = .enqueueing r m ∧ m.id = messageId

/-- The first look-up finds a message only after its job was added, not between the commit
and the job of its sender nor after the queue refused it. The look-up inside the
transaction finds one only in the group of the request, and only when no call has added
its job or is about to. -/
def NoGap (s : State) : Act → Prop
  | .enter pid r =>
      match s.phases pid with
      | .idle => isMember r.groupId r.senderUserId s.db = true →
          ∀ m, findByKey r.senderDeviceId r.idempotencyKey s.db = some m → Added m.id s
      | _ => True
  | .txCheck pid =>
      match s.phases pid with
      | .entered r => ∀ m, findByKey r.senderDeviceId r.idempotencyKey s.db = some m →
          m.groupId = some r.groupId ∧ ¬ Added m.id s ∧ ¬ Adding m.id s
      | _ => True
  | _ => True

/-- The invariant of such runs: jobs are for stored messages of the right group, at most one
for a message, counting the one a call is about to add. -/
structure Inv (s : State) : Prop where
  ids : Rows.Unique (·.id) s.db.messages
  jobs : ∀ job ∈ s.jobs, ∃ m ∈ s.db.messages, m.id = job.messageId ∧ m.groupId = some job.groupId
  once : Rows.Unique (·.messageId) s.jobs
  adding : ∀ pid r m, s.phases pid = .enqueueing r m →
    m ∈ s.db.messages ∧ m.groupId = some r.groupId ∧ ¬ Added m.id s
  single : ∀ p q r r' m m', s.phases p = .enqueueing r m → s.phases q = .enqueueing r' m' →
    m.id = m'.id → p = q

theorem start_inv (db : Db) : Inv (start db) := by
  constructor
  · exact List.nodup_nil
  · intro job h
    cases h
  · exact List.nodup_nil
  · intro pid r m h
    cases h
  · intro p q r r' m m' h
    cases h

/-- A stored message with a job has exactly one. -/
theorem Inv.fannedOutOnce {s : State} (h : Inv s) {messageId : Id} (ha : Added messageId s) :
    FannedOutOnce messageId s := by
  obtain ⟨job, hjob, rfl⟩ := ha
  exact ⟨job, h.once.filter_eq hjob, h.jobs job hjob⟩

/-- A call that moves without touching the store or the queue keeps the invariant, if it
does not start to add a job. -/
theorem Inv.set {s : State} (h : Inv s) (pid : Nat) {p : Phase}
    (hp : ∀ r m, p ≠ .enqueueing r m) : Inv (s.set pid p) := by
  have hold : ∀ q r m, (s.set pid p).phases q = .enqueueing r m → s.phases q = .enqueueing r m := by
    intro q r m hq
    by_cases he : q = pid
    · subst he
      rw [State.set_self] at hq
      exact absurd hq (hp r m)
    · rw [State.set_of_ne s he] at hq
      exact hq
  refine ⟨h.ids, h.jobs, h.once, ?_, ?_⟩
  · intro q r m hq
    exact h.adding q r m (hold q r m hq)
  · intro q q' r r' m m' hq hq' he
    exact h.single q q' r r' m m' (hold q r m hq) (hold q' r' m' hq') he

/-- A call starts to add the job of a message nobody has added or is adding. -/
theorem Inv.startAdding {s : State} (h : Inv s) (pid : Nat) {r : GroupRequest} {m : Message}
    (hm : m ∈ s.db.messages) (hg : m.groupId = some r.groupId) (hno : ¬ Added m.id s)
    (hone : ∀ q r' m', q ≠ pid → s.phases q = .enqueueing r' m' → m'.id ≠ m.id) :
    Inv (s.set pid (.enqueueing r m)) := by
  have hold : ∀ q r₁ m₁, (s.set pid (.enqueueing r m)).phases q = .enqueueing r₁ m₁ →
      (q = pid ∧ r₁ = r ∧ m₁ = m) ∨ (q ≠ pid ∧ s.phases q = .enqueueing r₁ m₁) := by
    intro q r₁ m₁ hq
    by_cases he : q = pid
    · subst he
      rw [State.set_self] at hq
      cases hq
      exact Or.inl ⟨rfl, rfl, rfl⟩
    · rw [State.set_of_ne s he] at hq
      exact Or.inr ⟨he, hq⟩
  refine ⟨h.ids, h.jobs, h.once, ?_, ?_⟩
  · intro q r₁ m₁ hq
    rcases hold q r₁ m₁ hq with ⟨_, rfl, rfl⟩ | ⟨_, hq⟩
    · exact ⟨hm, hg, hno⟩
    · exact h.adding q r₁ m₁ hq
  · intro q q' r₁ r₂ m₁ m₂ hq hq' he
    rcases hold q r₁ m₁ hq with ⟨hqp, _, hm₁⟩ | ⟨hne, hold₁⟩ <;>
      rcases hold q' r₂ m₂ hq' with ⟨hqp', _, hm₂⟩ | ⟨hne', hold₂⟩
    · rw [hqp, hqp']
    · rw [hm₁] at he
      exact absurd he.symm (hone q' r₂ m₂ hne' hold₂)
    · rw [hm₂] at he
      exact absurd he (hone q r₁ m₁ hne hold₁)
    · exact h.single q q' r₁ r₂ m₁ m₂ hold₁ hold₂ he

/-- A fresh message was inserted and its sender goes on to add the job. -/
theorem Inv.commit {s : State} (h : Inv s) (pid : Nat) {now : Time} {mediaId : Nat → Id}
    {m : Message} {r : GroupRequest} {db' : Db} (hg : m.groupId = some r.groupId)
    (hc : commitGroupMessage now mediaId m r s.db = .ok db') :
    Inv { s.set pid (.enqueueing r m) with db := db' } := by
  obtain ⟨hclash, hmsgs, _, _⟩ := commitGroupMessage_ok hc
  have hfresh := messageClash_fresh hclash
  have hnew : Inv { s with db := db' } := by
    refine ⟨?_, ?_, h.once, ?_, h.single⟩
    · show Rows.Unique (·.id) db'.messages
      rw [hmsgs]
      exact Rows.unique_append h.ids hfresh
    · intro job hjob
      obtain ⟨x, hx, hrest⟩ := h.jobs job hjob
      refine ⟨x, ?_, hrest⟩
      show x ∈ db'.messages
      rw [hmsgs]
      exact List.mem_append_left _ hx
    · intro q r' m' hq
      obtain ⟨hm', hrest⟩ := h.adding q r' m' hq
      refine ⟨?_, hrest⟩
      show m' ∈ db'.messages
      rw [hmsgs]
      exact List.mem_append_left _ hm'
  refine hnew.startAdding pid ?_ hg ?_ ?_
  · show m ∈ db'.messages
    rw [hmsgs]
    exact List.mem_append_right _ (List.mem_singleton_self m)
  · rintro ⟨job, hjob, he⟩
    obtain ⟨x, hx, hid, _⟩ := h.jobs job hjob
    exact hfresh x hx (hid.trans he)
  · intro q r' m' _ hq
    exact hfresh m' (h.adding q r' m' hq).1

/-- Adding the job ends the call, and nobody else is left to add one. -/
theorem Inv.enqueue {s : State} (h : Inv s) {pid : Nat} {r : GroupRequest} {m : Message}
    (hp : s.phases pid = .enqueueing r m) :
    Inv { s.set pid .idle with jobs := s.jobs ++ [fanoutJob r m] } := by
  obtain ⟨hm, hg, hno⟩ := h.adding pid r m hp
  have hidle := h.set pid (p := .idle) (by intro r m he; cases he)
  refine ⟨h.ids, ?_, ?_, ?_, hidle.single⟩
  · intro job hjob
    rcases List.mem_append.mp hjob with hjob | hjob
    · exact h.jobs job hjob
    · rw [List.mem_singleton.mp hjob, fanoutJob_message, fanoutJob_group]
      exact ⟨m, hm, rfl, hg⟩
  · apply Rows.unique_append h.once
    intro job hjob he
    rw [fanoutJob_message] at he
    exact hno ⟨job, hjob, he⟩
  · intro q r' m' hq
    obtain ⟨hm', hg', hno'⟩ := hidle.adding q r' m' hq
    refine ⟨hm', hg', ?_⟩
    rintro ⟨job, hjob, he⟩
    rcases List.mem_append.mp hjob with hjob | hjob
    · exact hno' ⟨job, hjob, he⟩
    · rw [List.mem_singleton.mp hjob, fanoutJob_message] at he
      have hq' : s.phases q = .enqueueing r' m' := by
        by_cases hqp : q = pid
        · subst hqp
          change (s.set q .idle).phases q = _ at hq
          rw [State.set_self] at hq
          cases hq
        · change (s.set pid .idle).phases q = _ at hq
          rw [State.set_of_ne s hqp] at hq
          exact hq
      have hpq := h.single pid q r r' m m' hp hq' he
      subst hpq
      change (s.set pid .idle).phases pid = _ at hq
      rw [State.set_self] at hq
      cases hq

theorem step_inv (s : State) (a : Act) (h : Inv s) (hc : NoGap s a) : Inv (step s a) := by
  cases a with
  | enter pid r =>
      simp only [step]
      split
      · split
        · exact h
        · split
          · exact h
          · exact h.set pid (by intro r m he; cases he)
      · exact h
  | txCheck pid =>
      simp only [step]
      split
      · rename_i r hp
        simp only [NoGap, hp] at hc
        split
        · rename_i m hf
          obtain ⟨hg, hno, hnone⟩ := hc m hf
          refine h.startAdding pid (List.mem_of_find?_eq_some hf) hg hno ?_
          intro q r' m' _ hq he
          exact hnone ⟨q, r', m', hq, he⟩
        · exact h.set pid (by intro r m he; cases he)
      · exact h
  | readMax pid =>
      simp only [step]
      split
      · exact h.set pid (by intro r m he; cases he)
      · exact h
  | validate pid maxAttachments =>
      simp only [step]
      split
      · split
        · exact h.set pid (by intro r m he; cases he)
        · exact h.set pid (by intro r m he; cases he)
      · exact h
  | commit pid now messageId mediaId =>
      simp only [step]
      split
      · rename_i r sequence replyTo hp
        split
        · rename_i db' hok
          exact h.commit pid (groupMessage_group now messageId r sequence replyTo) hok
        · exact h.set pid (by intro r m he; cases he)
      · exact h
  | enqueue pid =>
      simp only [step]
      split
      · rename_i r m hp
        exact h.enqueue hp
      · exact h
  | fail pid => exact h.set pid (by intro r m he; cases he)

/-- Both ways of answering with success name a message with its one job. -/
theorem step_success (s : State) (a : Act) (h : Inv s) (hc : NoGap s a) :
    SuccessMeansFannedOut s a := by
  have hstep := step_inv s a h hc
  intro messageId ha
  cases a with
  | enter pid r =>
      simp only [answer] at ha
      split at ha
      · rename_i hp
        split at ha
        · cases ha
        · rename_i hmem
          obtain ⟨m, hf, rfl⟩ := Option.map_eq_some_iff.mp ha
          simp only [NoGap, hp] at hc
          have hstay : step s (.enter pid r) = s := by simp [step, hp, hmem, hf]
          rw [hstay]
          exact h.fannedOutOnce (hc (by simpa using hmem) m hf)
      · cases ha
  | enqueue pid =>
      simp only [answer] at ha
      split at ha
      · rename_i r m hp
        obtain rfl := Option.some.inj ha
        apply hstep.fannedOutOnce
        refine ⟨fanoutJob r m, ?_, fanoutJob_message r m⟩
        simp only [step, hp]
        exact List.mem_append_right _ (List.mem_singleton_self _)
      · cases ha
  | txCheck pid => cases ha
  | readMax pid => cases ha
  | validate pid maxAttachments => cases ha
  | commit pid now messageId mediaId => cases ha
  | fail pid => cases ha

/-- Along every run of group sends and forwards, with failures and duplicates anywhere, in
which no idempotency look-up falls into a gap, every success comes with exactly one job,
for the group of the stored message. -/
theorem accepted_fanned_out (db : Db) (acts : List Act) (h : Along step NoGap (start db) acts) :
    Along step SuccessMeansFannedOut (start db) acts :=
  along_of_along step_inv step_success acts (start db) (start_inv db) h

/-- A group with one member, who has one device. -/
def sampleDb : Db :=
  { devices :=
      [{ id := "d1", userId := "alice", platform := .ios, identityPublicKey := "k1", createdAt := 0 }]
    groupMembers := [{ groupId := "g1", userId := "alice" }] }

def sampleRequest : GroupRequest :=
  { senderUserId := "alice", groupId := "g1", senderDeviceId := "d1", idempotencyKey := "send-key-1"
    ciphertext := "c1", payload := .message none none [] }

/-- A call up to its commit. -/
def uptoCommit (pid : Nat) (messageId : Id) : List Act :=
  [.enter pid sampleRequest, .txCheck pid, .readMax pid, .validate pid 10,
   .commit pid 10 messageId fun _ => "x"]

/-- The queue refuses the job after the commit, and the client sends again. -/
def refusedThenRetried : List Act :=
  uptoCommit 0 "m1" ++ [.fail 0, .enter 1 sampleRequest]

/-- Two copies of a request pass the first look-up before one of them commits. -/
def concurrentDuplicates : List Act :=
  .enter 1 sampleRequest :: uptoCommit 0 "m1" ++ [.enqueue 0, .txCheck 1, .enqueue 1]

/-- The retry is answered with success and no job exists; the duplicate is answered with
success after a second job. -/
theorem accepted_lost_or_doubled :
    ¬ Along step SuccessMeansFannedOut (start sampleDb) refusedThenRetried ∧
    ¬ Along step SuccessMeansFannedOut (start sampleDb) concurrentDuplicates := by
  constructor
  · intro h
    have hlast := h (uptoCommit 0 "m1" ++ [.fail 0]) (.enter 1 sampleRequest)
      (List.prefix_refl _) "m1" (by decide)
    obtain ⟨job, hjobs, _⟩ := hlast
    have hnone : (step (run step (start sampleDb) (uptoCommit 0 "m1" ++ [.fail 0]))
        (.enter 1 sampleRequest)).jobs = [] := by decide
    rw [hnone] at hjobs
    cases hjobs
  · intro h
    have hlast := h (.enter 1 sampleRequest :: uptoCommit 0 "m1" ++ [.enqueue 0, .txCheck 1])
      (.enqueue 1) (List.prefix_refl _) "m1" (by decide)
    obtain ⟨job, hjobs, _⟩ := hlast
    have htwo : ((step (run step (start sampleDb)
        (.enter 1 sampleRequest :: uptoCommit 0 "m1" ++ [.enqueue 0, .txCheck 1]))
        (.enqueue 1)).jobs.filter (·.messageId == "m1")).length = 2 := by decide
    rw [hjobs] at htwo
    cases htwo

/-- A message whose job is added at once may be sent again. -/
def acceptedThenRetried : List Act :=
  uptoCommit 0 "m1" ++ [.enqueue 0, .enter 1 sampleRequest]

theorem retry_after_job_fanned_out :
    Along step SuccessMeansFannedOut (start sampleDb) acceptedThenRetried := by
  apply accepted_fanned_out
  simp only [acceptedThenRetried, uptoCommit, List.cons_append, List.nil_append, along_cons]
  refine ⟨?_, ?_, trivial, trivial, trivial, trivial, ?_, along_nil _ _ _⟩
  · intro _ m hm
    cases hm
  · intro m hm
    cases hm
  · intro _ m hm
    have hmem := List.mem_of_find?_eq_some hm
    clear hm
    revert m
    unfold Added
    decide

end Birgap.Groups.Queue
