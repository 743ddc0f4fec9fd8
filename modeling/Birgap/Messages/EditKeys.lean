import Birgap.Messages.Edit
import Birgap.Lib.Run

/-!
# Edits and their keys

Requests to edit one message, one after the other. A message remembers the key of its last
edit and no other, so a retry is recognised only while nothing has been edited since.
-/
namespace Birgap.Messages.EditKeys

set_option autoImplicit false

open Birgap.Lib Birgap.Lib.Run Birgap.Lib.Tx Birgap.Messages

/-- A request to edit the message, by either service. -/
inductive Request where
  | edit (limit : EditLimit) (now : Time) (userId : Id) (dto : EditMessageDto)
  | editGroupMessage (limit : EditLimit) (now : Time) (addFails : Bool) (senderUserId groupId : Id)
      (dto : EditGroupMessageDto)

def Request.idempotencyKey : Request → String
  | .edit _ _ _ dto => dto.idempotencyKey
  | .editGroupMessage _ _ _ _ _ dto => dto.idempotencyKey

/-- The store, the edit-fanout queue, and the key of every request that has changed an
envelope or added a job. -/
structure State where
  db : Db
  jobs : List GroupEditFanoutJobData
  applied : List String

/-- What a request on the message leaves of the store and the queue. -/
def serve (messageId : Id) (s : State) : Request → Db × List GroupEditFanoutJobData
  | .edit limit now userId dto => ((edit limit now userId messageId dto s.db).2, s.jobs)
  | .editGroupMessage limit now addFails senderUserId groupId dto =>
      (editGroupMessage limit now addFails senderUserId groupId messageId dto s.db s.jobs).2

def step (messageId : Id) (s : State) (q : Request) : State :=
  let (db, jobs) := serve messageId s q
  { db, jobs
    applied :=
      if db.messageEnvelopes = s.db.messageEnvelopes ∧ jobs = s.jobs then s.applied
      else s.applied ++ [q.idempotencyKey] }

def start (db : Db) (jobs : List GroupEditFanoutJobData) : State := { db, jobs, applied := [] }

/-- No key has been applied twice. -/
def AtMostOnce (s : State) : Prop := ∀ key, s.applied.count key ≤ 1

/-- The request passes its checks and has something to write: an envelope of the message, or
a job that the queue accepts. -/
def Writes (messageId : Id) (s : State) : Request → Prop
  | .edit limit now userId dto =>
      editChecks limit now userId messageId dto s.db = .ok () ∧
        ∃ e ∈ s.db.messageEnvelopes, e.messageId = messageId ∧
          ∃ x ∈ dto.envelopes, x.recipientDeviceId = e.recipientDeviceId
  | .editGroupMessage limit now addFails senderUserId groupId _ =>
      editGroupChecks limit now senderUserId groupId messageId s.db = .ok () ∧ addFails = false

/-- The last edit of the message was made under another key. -/
def Overtaken (messageId : Id) (key : String) (db : Db) : Prop :=
  ∃ m ∈ db.messages, m.id = messageId ∧ ∃ old, m.lastEditIdempotencyKey = some old ∧ old ≠ key

/-- A retry of an applied request that has something to write finds its key as the last one. -/
def RetriesLast (messageId : Id) (s : State) (q : Request) : Prop :=
  q.idempotencyKey ∈ s.applied → Writes messageId s q →
    ¬ Overtaken messageId q.idempotencyKey s.db

def Keyed (s : State) : Prop := Rows.Unique (·.id) s.db.messages

/-! ## When a request is applied -/

theorem claimEdit_pos_iff (now : Time) (messageId : Id) (key : String) (db : Db) :
    (claimEdit now messageId key db).1 ≠ 0 ↔ Overtaken messageId key db := by
  have hsql : ∀ m : Message, sqlNe m.lastEditIdempotencyKey key = true ↔
      ∃ old, m.lastEditIdempotencyKey = some old ∧ old ≠ key := by
    intro m
    cases m.lastEditIdempotencyKey with
    | none => simp [sqlNe]
    | some old => simp [sqlNe]
  show db.messages.countP _ ≠ 0 ↔ _
  rw [Nat.ne_zero_iff_zero_lt, List.countP_pos_iff]
  constructor
  · rintro ⟨m, hm, hp⟩
    obtain ⟨hid, hne⟩ := Bool.and_eq_true_iff.mp hp
    exact ⟨m, hm, beq_iff_eq.mp hid, (hsql m).mp hne⟩
  · rintro ⟨m, hm, hid, hne⟩
    exact ⟨m, hm, Bool.and_eq_true_iff.mpr ⟨beq_iff_eq.mpr hid, (hsql m).mpr hne⟩⟩

/-- The loop raises the version of a row once for every envelope of the request that names
its device. -/
theorem refreshRow_version (now : Time) (messageId : Id) (envelopes : List EditMessageEnvelopeDto)
    (e : MessageEnvelope) :
    (refreshRow now messageId envelopes e).envelopeVersion = e.envelopeVersion +
      envelopes.countP fun x => e.messageId == messageId && e.recipientDeviceId == x.recipientDeviceId := by
  induction envelopes generalizing e with
  | nil => rfl
  | cons x envelopes ih =>
      rw [List.countP_cons]
      by_cases hx : (e.messageId == messageId && e.recipientDeviceId == x.recipientDeviceId) = true
      · rw [refreshRow, List.foldl_cons, if_pos hx, ← refreshRow, ih, if_pos hx]
        dsimp only
        omega
      · rw [refreshRow, List.foldl_cons, if_neg hx, ← refreshRow, ih, if_neg hx]
        omega

/-- A row of another message, or of a device no envelope of the request names, stays. -/
theorem refreshRow_same {now : Time} {messageId : Id} {envelopes : List EditMessageEnvelopeDto}
    {e : MessageEnvelope}
    (h : ∀ x ∈ envelopes, ¬ (e.messageId = messageId ∧ x.recipientDeviceId = e.recipientDeviceId)) :
    refreshRow now messageId envelopes e = e := by
  induction envelopes with
  | nil => rfl
  | cons x envelopes ih =>
      rw [refreshRow, List.foldl_cons, if_neg ?_, ← refreshRow]
      · exact ih fun y hy => h y (List.mem_cons_of_mem _ hy)
      · intro hc
        obtain ⟨hid, hdevice⟩ := Bool.and_eq_true_iff.mp hc
        exact h x List.mem_cons_self ⟨beq_iff_eq.mp hid, (beq_iff_eq.mp hdevice).symm⟩

/-- The loop changes the table exactly when it finds a row to rewrite. -/
theorem refreshEnvelopes_same_iff (now : Time) (messageId : Id)
    (envelopes : List EditMessageEnvelopeDto) (db : Db) :
    (refreshEnvelopes now messageId envelopes db).messageEnvelopes = db.messageEnvelopes ↔
      ¬ ∃ e ∈ db.messageEnvelopes, e.messageId = messageId ∧
        ∃ x ∈ envelopes, x.recipientDeviceId = e.recipientDeviceId := by
  rw [refreshEnvelopes_eq]
  constructor
  · rintro h ⟨e, he, hid, x, hx, hdevice⟩
    have hsame : refreshRow now messageId envelopes e = e := by
      rw [← List.map_id db.messageEnvelopes, List.map_map] at h
      exact (List.map_inj_left.mp h) e he
    have hversion := refreshRow_version now messageId envelopes e
    have hpos : 0 < envelopes.countP fun x =>
        e.messageId == messageId && e.recipientDeviceId == x.recipientDeviceId :=
      List.countP_pos_iff.mpr ⟨x, hx, by simp [hid, hdevice]⟩
    rw [hsame] at hversion
    omega
  · intro h
    conv_rhs => rw [← List.map_id db.messageEnvelopes]
    apply List.map_congr_left
    intro e he
    apply refreshRow_same
    rintro x hx ⟨hid, hdevice⟩
    exact h ⟨e, he, hid, x, hx, hdevice⟩

/-- What `edit` leaves of the envelopes. -/
theorem edit_envelopes (limit : EditLimit) (now : Time) (userId messageId : Id) (dto : EditMessageDto)
    (db : Db) :
    (edit limit now userId messageId dto db).2.messageEnvelopes = db.messageEnvelopes ↔
      ¬ ((editChecks limit now userId messageId dto db = .ok () ∧
          ∃ e ∈ db.messageEnvelopes, e.messageId = messageId ∧
            ∃ x ∈ dto.envelopes, x.recipientDeviceId = e.recipientDeviceId) ∧
        Overtaken messageId dto.idempotencyKey db) := by
  have hclaim := claimEdit_pos_iff now messageId dto.idempotencyKey db
  unfold edit
  cases hcheck : editChecks limit now userId messageId dto db with
  | error e =>
      simp only [true_iff]
      rintro ⟨⟨hok, _⟩, _⟩
      cases hok
  | ok _ =>
      dsimp only
      by_cases hcount : (claimEdit now messageId dto.idempotencyKey db).1 = 0
      · rw [if_pos hcount]
        have hno : ¬ Overtaken messageId dto.idempotencyKey db := fun ho => hclaim.mpr ho hcount
        constructor
        · rintro _ ⟨_, ho⟩
          exact hno ho
        · intro _
          split <;> rfl
      · rw [if_neg hcount]
        have hloop := refreshEnvelopes_same_iff now messageId dto.envelopes
          (claimEdit now messageId dto.idempotencyKey db).2
        have htable : (claimEdit now messageId dto.idempotencyKey db).2.messageEnvelopes =
            db.messageEnvelopes := rfl
        rw [htable] at hloop
        have hyes := hclaim.mp hcount
        constructor
        · intro hsame
          have hrows : (refreshEnvelopes now messageId dto.envelopes
              (claimEdit now messageId dto.idempotencyKey db).2).messageEnvelopes =
                db.messageEnvelopes := by
            split at hsame <;> exact hsame
          rintro ⟨⟨_, hrow⟩, _⟩
          exact hloop.mp hrows hrow
        · intro hno
          have hrows := hloop.mpr fun hrow => hno ⟨⟨rfl, hrow⟩, hyes⟩
          split <;> exact hrows

/-- What `editGroupMessage` leaves of the queue; the envelopes are left to the job. -/
theorem editGroupMessage_jobs (limit : EditLimit) (now : Time) (addFails : Bool)
    (senderUserId groupId messageId : Id) (dto : EditGroupMessageDto) {db : Db}
    (jobs : List GroupEditFanoutJobData) (hu : Rows.Unique (·.id) db.messages) :
    (editGroupMessage limit now addFails senderUserId groupId messageId dto db jobs).2.1.messageEnvelopes =
        db.messageEnvelopes ∧
      ((editGroupMessage limit now addFails senderUserId groupId messageId dto db jobs).2.2 = jobs ↔
        ¬ ((editGroupChecks limit now senderUserId groupId messageId db = .ok () ∧ addFails = false) ∧
          Overtaken messageId dto.idempotencyKey db)) := by
  have hclaim := claimEdit_pos_iff now messageId dto.idempotencyKey db
  unfold editGroupMessage
  cases hcheck : editGroupChecks limit now senderUserId groupId messageId db with
  | error e =>
      refine ⟨rfl, fun _ => ?_, fun _ => rfl⟩
      rintro ⟨⟨hok, _⟩, _⟩
      cases hok
  | ok _ =>
      dsimp only
      by_cases hcount : (claimEdit now messageId dto.idempotencyKey db).1 = 0
      · have hno : ¬ Overtaken messageId dto.idempotencyKey db := fun ho => hclaim.mpr ho hcount
        simp only [if_pos hcount]
        split
        · exact ⟨rfl, fun _ h => hno h.2, fun _ => rfl⟩
        · exact ⟨rfl, fun _ h => hno h.2, fun _ => rfl⟩
      · have hyes := hclaim.mp hcount
        obtain ⟨m, hm, rfl, old, hold, hne⟩ := hclaim.mp hcount
        -- the row found after the claim is the claimed one
        obtain ⟨_, hrow⟩ : (claimEdit now m.id dto.idempotencyKey db).1 ≠ 0 ∧
            edited now dto.idempotencyKey m ∈
              (claimEdit now m.id dto.idempotencyKey db).2.messages :=
          claimEdit_keyed hm hold hne
        have hfind : (claimEdit now m.id dto.idempotencyKey db).2.messages.find? (·.id == m.id) =
            some (edited now dto.idempotencyKey m) :=
          (claimEdit_unique hu).find?_eq hrow
        simp only [if_neg hcount, hfind, edited]
        cases addFails with
        | true =>
            refine ⟨rfl, fun _ => ?_, fun _ => rfl⟩
            rintro ⟨⟨_, hf⟩, _⟩
            cases hf
        | false =>
            refine ⟨rfl, fun hsame => ?_, fun h => absurd ⟨⟨trivial, rfl⟩, hyes⟩ h⟩
            have hlen := congrArg List.length hsame
            simp at hlen

/-- A request is applied exactly when it has something to write and the last edit of the
message was made under another key. -/
theorem step_applied (messageId : Id) {s : State} (hk : Keyed s) (q : Request) :
    (Writes messageId s q ∧ Overtaken messageId q.idempotencyKey s.db →
      (step messageId s q).applied = s.applied ++ [q.idempotencyKey]) ∧
    (¬ (Writes messageId s q ∧ Overtaken messageId q.idempotencyKey s.db) →
      (step messageId s q).applied = s.applied) := by
  have hiff : ((serve messageId s q).1.messageEnvelopes = s.db.messageEnvelopes ∧
      (serve messageId s q).2 = s.jobs) ↔
        ¬ (Writes messageId s q ∧ Overtaken messageId q.idempotencyKey s.db) := by
    cases q with
    | edit limit now userId dto =>
        exact (and_iff_left rfl).trans (edit_envelopes limit now userId messageId dto s.db)
    | editGroupMessage limit now addFails senderUserId groupId dto =>
        obtain ⟨hrows, hjobs⟩ :=
          editGroupMessage_jobs limit now addFails senderUserId groupId messageId dto s.jobs hk
        exact (and_iff_right hrows).trans hjobs
  constructor
  · intro h
    exact if_neg fun hsame => hiff.mp hsame h
  · intro h
    exact if_pos (hiff.mpr h)

theorem step_keyed (messageId : Id) (s : State) (q : Request) (hk : Keyed s) :
    Keyed (step messageId s q) := by
  cases q with
  | edit limit now userId dto =>
      show Rows.Unique (·.id) (edit limit now userId messageId dto s.db).2.messages
      unfold edit
      split
      · exact hk
      · dsimp only
        split
        · split <;> exact claimEdit_unique hk
        · split <;> exact claimEdit_unique hk
  | editGroupMessage limit now addFails senderUserId groupId dto =>
      show Rows.Unique (·.id) (editGroupMessage limit now addFails senderUserId groupId messageId dto
        s.db s.jobs).2.1.messages
      unfold editGroupMessage
      split
      · exact hk
      · dsimp only
        split
        · exact claimEdit_unique hk
        · split
          · exact claimEdit_unique hk
          · split
            · exact claimEdit_unique hk
            · split <;> exact claimEdit_unique hk

theorem step_atMostOnce_iff (messageId : Id) (s : State) (q : Request) (hk : Keyed s)
    (ho : AtMostOnce s) : AtMostOnce (step messageId s q) ↔ RetriesLast messageId s q := by
  obtain ⟨hyes, hno⟩ := step_applied messageId hk q
  by_cases h : Writes messageId s q ∧ Overtaken messageId q.idempotencyKey s.db
  · unfold AtMostOnce RetriesLast
    rw [hyes h]
    constructor
    · intro honce hmem
      have hcount := honce q.idempotencyKey
      have hpos := List.count_pos_iff.mpr hmem
      rw [List.count_append, List.count_singleton_self] at hcount
      omega
    · intro hlast key
      rw [List.count_append]
      by_cases hkey : q.idempotencyKey = key
      · have hfresh : q.idempotencyKey ∉ s.applied := fun hmem => hlast hmem h.1 h.2
        rw [← hkey, List.count_singleton_self, List.count_eq_zero.mpr hfresh]
      · rw [List.count_singleton, if_neg (by simpa using hkey)]
        exact ho key
  · constructor
    · intro _ _ hw hover
      exact h ⟨hw, hover⟩
    · intro _ key
      rw [hno h]
      exact ho key

/-- However the requests on a message follow each other, no key is applied twice exactly when
every retry of an applied request that has something to write comes before the next edit. -/
theorem edits_applied_once_iff (messageId : Id) (db : Db) (hkeys : Rows.Unique (·.id) db.messages)
    (jobs : List GroupEditFanoutJobData) (qs : List Request) :
    Always (step messageId) AtMostOnce (start db jobs) qs ↔
      Along (step messageId) (RetriesLast messageId) (start db jobs) qs := by
  have hstart : AtMostOnce (start db jobs) := fun key => Nat.zero_le 1
  exact always_iff_along (J := Keyed) (step_keyed messageId) (step_atMostOnce_iff messageId) qs
    (start db jobs) hkeys hstart

/-- Alice edits her message to Bob. -/
def editRequest (now : Time) (idempotencyKey : String) (ciphertext : Ciphertext) : Request :=
  .edit {} now "alice" { senderDeviceId := "d1", idempotencyKey, envelopes := [⟨"d2", ciphertext⟩] }

/-- A first edit, a second one, and the first one again. -/
def lateRetry : List Request :=
  [editRequest 1000 "edit-key-1" "one", editRequest 1001 "edit-key-2" "two",
   editRequest 1002 "edit-key-1" "one"]

/-- The late retry is applied a second time and takes the second edit back. -/
theorem late_retry_reverts_edit :
    ¬ ∀ (messageId : Id) (db : Db), Rows.Unique (·.id) db.messages →
      ∀ (jobs : List GroupEditFanoutJobData) (qs : List Request),
        Always (step messageId) AtMostOnce (start db jobs) qs := by
  intro h
  have hrun := h "m1" (editDb (edited 500 "edit-key-0" unedited)) (by decide) [] lateRetry
  have hend := hrun lateRetry (List.prefix_refl _) "edit-key-1"
  revert hend
  decide

/-- An immediate retry is recognised. -/
theorem prompt_retry_ignored :
    Always (step "m1") AtMostOnce (start (editDb (edited 500 "edit-key-0" unedited)) [])
      [editRequest 1000 "edit-key-1" "one", editRequest 1001 "edit-key-1" "one",
       editRequest 1002 "edit-key-2" "two"] := by
  refine (edits_applied_once_iff "m1" (editDb (edited 500 "edit-key-0" unedited)) (by decide) [] _).mpr ?_
  simp only [along_cons]
  refine ⟨?_, ?_, ?_, along_nil _ _ _⟩
  · intro hmem
    cases hmem
  · rintro _ _ ⟨m, hm, _, old, hold, hne⟩
    have hrows : (step "m1" (start (editDb (edited 500 "edit-key-0" unedited)) [])
        (editRequest 1000 "edit-key-1" "one")).db.messages =
          [edited 1000 "edit-key-1" (edited 500 "edit-key-0" unedited)] := by decide
    rw [hrows, List.mem_singleton] at hm
    rw [hm] at hold
    exact hne (Option.some.inj hold).symm
  · intro hmem
    exact absurd hmem (by decide)

end Birgap.Messages.EditKeys
