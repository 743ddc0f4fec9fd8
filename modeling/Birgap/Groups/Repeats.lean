import Birgap.Messages.Statements

/-!
# Repeating a fan-out

One fan-out job is executed any number of times: a worker may stop anywhere, and the queue
hands the job out again. Between the statements of an execution come the statements of
acks, mark-all-read requests and edits, and changes of the members and devices. The bulk
insert skips what is stored, so an execution adds what is missing and leaves the rest.
-/
namespace Birgap.Groups.Repeats

set_option autoImplicit false

open Birgap.Lib Birgap.Lib.Run Birgap.Messages Birgap.Messages.Delivery

/-- How far an execution has come, with the devices its query returned. -/
inductive Execution where
  | idle
  | queried (devices : List Device)
  | inserted (devices : List Device)

/-- The store, the executions, and the devices of those that have completed. -/
structure State where
  db : Db
  executions : Nat → Execution
  completed : List (List Device)

/-- A statement of the execution with number `pid`, or its end anywhere; a statement of
another request; or a change of the tables the device query reads, whatever it is. -/
inductive Act where
  | query (pid : Nat)
  | insert (pid : Nat) (now : Time) (envelopeId : Nat → Id)
  | finish (pid : Nat)
  | interrupt (pid : Nat)
  | write (w : Statement)
  | changeMembers (members : List GroupMember)
  | changeDevices (devices : List Device)

def State.set (s : State) (pid : Nat) (x : Execution) : State :=
  { s with executions := Function.update s.executions pid x }

theorem State.set_self (s : State) (pid : Nat) (x : Execution) :
    (s.set pid x).executions pid = x := by
  show Function.update s.executions pid x pid = x
  rw [Function.update_self]

theorem State.set_of_ne (s : State) {pid q : Nat} (h : q ≠ pid) (x : Execution) :
    (s.set pid x).executions q = s.executions q := by
  show Function.update s.executions pid x q = s.executions q
  rw [Function.update_of_ne h]

def step (job : GroupFanoutJobData) (s : State) : Act → State
  | .query pid =>
      match s.executions pid with
      | .idle =>
          let devices := targetDevices job.groupId job.senderDeviceId s.db
          if devices.isEmpty then { s with completed := s.completed ++ [devices] }
          else s.set pid (.queried devices)
      | _ => s
  | .insert pid now envelopeId =>
      match s.executions pid with
      | .queried devices =>
          match insertEnvelopes now envelopeId job devices s.db with
          | .ok db => { s.set pid (.inserted devices) with db := db }
          | .error _ => s.set pid .idle
      | _ => s
  | .finish pid =>
      match s.executions pid with
      | .inserted devices => { s.set pid .idle with completed := s.completed ++ [devices] }
      | _ => s
  | .interrupt pid => s.set pid .idle
  | .write w => { s with db := w.exec s.db }
  | .changeMembers members => { s with db := { s.db with groupMembers := members } }
  | .changeDevices devices => { s with db := { s.db with devices := devices } }

def start (db : Db) : State := { db, executions := fun _ => .idle, completed := [] }

/-- An execution that nothing comes in between is the processor's. -/
theorem uninterrupted_fanout (job : GroupFanoutJobData) (now : Time) (envelopeId : Nat → Id)
    {s : State} {pid : Nat} (h : s.executions pid = .idle) :
    (run (step job) s [.query pid, .insert pid now envelopeId, .finish pid]).db =
      (fanout now envelopeId job s.db).2 := by
  rw [fanout_eq]
  simp only [run_cons, run_nil, step, h]
  by_cases hempty : (targetDevices job.groupId job.senderDeviceId s.db).isEmpty = true
  · simp only [hempty, ↓reduceIte, h]
  · simp only [hempty, State.set, Function.update_self, Bool.false_eq_true, ↓reduceIte]
    cases hi : insertEnvelopes now envelopeId job
        (targetDevices job.groupId job.senderDeviceId s.db) s.db with
    | ok db => simp only [Function.update_self, Except.toOption, Option.getD_some]
    | error e => simp only [Function.update_self, Except.toOption, Option.getD_none]

/-! ## What is asked of a run -/

/-- The device has an envelope for the message. -/
def Reached (messageId : Id) (devices : List Device) (db : Db) : Prop :=
  ∀ d ∈ devices, ∃ e ∈ db.messageEnvelopes, e.messageId = messageId ∧ e.recipientDeviceId = d.id

/-- The ids an insert draws are not in use: the stored rows have other ones. -/
def DrawsFresh (s : State) : Act → Prop
  | .insert pid _ envelopeId => ∀ devices, s.executions pid = .queried devices →
      FreshIds envelopeId devices.length s.db.messageEnvelopes
  | _ => True

def Act.ofExecution : Act → Bool
  | .query _ => true
  | .insert _ _ _ => true
  | .finish _ => true
  | .interrupt _ => true
  | _ => false

/-- A step of an execution keeps every stored envelope as it is. -/
def LeavesEnvelopes (job : GroupFanoutJobData) (s : State) (a : Act) : Prop :=
  a.ofExecution = true → ∀ e ∈ s.db.messageEnvelopes, e ∈ (step job s a).db.messageEnvelopes ∧
    ∀ e' ∈ (step job s a).db.messageEnvelopes, e'.id = e.id → e' = e

/-! ## One step -/

/-- What a step does to the envelopes: it rewrites rows in place, or appends some. -/
theorem step_envelopes (job : GroupFanoutJobData) (s : State) (a : Act) :
    (a.ofExecution = false ∧ ∃ g, KeepsKeys g ∧
      (step job s a).db.messageEnvelopes = s.db.messageEnvelopes.map g) ∨
    ∃ new, (step job s a).db.messageEnvelopes =
      Rows.createManySkip envelopeClash new s.db.messageEnvelopes := by
  have hsame : ∃ new, s.db.messageEnvelopes =
      Rows.createManySkip envelopeClash new s.db.messageEnvelopes := ⟨[], rfl⟩
  cases a with
  | query pid =>
      refine Or.inr ?_
      simp only [step]
      split
      · split <;> exact hsame
      · exact hsame
  | insert pid now envelopeId =>
      refine Or.inr ?_
      simp only [step]
      split
      · rename_i devices _
        cases hi : insertEnvelopes now envelopeId job devices s.db with
        | ok db => exact ⟨_, (insertEnvelopes_ok hi).2.1⟩
        | error e => exact hsame
      · exact hsame
  | finish pid =>
      refine Or.inr ?_
      simp only [step]
      split <;> exact hsame
  | interrupt pid => exact Or.inr hsame
  | write w => exact Or.inl ⟨rfl, w.exec_rewrites s.db⟩
  | changeMembers members => exact Or.inr hsame
  | changeDevices devices => exact Or.inr hsame

theorem step_keys (job : GroupFanoutJobData) (s : State) (a : Act)
    (h : EnvelopeKeys s.db.messageEnvelopes) :
    EnvelopeKeys (step job s a).db.messageEnvelopes := by
  rcases step_envelopes job s a with ⟨_, g, hg, he⟩ | ⟨new, he⟩
  · rw [he]
    exact h.map hg
  · rw [he]
    exact h.createManySkip

theorem step_leavesEnvelopes (job : GroupFanoutJobData) (s : State) (a : Act)
    (h : EnvelopeKeys s.db.messageEnvelopes) : LeavesEnvelopes job s a := by
  intro hex e he
  have hkeys := step_keys job s a h
  rcases step_envelopes job s a with ⟨hno, _⟩ | ⟨new, hrows⟩
  · rw [hno] at hex
    cases hex
  · have hkept : e ∈ (step job s a).db.messageEnvelopes := by
      rw [hrows]
      exact Rows.mem_createManySkip_of_mem he
    exact ⟨hkept, fun e' he' hid => hkeys.ids.eq he' hkept hid⟩

/-- A device that has its envelope keeps it. -/
theorem step_reached (job : GroupFanoutJobData) (s : State) (a : Act) {devices : List Device}
    (h : Reached job.messageId devices s.db) :
    Reached job.messageId devices (step job s a).db := by
  intro d hd
  obtain ⟨e, he, hm, hdev⟩ := h d hd
  rcases step_envelopes job s a with ⟨_, g, hg, hrows⟩ | ⟨new, hrows⟩
  · refine ⟨g e, ?_, (hg.messageId e).trans hm, (hg.device e).trans hdev⟩
    rw [hrows]
    exact List.mem_map_of_mem he
  · refine ⟨e, ?_, hm, hdev⟩
    rw [hrows]
    exact Rows.mem_createManySkip_of_mem he

/-- The devices of completed executions, and of those past their insert, are reached. -/
structure Inv (job : GroupFanoutJobData) (s : State) : Prop where
  completed : ∀ devices ∈ s.completed, Reached job.messageId devices s.db
  inserted : ∀ pid devices, s.executions pid = .inserted devices →
    Reached job.messageId devices s.db

theorem start_inv (job : GroupFanoutJobData) (db : Db) : Inv job (start db) := by
  constructor
  · intro devices h
    cases h
  · intro pid devices h
    cases h

/-- An execution that moves on keeps the invariant, if it has reached the devices it holds. -/
theorem Inv.set {job : GroupFanoutJobData} {s : State} (h : Inv job s) (pid : Nat) {x : Execution}
    (hx : ∀ devices, x = .inserted devices → Reached job.messageId devices s.db) :
    Inv job (s.set pid x) := by
  refine ⟨h.completed, ?_⟩
  intro p devices hp
  by_cases he : p = pid
  · subst he
    rw [State.set_self] at hp
    exact hx devices hp
  · rw [State.set_of_ne s he] at hp
    exact h.inserted p devices hp

theorem Inv.complete {job : GroupFanoutJobData} {s : State} (h : Inv job s) {devices : List Device}
    (hd : Reached job.messageId devices s.db) :
    Inv job { s with completed := s.completed ++ [devices] } := by
  refine ⟨?_, h.inserted⟩
  intro ds hds
  rcases List.mem_append.mp hds with hds | hds
  · exact h.completed ds hds
  · rw [List.mem_singleton.mp hds]
    exact hd

/-- Whatever a step does to the store, what was reached before it is reached after it. -/
theorem Inv.store {job : GroupFanoutJobData} {s : State} (h : Inv job s) (a : Act) :
    Inv job { s with db := (step job s a).db } :=
  ⟨fun devices hd => step_reached job s a (h.completed devices hd),
    fun pid devices hp => step_reached job s a (h.inserted pid devices hp)⟩

theorem step_inv (job : GroupFanoutJobData) (s : State) (a : Act) (h : Inv job s)
    (hfresh : DrawsFresh s a) : Inv job (step job s a) := by
  cases a with
  | query pid =>
      simp only [step]
      split
      · split
        · rename_i hempty
          apply h.complete
          intro d hd
          rw [List.isEmpty_iff.mp hempty] at hd
          cases hd
        · exact h.set pid fun devices he => by cases he
      · exact h
  | insert pid now envelopeId =>
      have hstore := h.store (.insert pid now envelopeId)
      simp only [step] at hstore ⊢
      split at hstore
      · rename_i devices hq
        cases hi : insertEnvelopes now envelopeId job devices s.db with
        | ok db =>
            simp only [hi] at hstore
            have hreach := (insertEnvelopes_ok hi).2.2 (hfresh devices hq)
            exact Inv.set hstore pid fun ds he => by cases he; exact hreach
        | error e => exact h.set pid fun ds he => by cases he
      · exact h
  | finish pid =>
      simp only [step]
      split
      · rename_i devices hi
        exact (h.set pid fun ds he => by cases he).complete (h.inserted pid devices hi)
      · exact h
  | interrupt pid => exact h.set pid fun devices he => by cases he
  | write w => exact h.store (.write w)
  | changeMembers members => exact h.store (.changeMembers members)
  | changeDevices devices => exact h.store (.changeDevices devices)

/-- In every interleaving of executions of one fan-out job with other requests and with
changes of members and devices: there is at most one envelope for a message and a device,
no execution changes a stored envelope, and, with fresh ids drawn, every device that the
query of a completed execution returned has an envelope from then on. -/
theorem fanout_repeatable (job : GroupFanoutJobData) (db : Db)
    (hk : EnvelopeKeys db.messageEnvelopes) (acts : List Act) :
    Always (step job) (fun s =>
      Rows.Unique (fun e => (e.messageId, e.recipientDeviceId)) s.db.messageEnvelopes)
      (start db) acts ∧
    Along (step job) (LeavesEnvelopes job) (start db) acts ∧
    (Along (step job) DrawsFresh (start db) acts →
      Always (step job) (fun s => ∀ devices ∈ s.completed, Reached job.messageId devices s.db)
        (start db) acts) := by
  have hkeys : ∀ pre, EnvelopeKeys (run (step job) (start db) pre).db.messageEnvelopes :=
    fun pre => run_invariant (I := fun s => EnvelopeKeys s.db.messageEnvelopes)
      (fun s a => step_keys job s a) pre _ hk
  refine ⟨?_, ?_, ?_⟩
  · intro pre _
    exact (hkeys pre).devices
  · intro pre a _
    exact step_leavesEnvelopes job _ a (hkeys pre)
  · intro hfresh
    exact (always_of_along (fun s a h hf => step_inv job s a h hf) acts _ (start_inv job db)
      hfresh).mono fun s h => h.completed

/-- Alice's message in a group with Bob, and a device of each. -/
def sampleDb : Db :=
  { devices := [{ id := "d1", userId := "alice", platform := .ios, identityPublicKey := "k1"
                  createdAt := 0 },
                { id := "d2", userId := "bob", platform := .ios, identityPublicKey := "k2"
                  createdAt := 0 }]
    groupMembers := [{ groupId := "g1", userId := "alice" }, { groupId := "g1", userId := "bob" }]
    messages := [{ id := "m1", groupId := some "g1", senderUserId := "alice"
                   senderDeviceId := "d1", idempotencyKey := "send-key-1", threadSequence := 1
                   createdAt := 0, lastEditIdempotencyKey := some "edit-key-0" }] }

def sampleJob : GroupFanoutJobData :=
  { messageId := "m1", groupId := "g1", senderUserId := "alice", senderDeviceId := "d1"
    ciphertext := "c0", threadSequence := 1, replyToMessageId := none, contentType := .text
    createdAt := 0, mediaIds := [] }

/-- An execution that stops after its insert, an ack, and a second execution. -/
def interruptedThenRepeated : List Act :=
  [.query 0, .insert 0 10 (fun _ => "e1"), .interrupt 0,
   .write (.ackOne 20 "m1" "d2" .delivered none),
   .query 0, .insert 0 30 (fun _ => "e2"), .finish 0]

theorem interrupted_then_repeated_reaches :
    ((run (step sampleJob) (start sampleDb) interruptedThenRepeated).completed.map
      (·.map (·.id))) = [["d2"]] ∧
    ∀ devices ∈ (run (step sampleJob) (start sampleDb) interruptedThenRepeated).completed,
      Reached "m1" devices (run (step sampleJob) (start sampleDb) interruptedThenRepeated).db := by
  obtain ⟨_, _, hreached⟩ := fanout_repeatable sampleJob sampleDb ⟨by decide, by decide⟩
    interruptedThenRepeated
  refine ⟨by decide, hreached ?_ interruptedThenRepeated (List.prefix_refl _)⟩
  simp only [interruptedThenRepeated, along_cons]
  refine ⟨trivial, ?_, trivial, trivial, trivial, ?_, trivial, along_nil _ _ _⟩
  · intro devices hq
    cases hq
    unfold FreshIds
    decide
  · intro devices hq
    cases hq
    unfold FreshIds
    decide

end Birgap.Groups.Repeats
