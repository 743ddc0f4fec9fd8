import Birgap.Groups.Repeats
import Birgap.Lib.JobQueue

/-!
# Group edits and the order of their jobs

A group message is fanned out by one job, and every accepted edit adds a job to a second
queue. Workers of the two queues take the jobs in any order and overlap; a failed attempt
is repeated from the start. The updates are unconditional increments, so the envelopes end
up with the last accepted edit when every update comes after the fan-out and after the
updates of the earlier edits, once.
-/
namespace Birgap.Groups.Convergence

set_option autoImplicit false

open Birgap.Lib Birgap.Lib.Run Birgap.Lib.JobQueue Birgap.Messages Birgap.Messages.Delivery

/-- What a running fan-out has done. -/
inductive FanoutWork where
  | queried (devices : List Device)
  | inserted

/-- An accepted edit and its job, which is gone once it has completed. A running job holds
the chunks it has not updated yet. -/
structure Edit where
  data : GroupEditFanoutJobData
  job : Option (Job (List (List Id)))

/-- The store, the fan-out job, and the accepted edits in the order of their acceptance. -/
structure State where
  db : Db
  fanout : Option (Job FanoutWork)
  edits : List Edit

inductive Act where
  | edit (limit : EditLimit) (now : Time) (addFails : Bool) (senderUserId : Id)
      (dto : EditGroupMessageDto)
  | takeFanout
  | queryFanout
  | insertFanout (now : Time) (envelopeId : Nat → Id)
  | finishFanout
  | failFanout
  | takeEdit (i : Nat)
  | queryEdit (i : Nat)
  | updateEdit (i : Nat) (now : Time)
  | finishEdit (i : Nat)
  | failEdit (i : Nat)

/-- `attempts` and `concurrency` of both queues. -/
def maxAttempts : Nat := 3

def concurrency : Nat := 5

/-- A worker takes a job that waits, or whose backoff is over. -/
def take {δ : Type} : Option (Job δ) → Option (Job δ)
  | some (.waiting failures) => some (.active failures none)
  | some (.delayed failures) => some (.active failures none)
  | job => job

/-- An attempt fails, wherever it is. -/
def fail {δ : Type} : Option (Job δ) → Option (Job δ)
  | some (.active failures _) =>
      some (if failures + 1 < maxAttempts then .delayed (failures + 1) else .failed)
  | job => job

def isActive {δ : Type} : Option (Job δ) → Bool
  | some (.active _ _) => true
  | _ => false

def step (job : GroupFanoutJobData) (s : State) : Act → State
  | .edit limit now addFails senderUserId dto =>
      let answer := editGroupMessage limit now addFails senderUserId job.groupId job.messageId dto
        s.db []
      { s with
        db := answer.2.1
        edits := s.edits ++ answer.2.2.map fun data => { data, job := some (.waiting 0) } }
  | .takeFanout => { s with fanout := take s.fanout }
  | .queryFanout =>
      match s.fanout with
      | some (.active failures none) =>
          { s with
            fanout := some (.active failures
              (some (.queried (targetDevices job.groupId job.senderDeviceId s.db)))) }
      | _ => s
  | .insertFanout now envelopeId =>
      match s.fanout with
      | some (.active failures (some (.queried devices))) =>
          match insertEnvelopes now envelopeId job devices s.db with
          | .ok db => { s with db := db, fanout := some (.active failures (some .inserted)) }
          | .error _ => { s with fanout := fail s.fanout }
      | _ => s
  | .finishFanout =>
      match s.fanout with
      | some (.active _ (some .inserted)) => { s with fanout := none }
      | some (.active _ (some (.queried []))) => { s with fanout := none }
      | _ => s
  | .failFanout => { s with fanout := fail s.fanout }
  | .takeEdit i =>
      if s.edits.countP (fun x => isActive x.job) < concurrency then
        { s with edits := s.edits.modify i fun x => { x with job := take x.job } }
      else s
  | .queryEdit i =>
      { s with
        edits := s.edits.modify i fun x =>
          match x.job with
          | some (.active failures none) =>
              { x with
                job := some (.active failures
                  (some (editChunks x.data.groupId x.data.senderDeviceId s.db))) }
          | _ => x }
  | .updateEdit i now =>
      match s.edits[i]? with
      | some ⟨data, some (.active failures (some (chunk :: rest)))⟩ =>
          { s with
            db := { s.db with
              messageEnvelopes :=
                updateChunk now data.messageId data.ciphertext chunk s.db.messageEnvelopes }
            edits := s.edits.modify i fun x =>
              { x with job := some (.active failures (some rest)) } }
      | _ => s
  | .finishEdit i =>
      { s with
        edits := s.edits.modify i fun x =>
          match x.job with
          | some (.active _ (some [])) => { x with job := none }
          | _ => x }
  | .failEdit i => { s with edits := s.edits.modify i fun x => { x with job := fail x.job } }

/-- The fan-out job has been added, and no edit was accepted yet. -/
def start (db : Db) : State := { db, fanout := some (.waiting 0), edits := [] }

/-! ## What is asked of a run -/

/-- The devices the message is for. -/
def targets (job : GroupFanoutJobData) (db : Db) : List Id :=
  (targetDevices job.groupId job.senderDeviceId db).map (·.id)

/-- The ciphertext of the last accepted edit, or of the message. -/
def lastCiphertext (job : GroupFanoutJobData) (s : State) : Ciphertext :=
  match s.edits.getLast? with
  | none => job.ciphertext
  | some x => x.data.ciphertext

/-- Once all jobs have completed, every target device has the last edit, and one version for
each edit. -/
def Converged (job : GroupFanoutJobData) (s : State) : Prop :=
  s.fanout = none → (∀ x ∈ s.edits, x.job = none) →
    ∀ d ∈ targets job s.db, ∃ e ∈ s.db.messageEnvelopes, e.messageId = job.messageId ∧
      e.recipientDeviceId = d ∧ e.ciphertext = lastCiphertext job s ∧
      e.envelopeVersion = 1 + s.edits.length

/-- An update finds the version that the fan-out and all the earlier edits leave, on every
target device of its chunk; and no accepted edit leaves a target device out as the one it
was sent from. -/
def InOrder (job : GroupFanoutJobData) (s : State) : Act → Prop
  | .edit limit now addFails senderUserId dto =>
      ∀ data ∈ (editGroupMessage limit now addFails senderUserId job.groupId job.messageId dto
        s.db []).2.2, data.senderDeviceId ∉ targets job s.db
  | .updateEdit i _ => ∀ data failures chunk rest,
      s.edits[i]? = some ⟨data, some (.active failures (some (chunk :: rest)))⟩ →
      ∀ d ∈ chunk, d ∈ targets job s.db → ∃ e ∈ s.db.messageEnvelopes,
        e.messageId = job.messageId ∧ e.recipientDeviceId = d ∧ e.envelopeVersion = 1 + i
  | _ => True

/-- The ids the fan-out draws are not in use. -/
def DrawsFresh (s : State) : Act → Prop
  | .insertFanout _ envelopeId => ∀ failures devices,
      s.fanout = some (.active failures (some (.queried devices))) →
      FreshIds envelopeId devices.length s.db.messageEnvelopes
  | _ => True

/-! ## The invariant -/

/-- The device has an envelope of at least this version. -/
def AppliedTo (messageId : Id) (rows : List MessageEnvelope) (version : Nat) (d : Id) : Prop :=
  ∃ e ∈ rows, e.messageId = messageId ∧ e.recipientDeviceId = d ∧ version ≤ e.envelopeVersion

/-- How far the job of edit `i` has come: the devices it is done with have its version. -/
def Progress (messageId : Id) (rows : List MessageEnvelope) (targets : List Id) (i : Nat) :
    Option (Job (List (List Id))) → Prop
  | none => ∀ d ∈ targets, AppliedTo messageId rows (i + 2) d
  | some (.active _ (some rest)) =>
      ∀ d ∈ targets, d ∈ rest.flatten ∨ AppliedTo messageId rows (i + 2) d
  | _ => True

/-- What the versions 1, 2, .. of an envelope are to hold. -/
def texts (job : GroupFanoutJobData) (edits : List Edit) : List Ciphertext :=
  job.ciphertext :: edits.map (·.data.ciphertext)

/-- The fan-out has inserted its envelopes. -/
def FannedOut : Option (Job FanoutWork) → Prop
  | none => True
  | some (.active _ (some .inserted)) => True
  | _ => False

structure Inv (job : GroupFanoutJobData) (s : State) : Prop where
  keys : EnvelopeKeys s.db.messageEnvelopes
  onTargets : ∀ e ∈ s.db.messageEnvelopes, e.messageId = job.messageId →
    e.recipientDeviceId ∈ targets job s.db
  text : ∀ e ∈ s.db.messageEnvelopes, e.messageId = job.messageId →
    ∃ v, e.envelopeVersion = v + 1 ∧ (texts job s.edits)[v]? = some e.ciphertext
  queried : ∀ failures devices, s.fanout = some (.active failures (some (.queried devices))) →
    devices = targetDevices job.groupId job.senderDeviceId s.db
  fannedOut : FannedOut s.fanout → ∀ d ∈ targets job s.db,
    AppliedTo job.messageId s.db.messageEnvelopes 1 d
  data : ∀ x ∈ s.edits, x.data.messageId = job.messageId ∧ x.data.groupId = job.groupId ∧
    x.data.senderDeviceId ∉ targets job s.db
  progress : ∀ i x, s.edits[i]? = some x →
    Progress job.messageId s.db.messageEnvelopes (targets job s.db) i x.job

/-- The invariant at rest is the claim: the last edit bounds the version from below, the
texts there are bound it from above. -/
theorem Inv.converged {job : GroupFanoutJobData} {s : State} (h : Inv job s) : Converged job s := by
  intro hfanout hedits d hd
  have hdone : AppliedTo job.messageId s.db.messageEnvelopes (1 + s.edits.length) d := by
    cases hlast : s.edits.getLast? with
    | none =>
        rw [List.getLast?_eq_none_iff.mp hlast]
        exact h.fannedOut (by rw [hfanout]; trivial) d hd
    | some x =>
        have hi : s.edits[s.edits.length - 1]? = some x := by
          rw [← List.getLast?_eq_getElem?]
          exact hlast
        have hx := List.mem_of_getLast? hlast
        have hpos := List.length_pos_of_mem hx
        have hp := h.progress _ x hi
        rw [hedits x hx] at hp
        have hd' := hp d hd
        rw [show s.edits.length - 1 + 2 = 1 + s.edits.length by omega] at hd'
        exact hd'
  obtain ⟨e, he, hm, hdev, hle⟩ := hdone
  obtain ⟨v, hv, htext⟩ := h.text e he hm
  have hbound := (List.getElem?_eq_some_iff.mp htext).1
  rw [texts, List.length_cons, List.length_map] at hbound
  have hvn : v = s.edits.length := by omega
  refine ⟨e, he, hm, hdev, ?_, by omega⟩
  rw [hvn, texts] at htext
  unfold lastCiphertext
  cases hlast : s.edits.getLast? with
  | none =>
      rw [List.getLast?_eq_none_iff.mp hlast] at htext
      exact (Option.some.inj htext).symm
  | some x =>
      obtain ⟨init, hinit⟩ := List.getLast?_eq_some_iff.mp hlast
      rw [hinit] at htext
      simp only [List.length_append, List.length_singleton, List.getElem?_cons_succ,
        List.map_append, List.map_cons, List.map_nil] at htext
      rw [List.getElem?_append_right (by rw [List.length_map]), List.length_map,
        Nat.sub_self] at htext
      exact (Option.some.inj htext).symm

/-! ## Steps that move a job -/

theorem progress_take {messageId : Id} {rows : List MessageEnvelope} {targets : List Id} {i : Nat}
    {j : Option (Job (List (List Id)))} (h : Progress messageId rows targets i j) :
    Progress messageId rows targets i (take j) := by
  cases j with
  | none => exact h
  | some j =>
      cases j with
      | delayed f => trivial
      | waiting f => trivial
      | active f w => exact h
      | failed => trivial

theorem progress_fail {messageId : Id} {rows : List MessageEnvelope} {targets : List Id} {i : Nat}
    {j : Option (Job (List (List Id)))} (h : Progress messageId rows targets i j) :
    Progress messageId rows targets i (fail j) := by
  cases j with
  | none => exact h
  | some j =>
      cases j with
      | delayed f => trivial
      | waiting f => trivial
      | active f w =>
          simp only [fail]
          split <;> trivial
      | failed => trivial

/-- The job of one edit moves. -/
theorem Inv.modify {job : GroupFanoutJobData} {s : State} (h : Inv job s) (i : Nat)
    {f : Edit → Edit} (hf : ∀ x, (f x).data = x.data)
    (hp : ∀ x, s.edits[i]? = some x →
      Progress job.messageId s.db.messageEnvelopes (targets job s.db) i (f x).job) :
    Inv job { s with edits := s.edits.modify i f } := by
  have htexts : texts job (s.edits.modify i f) = texts job s.edits := by
    unfold texts
    congr 1
    apply List.ext_getElem?
    intro k
    simp only [List.getElem?_map, List.getElem?_modify]
    cases s.edits[k]? with
    | none => rfl
    | some x =>
        simp only [Option.map_eq_map, Option.map_some]
        split
        · rw [hf]
        · rfl
  refine ⟨h.keys, h.onTargets, ?_, h.queried, h.fannedOut, ?_, ?_⟩
  · rw [htexts]
    exact h.text
  · intro y hy
    obtain ⟨k, hk⟩ := List.mem_iff_getElem?.mp hy
    rw [List.getElem?_modify] at hk
    obtain ⟨x, hx, rfl⟩ := Option.map_eq_some_iff.mp hk
    have hdata := h.data x (List.mem_iff_getElem?.mpr ⟨k, hx⟩)
    split
    · rw [hf]
      exact hdata
    · exact hdata
  · intro k y hk
    dsimp only at hk
    rw [List.getElem?_modify] at hk
    obtain ⟨x, hx, rfl⟩ := Option.map_eq_some_iff.mp hk
    by_cases hik : i = k
    · subst hik
      simp only [↓reduceIte]
      exact hp x hx
    · simp only [hik, ↓reduceIte]
      exact h.progress k x hx

/-- The fan-out job moves without a write. -/
theorem Inv.fanout {job : GroupFanoutJobData} {s : State} (h : Inv job s)
    {j : Option (Job FanoutWork)}
    (hq : ∀ failures devices, j = some (.active failures (some (.queried devices))) →
      devices = targetDevices job.groupId job.senderDeviceId s.db)
    (hi : FannedOut j → ∀ d ∈ targets job s.db,
      AppliedTo job.messageId s.db.messageEnvelopes 1 d) :
    Inv job { s with fanout := j } :=
  ⟨h.keys, h.onTargets, h.text, hq, hi, h.data, h.progress⟩

theorem Inv.take_fanout {job : GroupFanoutJobData} {s : State} (h : Inv job s) :
    Inv job { s with fanout := take s.fanout } := by
  cases hj : s.fanout with
  | none => exact h.fanout (fun f d he => by cases he) fun _ => h.fannedOut (by rw [hj]; trivial)
  | some j =>
      cases j with
      | delayed f => exact h.fanout (fun f d he => by cases he) fun hf => hf.elim
      | waiting f => exact h.fanout (fun f d he => by cases he) fun hf => hf.elim
      | active f w =>
          refine h.fanout (fun f d he => h.queried f d (hj.trans he)) fun hf => h.fannedOut ?_
          rw [hj]
          exact hf
      | failed => exact h.fanout (fun f d he => by cases he) fun hf => hf.elim

theorem Inv.fail_fanout {job : GroupFanoutJobData} {s : State} (h : Inv job s) :
    Inv job { s with fanout := fail s.fanout } := by
  cases hj : s.fanout with
  | none => exact h.fanout (fun f d he => by cases he) fun _ => h.fannedOut (by rw [hj]; trivial)
  | some j =>
      cases j with
      | delayed f => exact h.fanout (fun f d he => by cases he) fun hf => hf.elim
      | waiting f => exact h.fanout (fun f d he => by cases he) fun hf => hf.elim
      | active f w =>
          simp only [fail]
          split
          · exact h.fanout (fun f d he => by cases he) fun hf => hf.elim
          · exact h.fanout (fun f d he => by cases he) fun hf => hf.elim
      | failed => exact h.fanout (fun f d he => by cases he) fun hf => hf.elim

/-! ## Steps that write -/

/-- An accepted edit adds its job and touches the message alone. -/
theorem editGroupMessage_frame (limit : EditLimit) (now : Time) (addFails : Bool)
    (senderUserId groupId messageId : Id) (dto : EditGroupMessageDto) (db : Db) :
    (∃ messages, (editGroupMessage limit now addFails senderUserId groupId messageId dto db []).2.1 =
      { db with messages := messages }) ∧
    ∀ data ∈ (editGroupMessage limit now addFails senderUserId groupId messageId dto db []).2.2,
      data.messageId = messageId ∧ data.groupId = groupId := by
  unfold editGroupMessage
  split
  · exact ⟨⟨db.messages, rfl⟩, fun data hd => by cases hd⟩
  · dsimp only
    cases hrow : (claimEdit now messageId dto.idempotencyKey db).2.messages.find?
        (·.id == messageId) with
    | none => exact ⟨⟨_, rfl⟩, fun data hd => by cases hd⟩
    | some row =>
        have hid : row.id = messageId := by simpa using List.find?_some hrow
        dsimp only
        split
        · exact ⟨⟨_, rfl⟩, fun data hd => by cases hd⟩
        · split
          · exact ⟨⟨_, rfl⟩, fun data hd => by cases hd⟩
          · split
            · exact ⟨⟨_, rfl⟩, fun data hd => by cases hd⟩
            · refine ⟨⟨_, rfl⟩, ?_⟩
              intro data hd
              rw [List.nil_append, List.mem_singleton] at hd
              rw [hd]
              exact ⟨hid, rfl⟩

theorem Inv.accept {job : GroupFanoutJobData} {s : State} (h : Inv job s) (messages : List Message)
    {new : List GroupEditFanoutJobData}
    (hnew : ∀ data ∈ new, data.messageId = job.messageId ∧ data.groupId = job.groupId ∧
      data.senderDeviceId ∉ targets job s.db) :
    Inv job { s with
      db := { s.db with messages := messages }
      edits := s.edits ++ new.map fun data => { data, job := some (.waiting 0) } } := by
  refine ⟨h.keys, h.onTargets, ?_, h.queried, h.fannedOut, ?_, ?_⟩
  · intro e he hm
    obtain ⟨v, hv, htext⟩ := h.text e he hm
    refine ⟨v, hv, ?_⟩
    have hlt := (List.getElem?_eq_some_iff.mp htext).1
    unfold texts at htext hlt ⊢
    rw [List.map_append, ← List.cons_append, List.getElem?_append_left hlt]
    exact htext
  · intro x hx
    rcases List.mem_append.mp hx with hx | hx
    · exact h.data x hx
    · obtain ⟨data, hdata, rfl⟩ := List.mem_map.mp hx
      exact hnew data hdata
  · intro i x hi
    rcases List.getElem?_append.symm.trans hi with hi
    split at hi
    · exact h.progress i x hi
    · obtain ⟨data, _, rfl⟩ := List.mem_map.mp (List.mem_iff_getElem?.mpr ⟨_, hi⟩)
      trivial

theorem AppliedTo.insert {messageId : Id} {rows new : List MessageEnvelope} {version : Nat} {d : Id}
    (h : AppliedTo messageId rows version d) :
    AppliedTo messageId (Rows.createManySkip envelopeClash new rows) version d := by
  obtain ⟨e, he, hrest⟩ := h
  exact ⟨e, Rows.mem_createManySkip_of_mem he, hrest⟩

/-- An update raises versions. -/
theorem AppliedTo.update {messageId : Id} {rows : List MessageEnvelope} {version : Nat} {d : Id}
    (h : AppliedTo messageId rows version d) (now : Time) (id : Id) (ciphertext : Ciphertext)
    (chunk : List Id) :
    AppliedTo messageId (updateChunk now id ciphertext chunk rows) version d := by
  obtain ⟨e, he, hm, hd, hv⟩ := h
  refine ⟨_, Rows.mem_updateMany.mpr ⟨e, he, rfl⟩, ?_⟩
  split
  · exact ⟨hm, hd, Nat.le_succ_of_le hv⟩
  · exact ⟨hm, hd, hv⟩

theorem Progress.mono {messageId : Id} {rows rows' : List MessageEnvelope} {targets : List Id}
    {i : Nat} {j : Option (Job (List (List Id)))}
    (hrows : ∀ d, AppliedTo messageId rows (i + 2) d → AppliedTo messageId rows' (i + 2) d)
    (h : Progress messageId rows targets i j) : Progress messageId rows' targets i j := by
  cases j with
  | none => exact fun d hd => hrows d (h d hd)
  | some j =>
      cases j with
      | delayed f => trivial
      | waiting f => trivial
      | active f w =>
          cases w with
          | none => trivial
          | some rest => exact fun d hd => (h d hd).imp_right (hrows d)
      | failed => trivial

/-- The fan-out inserts what is missing, in the version every envelope starts with. -/
theorem Inv.insert {job : GroupFanoutJobData} {s : State} (h : Inv job s) {now : Time}
    {envelopeId : Nat → Id} {devices : List Device} {db : Db} {failures : Nat}
    (hq : s.fanout = some (.active failures (some (.queried devices))))
    (hi : insertEnvelopes now envelopeId job devices s.db = .ok db)
    (hfresh : FreshIds envelopeId devices.length s.db.messageEnvelopes) :
    Inv job { s with db := db, fanout := some (.active failures (some .inserted)) } := by
  obtain ⟨hdb, hrows, hcover⟩ := insertEnvelopes_ok hi
  have hdevices := h.queried failures devices hq
  have htargets : targets job db = targets job s.db := by rw [hdb]; rfl
  have hnew : ∀ e ∈ db.messageEnvelopes, e ∈ s.db.messageEnvelopes ∨
      (e.recipientDeviceId ∈ targets job s.db ∧ e.envelopeVersion = 1 ∧
        e.ciphertext = job.ciphertext) := by
    intro e he
    rw [hrows] at he
    rcases Rows.mem_createManySkip he with hold | hnew
    · exact Or.inl hold
    · obtain ⟨i, d, hd, rfl⟩ := mem_fanoutEnvelopes.mp hnew
      refine Or.inr ⟨?_, rfl, rfl⟩
      rw [targets, ← hdevices]
      exact List.mem_map_of_mem (List.mem_iff_getElem?.mpr ⟨i, hd⟩)
  refine ⟨?_, ?_, ?_, ?_, ?_, ?_, ?_⟩
  · dsimp only
    rw [hrows]
    exact h.keys.createManySkip
  · intro e he hm
    dsimp only
    rw [htargets]
    rcases hnew e he with hold | ⟨ht, _⟩
    · exact h.onTargets e hold hm
    · exact ht
  · intro e he hm
    rcases hnew e he with hold | ⟨_, hversion, hc⟩
    · exact h.text e hold hm
    · exact ⟨0, hversion, by rw [hc]; rfl⟩
  · intro f ds hf
    cases hf
  · intro _ d hd
    dsimp only at hd ⊢
    rw [htargets, targets, ← hdevices] at hd
    obtain ⟨x, hx, rfl⟩ := List.mem_map.mp hd
    obtain ⟨e, he, hm, hdev⟩ := hcover hfresh x hx
    refine ⟨e, he, hm, hdev, ?_⟩
    rcases hnew e he with hold | ⟨_, hversion, _⟩
    · obtain ⟨v, hv, _⟩ := h.text e hold hm
      omega
    · omega
  · intro x hx
    dsimp only
    rw [htargets]
    exact h.data x hx
  · intro i x hx
    dsimp only
    rw [htargets, hrows]
    exact (h.progress i x hx).mono fun d ha => ha.insert

/-- The envelopes after an update in its turn: those of its chunk have the next text. -/
theorem Inv.updateRows {job : GroupFanoutJobData} {s : State} (h : Inv job s) {i : Nat}
    {data : GroupEditFanoutJobData} {work : Option (Job (List (List Id)))}
    {chunk : List Id} (now : Time) (hi : s.edits[i]? = some ⟨data, work⟩)
    (hturn : ∀ d ∈ chunk, d ∈ targets job s.db → ∃ e ∈ s.db.messageEnvelopes,
      e.messageId = job.messageId ∧ e.recipientDeviceId = d ∧ e.envelopeVersion = 1 + i) :
    Inv job { s with
      db := { s.db with
        messageEnvelopes :=
          updateChunk now data.messageId data.ciphertext chunk s.db.messageEnvelopes } } := by
  have hkeeps : KeepsKeys fun e : MessageEnvelope =>
      if (e.messageId == data.messageId && chunk.contains e.recipientDeviceId) = true then
        { e with
          ciphertext := data.ciphertext, envelopeVersion := e.envelopeVersion + 1
          updatedAt := now }
      else e := keepsKeys_if ⟨fun _ => rfl, fun _ => rfl, fun _ => rfl, fun _ => rfl⟩
  refine ⟨h.keys.map hkeeps, ?_, ?_, h.queried, ?_, h.data, ?_⟩
  · intro e' he' hm
    obtain ⟨e, he, rfl⟩ := Rows.mem_updateMany.mp he'
    rw [hkeeps.messageId] at hm
    rw [hkeeps.device]
    exact h.onTargets e he hm
  · intro e' he' hm
    obtain ⟨e, he, rfl⟩ := Rows.mem_updateMany.mp he'
    rw [hkeeps.messageId] at hm
    by_cases hin : (e.messageId == data.messageId && chunk.contains e.recipientDeviceId) = true
    · rw [if_pos hin]
      have hchunk : e.recipientDeviceId ∈ chunk := by
        simpa using (Bool.and_eq_true_iff.mp hin).2
      obtain ⟨e₀, he₀, hm₀, hd₀, hv₀⟩ := hturn _ hchunk (h.onTargets e he hm)
      rw [h.keys.devices.eq he₀ he (Prod.ext (hm₀.trans hm.symm) hd₀)] at hv₀
      refine ⟨i + 1, by dsimp only; omega, ?_⟩
      dsimp only [texts]
      rw [List.getElem?_cons_succ, List.getElem?_map, hi]
      rfl
    · rw [if_neg hin]
      exact h.text e he hm
  · intro hf d hd
    exact (h.fannedOut hf d hd).update now data.messageId data.ciphertext chunk
  · intro k x hx
    exact (h.progress k x hx).mono fun d ha => ha.update now data.messageId data.ciphertext chunk

/-- An update in its turn writes the next text and the next version to the devices of its
chunk. -/
theorem Inv.update {job : GroupFanoutJobData} {s : State} (h : Inv job s) {i failures : Nat}
    {data : GroupEditFanoutJobData} {chunk : List Id} {rest : List (List Id)} (now : Time)
    (hi : s.edits[i]? = some ⟨data, some (.active failures (some (chunk :: rest)))⟩)
    (hturn : ∀ d ∈ chunk, d ∈ targets job s.db → ∃ e ∈ s.db.messageEnvelopes,
      e.messageId = job.messageId ∧ e.recipientDeviceId = d ∧ e.envelopeVersion = 1 + i) :
    Inv job { s with
      db := { s.db with
        messageEnvelopes :=
          updateChunk now data.messageId data.ciphertext chunk s.db.messageEnvelopes }
      edits := s.edits.modify i fun x =>
        { x with job := some (.active failures (some rest)) } } := by
  have hdata : data.messageId = job.messageId := (h.data _ (List.mem_iff_getElem?.mpr ⟨i, hi⟩)).1
  refine Inv.modify (h.updateRows now hi hturn) i (fun _ => rfl) ?_
  intro x hx
  dsimp only [Progress]
  intro d hd
  have hp := h.progress i _ hi d hd
  rw [List.flatten_cons, List.mem_append] at hp
  rcases hp with (hchunk | hlater) | happlied
  · obtain ⟨e, he, hm, hdev, hv⟩ := hturn d hchunk hd
    refine Or.inr ⟨_, Rows.mem_updateMany.mpr ⟨e, he, rfl⟩, ?_⟩
    rw [if_pos (by simp [hm, hdata, hdev, hchunk])]
    exact ⟨hm, hdev, by dsimp only; omega⟩
  · exact Or.inl hlater
  · exact Or.inr (happlied.update now data.messageId data.ciphertext chunk)

theorem step_inv (job : GroupFanoutJobData) (s : State) (a : Act) (h : Inv job s)
    (hc : DrawsFresh s a ∧ InOrder job s a) : Inv job (step job s a) := by
  obtain ⟨hfresh, horder⟩ := hc
  cases a with
  | edit limit now addFails senderUserId dto =>
      obtain ⟨⟨messages, hdb⟩, hdata⟩ := editGroupMessage_frame limit now addFails senderUserId
        job.groupId job.messageId dto s.db
      simp only [step, hdb]
      exact h.accept messages fun data hd =>
        ⟨(hdata data hd).1, (hdata data hd).2, horder data hd⟩
  | takeFanout => exact h.take_fanout
  | queryFanout =>
      simp only [step]
      split
      · refine h.fanout ?_ fun hf => hf.elim
        intro f ds he
        cases he
        rfl
      · exact h
  | insertFanout now envelopeId =>
      simp only [step]
      split
      · rename_i failures devices hq
        cases hi : insertEnvelopes now envelopeId job devices s.db with
        | ok db => exact h.insert hq hi (hfresh failures devices hq)
        | error e => exact h.fail_fanout
      · exact h
  | finishFanout =>
      simp only [step]
      split
      · rename_i hj
        exact h.fanout (fun f d he => by cases he) fun _ => h.fannedOut (by rw [hj]; trivial)
      · rename_i failures hj
        refine h.fanout (fun f d he => by cases he) ?_
        intro _ d hd
        rw [targets, ← h.queried failures [] hj] at hd
        cases hd
      · exact h
  | failFanout => exact h.fail_fanout
  | takeEdit i =>
      simp only [step]
      split
      · exact h.modify i (fun _ => rfl) fun x hx => progress_take (h.progress i x hx)
      · exact h
  | queryEdit i =>
      refine h.modify i ?_ ?_
      · intro x
        split <;> rfl
      · intro x hx
        split
        · -- the chunks are all the active devices of the group but the editing one
          obtain ⟨_, hgroup, hsender⟩ := h.data x (List.mem_iff_getElem?.mpr ⟨i, hx⟩)
          intro d hd
          refine Or.inl ?_
          rw [flatten_editChunks, hgroup]
          obtain ⟨v, hv, rfl⟩ := List.mem_map.mp hd
          obtain ⟨hstored, hp⟩ := List.mem_filter.mp hv
          have hne : v.id ≠ x.data.senderDeviceId := fun he => hsender (he ▸ hd)
          apply List.mem_map_of_mem
          apply List.mem_filter.mpr
          refine ⟨hstored, ?_⟩
          simp only [Bool.and_eq_true, bne_iff_ne] at hp ⊢
          exact ⟨hp.1, hne⟩
        · exact h.progress i x hx
  | updateEdit i now =>
      simp only [step]
      split
      · rename_i data failures chunk rest hi
        exact h.update now hi (horder data failures chunk rest hi)
      · exact h
  | finishEdit i =>
      refine h.modify i ?_ ?_
      · intro x
        split <;> rfl
      · intro x hx
        have hp := h.progress i x hx
        split
        · rename_i failures hj
          rw [hj] at hp
          intro d hd
          rcases hp d hd with hn | happlied
          · cases hn
          · exact happlied
        · exact hp
  | failEdit i => exact h.modify i (fun _ => rfl) fun x hx => progress_fail (h.progress i x hx)

theorem start_inv (job : GroupFanoutJobData) {db : Db} (hk : EnvelopeKeys db.messageEnvelopes)
    (hnone : ∀ e ∈ db.messageEnvelopes, e.messageId ≠ job.messageId) : Inv job (start db) where
  keys := hk
  onTargets e he hm := absurd hm (hnone e he)
  text e he hm := absurd hm (hnone e he)
  queried f d h := by cases h
  fannedOut h := h.elim
  data x hx := by cases hx
  progress i x hx := by cases hx

/-- In every run in which updates come in their turn, whatever else the order and overlap of
the jobs and their retries, whenever all jobs have completed every target device has the
ciphertext of the last accepted edit, and one version for each edit. -/
theorem edits_converge (job : GroupFanoutJobData) (db : Db)
    (hk : EnvelopeKeys db.messageEnvelopes)
    (hnone : ∀ e ∈ db.messageEnvelopes, e.messageId ≠ job.messageId) (acts : List Act)
    (hfresh : Along (step job) DrawsFresh (start db) acts)
    (horder : Along (step job) (InOrder job) (start db) acts) :
    Always (step job) (Converged job) (start db) acts := by
  have hboth : Along (step job) (fun s a => DrawsFresh s a ∧ InOrder job s a) (start db) acts :=
    fun pre a hp => ⟨hfresh pre a hp, horder pre a hp⟩
  exact (always_of_along (fun s a h hc => step_inv job s a h hc) acts _ (start_inv job hk hnone)
    hboth).mono fun s h => h.converged

/-- An edit of Alice's message, from the device it was sent from. -/
def sampleEdit : Act :=
  .edit {} 1000 false "alice"
    { senderDeviceId := "d1", idempotencyKey := "edit-key-1", ciphertext := "c1" }

/-- The job of the edit runs before the fan-out. -/
def editFirst : List Act :=
  [sampleEdit, .takeEdit 0, .queryEdit 0, .updateEdit 0 2000, .finishEdit 0,
   .takeFanout, .queryFanout, .insertFanout 3000 (fun _ => "e1"), .finishFanout]

/-- The fan-out runs before the job of the edit. -/
def fanoutFirst : List Act :=
  [.takeFanout, .queryFanout, .insertFanout 500 (fun _ => "e1"), .finishFanout,
   sampleEdit, .takeEdit 0, .queryEdit 0, .updateEdit 0 2000, .finishEdit 0]

/-- The early update finds no envelope, and the device is left with the text that was edited
away. -/
theorem edit_overtakes_fanout :
    ¬ ∀ (job : GroupFanoutJobData) (db : Db), EnvelopeKeys db.messageEnvelopes →
      (∀ e ∈ db.messageEnvelopes, e.messageId ≠ job.messageId) → ∀ acts : List Act,
      Along (step job) DrawsFresh (start db) acts →
      Always (step job) (Converged job) (start db) acts := by
  intro h
  have hfresh : Along (step Repeats.sampleJob) DrawsFresh (start Repeats.sampleDb) editFirst := by
    simp only [editFirst, sampleEdit, along_cons]
    refine ⟨trivial, trivial, trivial, trivial, trivial, trivial, trivial, ?_, trivial,
      along_nil _ _ _⟩
    intro failures devices hq
    cases hq
    unfold FreshIds
    decide
  have hend := h Repeats.sampleJob Repeats.sampleDb ⟨by decide, by decide⟩ (by decide) editFirst
    hfresh editFirst (List.prefix_refl _)
  obtain ⟨e, he, _, _, _, hv⟩ := hend rfl (by decide) "d2" (by decide)
  have hall : ∀ e ∈ (run (step Repeats.sampleJob) (start Repeats.sampleDb)
      editFirst).db.messageEnvelopes, e.envelopeVersion = 1 := by decide
  rw [hall e he] at hv
  revert hv
  decide

theorem edit_after_fanout_converges :
    (run (step Repeats.sampleJob) (start Repeats.sampleDb) fanoutFirst).edits.length = 1 ∧
    Always (step Repeats.sampleJob) (Converged Repeats.sampleJob) (start Repeats.sampleDb)
      fanoutFirst := by
  refine ⟨rfl, edits_converge Repeats.sampleJob Repeats.sampleDb ⟨by decide, by decide⟩
    (by decide) fanoutFirst ?_ ?_⟩
  · simp only [fanoutFirst, sampleEdit, along_cons]
    refine ⟨trivial, trivial, ?_, trivial, trivial, trivial, trivial, trivial, trivial,
      along_nil _ _ _⟩
    intro failures devices hq
    cases hq
    unfold FreshIds
    decide
  · simp only [fanoutFirst, sampleEdit, along_cons]
    refine ⟨trivial, trivial, trivial, trivial, ?_, trivial, trivial, ?_, trivial,
      along_nil _ _ _⟩
    · unfold InOrder
      decide
    · intro data failures chunk rest hi
      cases hi
      decide

end Birgap.Groups.Convergence
