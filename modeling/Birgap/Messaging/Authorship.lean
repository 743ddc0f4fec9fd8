import Birgap.Messaging.LateEdits
import Birgap.Messaging.Requests
import Birgap.Messaging.Routing

/-!
# Whose words an envelope holds

All the calls that create messages, the fan-outs, and all the calls that edit or delete them work
on one store, in any interleaving. Whatever ciphertext an envelope holds, the sender of its message
has submitted it: with the request the message is stored for, or with an edit of the message. The
one way around it is a group request that finds the message of another user under its key.
-/
namespace Birgap.Messaging.Authorship

set_option autoImplicit false

open Birgap.Lib Birgap.Lib.Run Birgap.Lib.Tx Birgap.Messages Birgap.Groups Birgap.Auth
open Birgap.Messaging.LateEdits (Flight editJob)

/-! ## The whole system -/

structure State where
  db : Db
  calls : Nat → Call
  jobs : List GroupFanoutJobData
  flights : Nat → Flight
  editJobs : List GroupEditFanoutJobData

/-- `rest` is any other write: `f` and `g` say what becomes of the messages and envelopes. -/
inductive Act where
  | post (a : Messaging.Act)
  | edit (a : LateEdits.Act)
  | rest (db : Db) (f : Message → Message) (g : MessageEnvelope → MessageEnvelope)

def State.posting (s : State) : Messaging.State := { db := s.db, calls := s.calls, jobs := s.jobs }

def State.editing (s : State) : LateEdits.State :=
  { db := s.db, flights := s.flights, jobs := s.editJobs }

/-- No other code writes the sender, the device or the key of a message. -/
def keepAuthor (f : Message → Message) (m : Message) : Message :=
  { f m with
    id := m.id, senderUserId := m.senderUserId, senderDeviceId := m.senderDeviceId
    idempotencyKey := m.idempotencyKey }

/-- No other code writes the ciphertext or the address of an envelope. -/
def keepText (g : MessageEnvelope → MessageEnvelope) (e : MessageEnvelope) : MessageEnvelope :=
  { g e with
    messageId := e.messageId, recipientDeviceId := e.recipientDeviceId, ciphertext := e.ciphertext }

section

variable (env : AuthEnv) (configuredMax : Option Int)

def step (s : State) : Act → State
  | .post a =>
      let t := Messaging.step env configuredMax s.posting a
      { s with db := t.db, calls := t.calls, jobs := t.jobs }
  | .edit a =>
      let t := LateEdits.step s.editing a
      { s with db := t.db, flights := t.flights, editJobs := t.jobs }
  | .rest db f g =>
      { s with db :=
          { db with
            messages := s.db.messages.map (keepAuthor f)
            messageEnvelopes := s.db.messageEnvelopes.map (keepText g) } }

end

/-- No messages and envelopes, no calls and no jobs. -/
def start (db : Db) : State :=
  { db := { db with directThreads := [], messages := [], messageEnvelopes := [] }
    calls := fun _ => .idle, jobs := [], flights := fun _ => .idle, editJobs := [] }

/-! ## Submitting a text -/

/-- What says who has written a message. -/
structure Author where
  messageId : Id
  senderUserId : Id
  senderDeviceId : Id
  idempotencyKey : String

def author (m : Message) : Author :=
  { messageId := m.id, senderUserId := m.senderUserId, senderDeviceId := m.senderDeviceId
    idempotencyKey := m.idempotencyKey }

def authors (db : Db) : List Author := db.messages.map author

def Act.request : Act → Option Request
  | .post a => a.request
  | _ => none

/-- The requests made in a run. -/
def requests (acts : List Act) : List Request := acts.filterMap Act.request

/-- The sender has given the text for the device, in a request under the device and the key of the
message. -/
def Gives (x : Author) (deviceId : Id) (ciphertext : Ciphertext) : Request → Prop
  | .send userId dto =>
      userId = x.senderUserId ∧ dto.senderDeviceId = x.senderDeviceId ∧
        dto.idempotencyKey = x.idempotencyKey ∧
        ∃ envelope ∈ dto.envelopes, envelope.recipientDeviceId = deviceId ∧
          envelope.ciphertext = ciphertext
  | .queueGroupMessage userId _ dto =>
      userId = x.senderUserId ∧ dto.senderDeviceId = x.senderDeviceId ∧
        dto.idempotencyKey = x.idempotencyKey ∧ dto.ciphertext = ciphertext
  | .forward userId dto =>
      userId = x.senderUserId ∧ dto.senderDeviceId = x.senderDeviceId ∧
        ∃ i target, dto.targets[i]? = some target ∧ dto.perTargetKey i = x.idempotencyKey ∧
          match target.type with
          | .direct => ∃ envelope ∈ target.envelopes.getD [], envelope.recipientDeviceId = deviceId ∧
              envelope.ciphertext = ciphertext
          | .group => target.ciphertext = some ciphertext

/-- The sender has given the text for the device, in an edit of the message. -/
def Rewrites (x : Author) (deviceId : Id) (ciphertext : Ciphertext) : Act → Prop
  | .edit (.editRead _ _ _ userId messageId dto) =>
      userId = x.senderUserId ∧ messageId = x.messageId ∧
        ∃ envelope ∈ dto.envelopes, envelope.recipientDeviceId = deviceId ∧
          envelope.ciphertext = ciphertext
  | .edit (.editGroupRead _ _ _ userId _ messageId dto) =>
      userId = x.senderUserId ∧ messageId = x.messageId ∧ dto.ciphertext = ciphertext
  | _ => False

/-- In the run, the sender of the stored message has given the text for the device. -/
def Authored (acts : List Act) (db : Db) (messageId deviceId : Id) (ciphertext : Ciphertext) : Prop :=
  ∃ x ∈ authors db, x.messageId = messageId ∧
    ((∃ r ∈ requests acts, Gives x deviceId ciphertext r) ∨
      ∃ a ∈ acts, Rewrites x deviceId ciphertext a)

/-- What the look-up inside a group transaction finds is a message of the same user. -/
def FindsOwn (s : State) : Act → Prop
  | .post (.txCheck pid) =>
      match s.calls pid with
      | .entered t =>
          ∀ m, findByKey t.request.senderDeviceId t.request.idempotencyKey s.db = some m →
            m.senderUserId = t.request.senderUserId
      | _ => True
  | _ => True

/-! ## What stays authored -/

theorem mem_requests_concat {acts : List Act} {a : Act} {r : Request} :
    r ∈ requests (acts ++ [a]) ↔ r ∈ requests acts ∨ a.request = some r := by
  unfold requests
  rw [List.filterMap_append, List.mem_append]
  simp

theorem Authored.later {acts : List Act} {db db' : Db} {messageId deviceId : Id}
    {ciphertext : Ciphertext} (h : Authored acts db messageId deviceId ciphertext)
    (hdb : ∀ x ∈ authors db, x ∈ authors db') (a : Act) :
    Authored (acts ++ [a]) db' messageId deviceId ciphertext := by
  obtain ⟨x, hx, hid, hsubmitted⟩ := h
  refine ⟨x, hdb x hx, hid, ?_⟩
  rcases hsubmitted with ⟨r, hr, hgives⟩ | ⟨b, hb, hrewrites⟩
  · exact Or.inl ⟨r, mem_requests_concat.mpr (Or.inl hr), hgives⟩
  · exact Or.inr ⟨b, List.mem_append_left _ hb, hrewrites⟩

/-- The text of a job that is about to be added. -/
def CallAuthored (acts : List Act) (db : Db) : Call → Prop
  | .enqueueing t m => ∀ deviceId, Authored acts db m.id deviceId t.request.ciphertext
  | _ => True

/-- The texts of an edit in flight. -/
def FlightAuthored (acts : List Act) (db : Db) : Flight → Prop
  | .editing messageId dto =>
      ∀ x ∈ dto.envelopes, Authored acts db messageId x.recipientDeviceId x.ciphertext
  | .refreshing messageId rest =>
      ∀ x ∈ rest, Authored acts db messageId x.recipientDeviceId x.ciphertext
  | .editingGroup _ _ messageId dto => ∀ deviceId, Authored acts db messageId deviceId dto.ciphertext
  | .enqueueing _ _ messageId dto => ∀ deviceId, Authored acts db messageId deviceId dto.ciphertext
  | .fanningOut job _ => ∀ deviceId, Authored acts db job.messageId deviceId job.ciphertext
  | _ => True

/-- Every text on its way into an envelope is authored, and every stored one. -/
structure AllAuthored (acts : List Act) (s : State) : Prop where
  requests : ∀ pid, (s.calls pid).From (· ∈ requests acts)
  calls : ∀ pid, CallAuthored acts s.db (s.calls pid)
  jobs : ∀ job ∈ s.jobs, ∀ deviceId, Authored acts s.db job.messageId deviceId job.ciphertext
  flights : ∀ pid, FlightAuthored acts s.db (s.flights pid)
  editJobs : ∀ job ∈ s.editJobs, ∀ deviceId,
    Authored acts s.db job.messageId deviceId job.ciphertext
  envelopes : ∀ e ∈ s.db.messageEnvelopes,
    Authored acts s.db e.messageId e.recipientDeviceId e.ciphertext

section Later

variable {acts : List Act} {db db' : Db}

theorem CallAuthored.later {c : Call} (h : CallAuthored acts db c)
    (hdb : ∀ x ∈ authors db, x ∈ authors db') (a : Act) : CallAuthored (acts ++ [a]) db' c := by
  cases c with
  | enqueueing t m => exact fun deviceId => (h deviceId).later hdb a
  | _ => trivial

theorem FlightAuthored.later {f : Flight} (h : FlightAuthored acts db f)
    (hdb : ∀ x ∈ authors db, x ∈ authors db') (a : Act) : FlightAuthored (acts ++ [a]) db' f := by
  cases f with
  | editing messageId dto => exact fun x hx => (h x hx).later hdb a
  | refreshing messageId rest => exact fun x hx => (h x hx).later hdb a
  | editingGroup _ _ messageId dto => exact fun deviceId => (h deviceId).later hdb a
  | enqueueing _ _ messageId dto => exact fun deviceId => (h deviceId).later hdb a
  | fanningOut job rest => exact fun deviceId => (h deviceId).later hdb a
  | _ => trivial

end Later

/-! ## Requests -/

theorem validateDirectTarget_envelopes {target : ForwardTargetDto} {recipientUserId : Id}
    {envelopes : List MessageEnvelopeDto}
    (h : validateDirectTarget target = .ok (recipientUserId, envelopes)) :
    target.envelopes.getD [] = envelopes := by
  unfold validateDirectTarget at h
  split at h
  · cases h
  · split at h
    · cases h
    · rename_i e es henvelopes
      obtain ⟨_, rfl⟩ := Prod.mk.inj (Except.ok.inj h)
      exact henvelopes

theorem validateGroupTarget_ciphertext {target : ForwardTargetDto} {groupId : Id}
    {ciphertext : Ciphertext} (h : validateGroupTarget target = .ok (groupId, ciphertext)) :
    target.ciphertext = some ciphertext := by
  unfold validateGroupTarget at h
  split at h
  · cases h
  · split at h
    · cases h
    · rename_i text htext
      obtain ⟨_, rfl⟩ := Prod.mk.inj (Except.ok.inj h)
      exact htext

section Given

variable {Q : Request → Prop}

/-- The text of a group request was given for every device. -/
theorem group_gives {t : GroupTask} (ht : t.From Q) {x : Author}
    (hsender : x.senderUserId = t.request.senderUserId)
    (hdevice : x.senderDeviceId = t.request.senderDeviceId)
    (hkey : x.idempotencyKey = t.request.idempotencyKey) (deviceId : Id) :
    ∃ r, Q r ∧ Gives x deviceId t.request.ciphertext r := by
  cases t with
  | message senderUserId groupId dto => exact ⟨_, ht, hsender.symm, hdevice.symm, hkey.symm, rfl⟩
  | forward f groupId ciphertext =>
      obtain ⟨hf, target, htarget, htype, hvalid⟩ := ht
      refine ⟨_, hf.request, hsender.symm, hdevice.symm, f.results.length, target, htarget,
        hkey.symm, ?_⟩
      rw [htype]
      exact validateGroupTarget_ciphertext hvalid

theorem mem_directEnvelopes {ctx : Ctx} {senderUserId recipientUserId : Id} {ids : List Id}
    {envelopes : List MessageEnvelopeDto} {e : MessageEnvelope}
    (he : e ∈ directEnvelopes ctx senderUserId recipientUserId ids envelopes) :
    e.messageId = ctx.messageId ∧ ∃ x ∈ envelopes, x.recipientDeviceId = e.recipientDeviceId ∧
      x.ciphertext = e.ciphertext := by
  obtain ⟨⟨x, i⟩, hx, rfl⟩ := List.mem_map.mp he
  exact ⟨rfl, x, List.fst_mem_of_mem_zipIdx hx, rfl, rfl⟩

/-- The texts of a direct request were given for the devices of their envelopes. -/
theorem posted_gives {t : DirectTask} (ht : t.From Q) {ctx : Ctx} {answer : Serialized} {db db' : Db}
    (htx : t.tx ctx db = .ok (answer, db')) :
    ∃ new, db'.messageEnvelopes = db.messageEnvelopes ++ new ∧ ∀ e ∈ new,
      e.messageId = answer.message.id ∧
        ∃ r, Q r ∧ Gives (author answer.message) e.recipientDeviceId e.ciphertext r := by
  cases t with
  | send senderUserId dto =>
      obtain ⟨ids, _, hw, hp⟩ := sendTx_ok htx
      refine ⟨_, hp.envelopes.1, ?_⟩
      intro e he
      obtain ⟨hid, htext⟩ := mem_directEnvelopes he
      exact ⟨hid.trans hw.id.symm, _, ht, hw.sender.symm, hw.device.symm, hw.key.symm, htext⟩
  | forward f recipientUserId envelopes =>
      obtain ⟨hf, target, htarget, htype, hvalid⟩ := ht
      obtain ⟨ids, _, hw, hp⟩ := forwardTx_ok htx
      refine ⟨_, hp.envelopes.1, ?_⟩
      intro e he
      obtain ⟨hid, htext⟩ := mem_directEnvelopes he
      refine ⟨hid.trans hw.id.symm, _, hf.request, hw.sender.symm, hw.device.symm, f.results.length,
        target, htarget, hw.key.symm, ?_⟩
      rw [htype]
      dsimp only
      rw [validateDirectTarget_envelopes hvalid]
      exact htext

end Given

theorem mem_fanout_text {now : Time} {envelopeId : Nat → Id} {job : GroupFanoutJobData} {db : Db}
    {e : MessageEnvelope} (he : e ∈ (Groups.fanout now envelopeId job db).2.messageEnvelopes) :
    e ∈ db.messageEnvelopes ∨ (e.messageId = job.messageId ∧ e.ciphertext = job.ciphertext) := by
  unfold Groups.fanout at he
  dsimp only at he
  split at he
  · exact Or.inl he
  · split at he
    · exact Or.inl he
    · refine (Rows.mem_createManySkip he).imp_right ?_
      intro hnew
      obtain ⟨⟨d, i⟩, _, rfl⟩ := List.mem_map.mp hnew
      exact ⟨rfl, rfl⟩

theorem fanoutJob_text (r : GroupRequest) (m : Message) :
    (fanoutJob r m).messageId = m.id ∧ (fanoutJob r m).ciphertext = r.ciphertext := by
  unfold fanoutJob
  cases r.payload <;> exact ⟨rfl, rfl⟩

section Posts

variable {env : AuthEnv} {configuredMax : Option Int} {acts : List Act} {s : State}
  {a : Messaging.Act} {o : Messaging.State × Option Returned}

theorem post_authors (he : Effect env configuredMax s.posting a o) :
    ∀ x ∈ authors s.db, x ∈ authors o.1.db := by
  intro x hx
  obtain ⟨m, hm, rfl⟩ := List.mem_map.mp hx
  exact List.mem_map_of_mem (he.messages_kept m hm)

/-- The message of a group request that looks its key up is one of its user. -/
theorem moved_authored {pid : Nat} {c : Call} {r : Option Returned} (h : AllAuthored acts s)
    (hown : FindsOwn s (.post a)) (hmove : Moves s.posting a (s.calls pid) c r) :
    CallAuthored (acts ++ [.post a]) s.db c := by
  cases hmove with
  | @enqueueing t m hc ha hm =>
      obtain ⟨pid', rfl, hentered⟩ := ha
      have hsender : m.senderUserId = t.request.senderUserId := by
        have hentered : s.calls pid' = .entered t := hentered
        simp only [FindsOwn, hentered] at hown
        exact hown m hm
      have hkey := List.find?_some hm
      simp only [Bool.and_eq_true, beq_iff_eq] at hkey
      have hfrom : t.From (· ∈ requests acts) := by
        have hcall := h.requests pid
        rw [hc] at hcall
        exact hcall
      intro deviceId
      obtain ⟨request, hrequest, hgives⟩ :=
        group_gives hfrom (x := author m) hsender hkey.1 hkey.2 deviceId
      exact ⟨author m, List.mem_map_of_mem (List.mem_of_find?_eq_some hm), rfl,
        Or.inl ⟨request, mem_requests_concat.mpr (Or.inl hrequest), hgives⟩⟩
  | _ => trivial

/-- A request that ends adds no job any more. -/
theorem settled_authored {db : Db} (t : DirectTask) (outcome : Except Err Serialized) :
    CallAuthored acts db (t.settle outcome).1 :=
  DirectTask.settle_call trivial (fun _ => trivial) t outcome

theorem settled_group_authored {db : Db} (t : GroupTask) (outcome : Except Err (Id × Bool)) :
    CallAuthored acts db (t.settle outcome).1 :=
  GroupTask.settle_call trivial (fun _ => trivial) t outcome

theorem post_calls (he : Effect env configuredMax s.posting a o) (h : AllAuthored acts s)
    (hown : FindsOwn s (.post a)) :
    ∀ pid, CallAuthored (acts ++ [.post a]) o.1.db (o.1.calls pid) := by
  have hauthors := post_authors he
  have hold : ∀ pid, CallAuthored (acts ++ [.post a]) o.1.db (s.posting.calls pid) :=
    fun pid => (h.calls pid).later hauthors _
  cases he with
  | stay => exact hold
  | moved hmove => exact Messaging.State.set_calls hold (moved_authored h hown hmove)
  | posted hc htx =>
      exact Messaging.State.set_calls (s := { s.posting with db := _ }) hold (settled_authored _ _)
  | @committed pid t sequence replyTo now messageId mediaId db hc hdb =>
      refine Messaging.State.set_calls (s := { s.posting with db := db }) hold ?_
      obtain ⟨_, hmessages, _⟩ := commitGroupMessage_ok hdb
      have hfrom : t.From (· ∈ requests acts) := by
        have hcall := h.requests pid
        rw [show s.calls pid = .validated t sequence replyTo from hc] at hcall
        exact hcall
      obtain ⟨hsender, hdevice, hkey⟩ := groupMessage_sender now messageId t.request sequence replyTo
      intro deviceId
      obtain ⟨request, hrequest, hgives⟩ := group_gives hfrom
        (x := author (groupMessage now messageId t.request sequence replyTo)) hsender hdevice hkey deviceId
      refine ⟨_, ?_, rfl, Or.inl ⟨request, mem_requests_concat.mpr (Or.inl hrequest), hgives⟩⟩
      apply List.mem_map_of_mem
      show _ ∈ db.messages
      rw [hmessages]
      exact List.mem_append_right _ (List.mem_singleton_self _)
  | enqueued hc =>
      exact Messaging.State.set_calls (s := { s.posting with jobs := _ }) hold
        (settled_group_authored _ _)
  | fannedOut hjob => exact hold
  | device => exact hold

theorem post_jobs (he : Effect env configuredMax s.posting a o) (h : AllAuthored acts s) :
    ∀ job ∈ o.1.jobs, ∀ deviceId,
      Authored (acts ++ [.post a]) o.1.db job.messageId deviceId job.ciphertext := by
  have hauthors := post_authors he
  have hold : ∀ job ∈ s.posting.jobs, ∀ deviceId,
      Authored (acts ++ [.post a]) o.1.db job.messageId deviceId job.ciphertext :=
    fun job hjob deviceId => (h.jobs job hjob deviceId).later hauthors _
  cases he with
  | @enqueued pid t m hc =>
      intro job hjob deviceId
      rcases List.mem_append.mp hjob with hjob | hjob
      · exact hold job hjob deviceId
      · obtain rfl := List.mem_singleton.mp hjob
        have hcall := h.calls pid
        rw [show s.calls pid = .enqueueing t m from hc] at hcall
        obtain ⟨hid, htext⟩ := fanoutJob_text t.request m
        rw [hid, htext]
        exact (hcall deviceId).later hauthors _
  | stay => exact hold
  | moved hmove => exact hold
  | posted hc htx => exact hold
  | committed hc hdb => exact hold
  | fannedOut hjob => exact hold
  | device => exact hold

theorem post_envelopes (he : Effect env configuredMax s.posting a o) (h : AllAuthored acts s) :
    ∀ e ∈ o.1.db.messageEnvelopes,
      Authored (acts ++ [.post a]) o.1.db e.messageId e.recipientDeviceId e.ciphertext := by
  have hauthors := post_authors he
  have hold : ∀ e ∈ s.posting.db.messageEnvelopes,
      Authored (acts ++ [.post a]) o.1.db e.messageId e.recipientDeviceId e.ciphertext :=
    fun e hmem => (h.envelopes e hmem).later hauthors _
  cases he with
  | @posted pid t ctx created db hc htx =>
      intro e hmem
      have hfrom : t.From (· ∈ requests acts) := by
        have hcall := h.requests pid
        rw [show s.calls pid = .sending t from hc] at hcall
        exact hcall
      obtain ⟨new, hrows, hnew⟩ := posted_gives hfrom htx
      rcases List.mem_append.mp (show e ∈ s.posting.db.messageEnvelopes ++ new from hrows ▸ hmem)
        with hmem | hmem
      · exact hold e hmem
      · obtain ⟨hid, request, hrequest, hgives⟩ := hnew e hmem
        refine ⟨author created.message, ?_, hid.symm,
          Or.inl ⟨request, mem_requests_concat.mpr (Or.inl hrequest), hgives⟩⟩
        obtain ⟨_, _, _, _, _, hp⟩ := DirectTask.tx_ok htx
        apply List.mem_map_of_mem
        show _ ∈ db.messages
        rw [hp.messages.2.1]
        exact List.mem_append_right _ (List.mem_singleton_self _)
  | @committed pid t sequence replyTo now messageId mediaId db hc hdb =>
      obtain ⟨_, _, hsame, _⟩ := commitGroupMessage_ok hdb
      intro e hmem
      exact hold e (show e ∈ s.posting.db.messageEnvelopes from hsame ▸ hmem)
  | @fannedOut index now envelopeId job hjob =>
      intro e hmem
      rcases mem_fanout_text hmem with hmem | ⟨hid, htext⟩
      · exact hold e hmem
      · rw [hid, htext]
        exact (h.jobs job hjob e.recipientDeviceId).later hauthors _
  | @device op =>
      obtain ⟨devices, tokens, hf⟩ := Devices.step_frame env configuredMax s.posting.db op
      intro e hmem
      dsimp only at hmem
      rw [hf] at hmem
      exact hold e hmem
  | stay => exact hold
  | moved hmove => exact hold
  | enqueued hc => exact hold

end Posts

/-- A step of the calls that create messages. -/
theorem post_allAuthored (env : AuthEnv) (configuredMax : Option Int) {acts : List Act} {s : State}
    (h : AllAuthored acts s) (a : Messaging.Act) (hown : FindsOwn s (.post a)) :
    AllAuthored (acts ++ [.post a]) (step env configuredMax s (.post a)) := by
  have he := exec_effect env configuredMax s.posting a
  have hauthors := post_authors he
  constructor
  · refine (exec_from env configuredMax ?_ ?_).calls
    · intro r hr
      exact mem_requests_concat.mpr (Or.inr hr)
    · intro pid
      exact (h.requests pid).mono fun r hr => mem_requests_concat.mpr (Or.inl hr)
  · exact post_calls he h hown
  · exact post_jobs he h
  · exact fun pid => (h.flights pid).later hauthors _
  · exact fun job hjob deviceId => (h.editJobs job hjob deviceId).later hauthors _
  · exact post_envelopes he h

/-! ## Edits -/

/-- An update of messages that leaves their authors alone. -/
theorem authors_updateMany {p : Message → Bool} {f : Message → Message}
    (hf : ∀ m, author (f m) = author m) {db db' : Db}
    (h : db'.messages = Rows.updateMany p f db.messages) : authors db' = authors db := by
  unfold authors
  rw [h, Rows.map_updateMany hf]

theorem edit_authors (s : LateEdits.State) (a : LateEdits.Act) :
    authors (LateEdits.step s a).db = authors s.db := by
  cases a with
  | editClaim pid now =>
      simp only [LateEdits.step]
      split
      · rename_i messageId dto hflight
        exact authors_updateMany (f := edited now dto.idempotencyKey) (fun _ => rfl) rfl
      · rfl
  | editGroupClaim pid now =>
      simp only [LateEdits.step]
      split
      · rename_i senderUserId groupId messageId dto hflight
        exact authors_updateMany (f := edited now dto.idempotencyKey) (fun _ => rfl) rfl
      · rfl
  | deleteCommit pid now =>
      simp only [LateEdits.step]
      split
      · split
        · rename_i htx
          have hmessages := congrArg Db.messages (deleteTx_ok htx)
          exact authors_updateMany (f := tombstoned now) (fun _ => rfl) hmessages
        · rfl
      · rfl
  | tombstoneCommit pid now =>
      simp only [LateEdits.step]
      split
      · split
        · rename_i htx
          exact authors_updateMany (f := tombstoned now) (fun _ => rfl)
            (Tombstones.tombstoneTx_messages htx).1
        · rfl
      · rfl
  | suspendCommit pid now sid =>
      simp only [LateEdits.step]
      split
      · split
        · rename_i htx
          exact authors_updateMany (f := tombstoned now) (fun _ => rfl)
            (Tombstones.suspendTx_messages htx).1
        · rfl
      · rfl
  | fail pid => rfl
  | _ =>
      simp only [LateEdits.step]
      split <;> rfl

/-- The job of an edit carries the message and the text of the edit. -/
theorem editJob_text {senderUserId groupId messageId : Id} {dto : EditGroupMessageDto} {db : Db}
    {job : GroupEditFanoutJobData} (h : editJob senderUserId groupId messageId dto db = some job) :
    job.messageId = messageId ∧ job.ciphertext = dto.ciphertext := by
  unfold editJob at h
  obtain ⟨row, hrow, h⟩ := Option.bind_eq_some_iff.mp h
  obtain ⟨editedAt, _, h⟩ := Option.bind_eq_some_iff.mp h
  obtain rfl := Option.some.inj h
  exact ⟨by simpa using List.find?_some hrow, rfl⟩

section Edits

variable {acts : List Act} {s : State}

theorem set_flights {t : LateEdits.State} {P : Flight → Prop} (h : ∀ pid, P (t.flights pid))
    {pid : Nat} {f : Flight} (hf : P f) (db : Db) : ∀ q, P ((t.set pid f db).flights q) := by
  intro q
  simp only [LateEdits.State.set]
  by_cases hq : q = pid
  · rw [hq, Function.update_self]
    exact hf
  · rw [Function.update_of_ne hq]
    exact h q

theorem set_idle {t : LateEdits.State} {db : Db}
    (h : ∀ pid, FlightAuthored acts db (t.flights pid)) (pid : Nat) (db' : Db) :
    ∀ q, FlightAuthored acts db ((t.set pid .idle db').flights q) := by
  refine set_flights h ?_ db'
  trivial

theorem edit_flights (h : AllAuthored acts s) (a : LateEdits.Act) :
    ∀ pid, FlightAuthored (acts ++ [.edit a]) (LateEdits.step s.editing a).db
      ((LateEdits.step s.editing a).flights pid) := by
  have hauthors : ∀ x ∈ authors s.db, x ∈ authors (LateEdits.step s.editing a).db := by
    rw [edit_authors]
    exact fun x hx => hx
  have hold : ∀ pid, FlightAuthored (acts ++ [.edit a]) (LateEdits.step s.editing a).db
      (s.editing.flights pid) := fun pid => (h.flights pid).later hauthors _
  have hat : ∀ {pid f}, s.editing.flights pid = f →
      FlightAuthored (acts ++ [.edit a]) (LateEdits.step s.editing a).db f := by
    intro pid f hf
    rw [← hf]
    exact hold pid
  generalize (LateEdits.step s.editing a).db = after at hauthors hold hat ⊢
  cases a with
  | editRead pid limit now userId messageId dto =>
      simp only [LateEdits.step]
      split
      · rename_i hflight hcheck
        refine set_flights hold ?_ _
        intro x hx
        obtain ⟨m, hm, hid, hsender, _⟩ := LateEdits.editChecks_open hcheck
        have hstored := hauthors _ (List.mem_map_of_mem hm)
        exact ⟨_, hstored, hid, Or.inr ⟨_, List.mem_append_right _ (List.mem_singleton_self _),
          hsender.symm, hid.symm, x, hx, rfl, rfl⟩⟩
      · exact hold
  | editGroupRead pid limit now senderUserId groupId messageId dto =>
      simp only [LateEdits.step]
      split
      · rename_i hflight hcheck
        refine set_flights hold ?_ _
        intro deviceId
        obtain ⟨m, hm, hid, hsender, _⟩ := LateEdits.editGroupChecks_open hcheck
        have hstored := hauthors _ (List.mem_map_of_mem hm)
        exact ⟨_, hstored, hid, Or.inr ⟨_, List.mem_append_right _ (List.mem_singleton_self _),
          hsender.symm, hid.symm, rfl⟩⟩
      · exact hold
  | editClaim pid now =>
      simp only [LateEdits.step]
      split
      · rename_i messageId dto hflight
        have htexts := hat hflight
        refine set_flights hold ?_ _
        split
        · trivial
        · exact htexts
      · exact hold
  | editGroupClaim pid now =>
      simp only [LateEdits.step]
      split
      · rename_i senderUserId groupId messageId dto hflight
        have htext := hat hflight
        refine set_flights hold ?_ _
        split
        · trivial
        · exact htext
      · exact hold
  | editRefresh pid now =>
      simp only [LateEdits.step]
      split
      · rename_i messageId x rest hflight
        refine set_flights hold ?_ _
        exact fun y hy => hat hflight y (List.mem_cons_of_mem _ hy)
      · exact set_idle hold _ _
      · exact hold
  | jobStart pid index =>
      simp only [LateEdits.step]
      split
      · rename_i job hflight hjob
        refine set_flights hold ?_ _
        intro deviceId
        exact (h.editJobs job (List.mem_of_getElem? hjob) deviceId).later hauthors _
      · exact hold
  | jobChunk pid now =>
      simp only [LateEdits.step]
      split
      · rename_i job chunk rest hflight
        have htext := hat hflight
        refine set_flights hold ?_ _
        exact htext
      · exact set_idle hold _ _
      · exact hold
  | editGroupEnqueue pid =>
      simp only [LateEdits.step]
      split
      · exact set_idle hold _ s.editing.db
      · exact hold
  | deleteRead pid limit now userId messageId dto =>
      simp only [LateEdits.step]
      split
      · refine set_flights hold ?_ _
        trivial
      · exact hold
  | tombstoneRead pid actor role messageId dto =>
      simp only [LateEdits.step]
      split
      · refine set_flights hold ?_ _
        trivial
      · exact hold
  | suspendRead pid now actor role target dto =>
      simp only [LateEdits.step]
      split
      · refine set_flights hold ?_ _
        trivial
      · exact hold
  | deleteCommit pid now =>
      simp only [LateEdits.step]
      split
      · split <;> exact set_idle hold _ _
      · exact hold
  | tombstoneCommit pid now =>
      simp only [LateEdits.step]
      split
      · split <;> exact set_idle hold _ _
      · exact hold
  | suspendCommit pid now sid =>
      simp only [LateEdits.step]
      split
      · split <;> exact set_idle hold _ _
      · exact hold
  | fail pid => exact set_idle hold _ _

theorem edit_jobs (h : AllAuthored acts s) (a : LateEdits.Act) :
    ∀ job ∈ (LateEdits.step s.editing a).jobs, ∀ deviceId,
      Authored (acts ++ [.edit a]) (LateEdits.step s.editing a).db job.messageId deviceId
        job.ciphertext := by
  have hauthors : ∀ x ∈ authors s.db, x ∈ authors (LateEdits.step s.editing a).db := by
    rw [edit_authors]
    exact fun x hx => hx
  have hold : ∀ job ∈ s.editing.jobs, ∀ deviceId,
      Authored (acts ++ [.edit a]) (LateEdits.step s.editing a).db job.messageId deviceId
        job.ciphertext := fun job hjob deviceId => (h.editJobs job hjob deviceId).later hauthors _
  have hflight : ∀ pid, FlightAuthored (acts ++ [.edit a]) (LateEdits.step s.editing a).db
      (s.editing.flights pid) := fun pid => (h.flights pid).later hauthors _
  generalize (LateEdits.step s.editing a).db = after at hauthors hold hflight ⊢
  cases a with
  | editGroupEnqueue pid =>
      simp only [LateEdits.step]
      split
      · rename_i senderUserId groupId messageId dto hpid
        intro job hjob deviceId
        rcases List.mem_append.mp hjob with hjob | hjob
        · exact hold job hjob deviceId
        · obtain ⟨hid, htext⟩ := editJob_text (Option.mem_toList.mp hjob)
          have htexts := hflight pid
          rw [hpid] at htexts
          rw [hid, htext]
          exact htexts deviceId
      · exact hold
  | fail pid => exact hold
  | deleteCommit pid now =>
      simp only [LateEdits.step]
      split
      · split <;> exact hold
      · exact hold
  | tombstoneCommit pid now =>
      simp only [LateEdits.step]
      split
      · split <;> exact hold
      · exact hold
  | suspendCommit pid now sid =>
      simp only [LateEdits.step]
      split
      · split <;> exact hold
      · exact hold
  | _ =>
      simp only [LateEdits.step]
      split <;> exact hold

/-- The text an edit writes is authored for each of the devices. -/
theorem written_authored {t : LateEdits.State} {db : Db}
    (hflight : ∀ pid, FlightAuthored acts db (t.flights pid)) {a : LateEdits.Act} {now : Time}
    {messageId : Id} {ciphertext : Ciphertext} {deviceIds : List Id}
    (hw : LateEdits.written t a = some (.envelopes now messageId ciphertext deviceIds)) :
    ∀ deviceId ∈ deviceIds, Authored acts db messageId deviceId ciphertext := by
  cases a with
  | editRefresh pid now' =>
      simp only [LateEdits.written] at hw
      split at hw
      · rename_i id x rest hpid
        cases hw
        have htexts := hflight pid
        rw [hpid] at htexts
        intro deviceId hdevice
        obtain rfl := List.mem_singleton.mp hdevice
        exact htexts x List.mem_cons_self
      · cases hw
  | jobChunk pid now' =>
      simp only [LateEdits.written] at hw
      split at hw
      · rename_i job chunk rest hpid
        cases hw
        have htexts := hflight pid
        rw [hpid] at htexts
        exact fun deviceId _ => htexts deviceId
      · cases hw
  | editClaim pid now' =>
      simp only [LateEdits.written] at hw
      split at hw <;> cases hw
  | editGroupClaim pid now' =>
      simp only [LateEdits.written] at hw
      split at hw <;> cases hw
  | _ => cases hw

/-- An edit writes its own texts into the envelopes of its message. -/
theorem edit_envelopes (h : AllAuthored acts s) (a : LateEdits.Act) :
    ∀ e ∈ (LateEdits.step s.editing a).db.messageEnvelopes,
      Authored (acts ++ [.edit a]) (LateEdits.step s.editing a).db e.messageId e.recipientDeviceId
        e.ciphertext := by
  have hauthors : ∀ x ∈ authors s.db, x ∈ authors (LateEdits.step s.editing a).db := by
    rw [edit_authors]
    exact fun x hx => hx
  have hold : ∀ e ∈ s.db.messageEnvelopes,
      Authored (acts ++ [.edit a]) (LateEdits.step s.editing a).db e.messageId e.recipientDeviceId
        e.ciphertext := fun e he => (h.envelopes e he).later hauthors _
  have hflight : ∀ pid, FlightAuthored (acts ++ [.edit a]) (LateEdits.step s.editing a).db
      (s.editing.flights pid) := fun pid => (h.flights pid).later hauthors _
  rcases LateEdits.step_writes s.editing a with ⟨w, hw, hdb⟩ | ⟨_, hspares⟩
  · have hrows := congrArg Db.messageEnvelopes hdb
    generalize (LateEdits.step s.editing a).db = after at hauthors hold hflight hrows ⊢
    intro e he
    rw [hrows] at he
    cases w with
    | claim now messageId key => exact hold e he
    | envelopes now messageId ciphertext deviceIds =>
        obtain ⟨x, hx, rfl⟩ := Rows.mem_updateMany.mp he
        split
        · rename_i hselected
          obtain ⟨hid, hdevice⟩ := Bool.and_eq_true_iff.mp hselected
          rw [beq_iff_eq.mp hid]
          exact written_authored hflight hw _ (List.contains_iff_mem.mp hdevice)
        · exact hold x hx
  · intro e he
    rw [hspares.envelopes] at he
    exact hold e he

end Edits

theorem edit_allAuthored (env : AuthEnv) (configuredMax : Option Int) {acts : List Act} {s : State}
    (h : AllAuthored acts s) (a : LateEdits.Act) :
    AllAuthored (acts ++ [.edit a]) (step env configuredMax s (.edit a)) := by
  have hauthors : ∀ x ∈ authors s.db, x ∈ authors (LateEdits.step s.editing a).db := by
    rw [edit_authors]
    exact fun x hx => hx
  constructor
  · exact fun pid => (h.requests pid).mono fun r hr => mem_requests_concat.mpr (Or.inl hr)
  · exact fun pid => (h.calls pid).later hauthors _
  · exact fun job hjob deviceId => (h.jobs job hjob deviceId).later hauthors _
  · exact edit_flights h a
  · exact edit_jobs h a
  · exact edit_envelopes h a

/-! ## Every run -/

theorem rest_allAuthored (env : AuthEnv) (configuredMax : Option Int) {acts : List Act} {s : State}
    (h : AllAuthored acts s) (db : Db) (f : Message → Message)
    (g : MessageEnvelope → MessageEnvelope) :
    AllAuthored (acts ++ [.rest db f g]) (step env configuredMax s (.rest db f g)) := by
  have hsame : authors (step env configuredMax s (.rest db f g)).db = authors s.db := by
    show (s.db.messages.map (keepAuthor f)).map author = s.db.messages.map author
    rw [List.map_map]
    rfl
  have hauthors : ∀ x ∈ authors s.db, x ∈ authors (step env configuredMax s (.rest db f g)).db := by
    rw [hsame]
    exact fun x hx => hx
  constructor
  · exact fun pid => (h.requests pid).mono fun r hr => mem_requests_concat.mpr (Or.inl hr)
  · exact fun pid => (h.calls pid).later hauthors _
  · exact fun job hjob deviceId => (h.jobs job hjob deviceId).later hauthors _
  · exact fun pid => (h.flights pid).later hauthors _
  · exact fun job hjob deviceId => (h.editJobs job hjob deviceId).later hauthors _
  · intro e he
    obtain ⟨x, hx, rfl⟩ := List.mem_map.mp he
    exact (h.envelopes x hx).later hauthors _

theorem start_allAuthored (db : Db) : AllAuthored [] (start db) where
  requests _ := trivial
  calls _ := trivial
  jobs job hjob := by cases hjob
  flights _ := trivial
  editJobs job hjob := by cases hjob
  envelopes e he := by cases he

/-- In every run, whatever the interleaving, in which no group request finds the message of another
user inside its transaction: the ciphertext of an envelope was given for its device by the sender
of its message, in a request under the device and the key of the message or in an edit of it. -/
theorem texts_are_the_senders (env : AuthEnv) (configuredMax : Option Int) (db : Db) (acts : List Act)
    (hown : Along (step env configuredMax) FindsOwn (start db) acts) :
    ∀ e ∈ (run (step env configuredMax) (start db) acts).db.messageEnvelopes,
      ∃ m ∈ (run (step env configuredMax) (start db) acts).db.messages, m.id = e.messageId ∧
        ((∃ r ∈ requests acts, Gives (author m) e.recipientDeviceId e.ciphertext r) ∨
          ∃ a ∈ acts, Rewrites (author m) e.recipientDeviceId e.ciphertext a) := by
  have hall : AllAuthored acts (run (step env configuredMax) (start db) acts) := by
    refine along_history (I := AllAuthored) (C := FindsOwn) (start_allAuthored db) ?_ acts hown
    intro pre a h ha
    cases a with
    | post a => exact post_allAuthored env configuredMax h a ha
    | edit a => exact edit_allAuthored env configuredMax h a
    | rest db' f g => exact rest_allAuthored env configuredMax h db' f g
  intro e he
  obtain ⟨x, hx, hid, hsubmitted⟩ := hall.envelopes e he
  obtain ⟨m, hm, rfl⟩ := List.mem_map.mp hx
  exact ⟨m, hm, hid, hsubmitted⟩

/-- Alice sends to Bob and to a group, and rewrites what Bob has; she has edited the message before. -/
def sentAndEdited : List Act :=
  [.post (.send 0 "alice" (sampleDto "send-key-1")), .post (.tx 0 (sampleCtx "m1")),
   .post (.queueGroupMessage 1 "alice" "g1"
     { senderDeviceId := "d1", idempotencyKey := "group-key-1", ciphertext := "c" }),
   .post (.txCheck 1),
   .rest { sampleDb with directThreads := [{ id := "t1", userAId := "alice", userBId := "bob" }] }
     (fun m => { m with lastEditIdempotencyKey := some "edit-key-0" }) id,
   .edit (.editRead 0 {} 1000 "alice" "m1"
     { senderDeviceId := "d1", idempotencyKey := "edit-key-1", envelopes := [⟨"d2", "c'"⟩] }),
   .edit (.editClaim 0 1000), .edit (.editRefresh 0 1000)]

theorem rewritten_by_alice :
    ∃ e ∈ (run (step Devices.sampleEnv none) (start sampleDb) sentAndEdited).db.messageEnvelopes,
      e.ciphertext = "c'" ∧
      ∃ m ∈ (run (step Devices.sampleEnv none) (start sampleDb) sentAndEdited).db.messages,
        m.id = e.messageId ∧
        ((∃ r ∈ requests sentAndEdited, Gives (author m) e.recipientDeviceId e.ciphertext r) ∨
          ∃ a ∈ sentAndEdited, Rewrites (author m) e.recipientDeviceId e.ciphertext a) := by
  have hown : Along (step Devices.sampleEnv none) FindsOwn (start sampleDb) sentAndEdited := by
    simp only [sentAndEdited, along_cons]
    refine ⟨trivial, trivial, trivial, ?_, trivial, trivial, trivial, trivial, along_nil _ _ _⟩
    intro m hm
    cases hm
  have hrewritten : ∃ e ∈
      (run (step Devices.sampleEnv none) (start sampleDb) sentAndEdited).db.messageEnvelopes,
      e.ciphertext = "c'" := by decide
  obtain ⟨e, he, htext⟩ := hrewritten
  exact ⟨e, he, htext, texts_are_the_senders Devices.sampleEnv none sampleDb sentAndEdited hown e he⟩

/-- Mallory begins a group message under the device and the key of Alice's message to Bob. -/
def takenKey : List Act :=
  [.post (.queueGroupMessage 1 "mallory" "g1"
     { senderDeviceId := "d1", idempotencyKey := "send-key-1", ciphertext := "forged" }),
   .post (.send 0 "alice" (sampleDto "send-key-1")), .post (.tx 0 (sampleCtx "m1")),
   .post (.txCheck 1), .post (.enqueue 1), .post (.fanout 0 20 fun i => "e" ++ toString i)]

/-- Then the text of Mallory is fanned out as Alice's. -/
example :
    ∃ e ∈ (run (step Devices.sampleEnv none) (start sampleDb) takenKey).db.messageEnvelopes,
      e.ciphertext = "forged" ∧
      ∃ m ∈ (run (step Devices.sampleEnv none) (start sampleDb) takenKey).db.messages,
        m.id = e.messageId ∧ m.senderUserId = "alice" := by decide

end Birgap.Messaging.Authorship
