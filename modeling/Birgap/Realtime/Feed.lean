import Birgap.Realtime.Kicks

/-!
# What a connected device receives

From the moment a socket is in the room of its device, and as long as it stays connected, it
receives the envelopes announced for the device: each as often as it is announced, in the order
of the announcements, and nothing else. An envelope is announced after its row is committed, so
between the announcements and the rows that are stored when the socket enters nothing is missed.
-/
namespace Birgap.Realtime.Gateway

set_option autoImplicit false

open Birgap.Lib Birgap.Lib.Run Birgap.Auth

variable {env : AuthEnv}

/-- The new envelope a frame brings to the socket in the room of the device. -/
def envelopeOf (socketId deviceId : Id) (f : Frame) : Option NewEnvelope :=
  match f.event with
  | .messageNew e => if f.socketId = socketId ∧ f.room = some (.device deviceId) then some e else none
  | _ => none

def received (socketId deviceId : Id) (frames : List Frame) : List NewEnvelope :=
  frames.filterMap (envelopeOf socketId deviceId)

def announcedTo (deviceId : Id) : Act → List NewEnvelope
  | .messageCreated envelopes => envelopes.filter fun e => e.recipientDeviceId == deviceId
  | _ => []

theorem received_append (socketId deviceId : Id) (as bs : List Frame) :
    received socketId deviceId (as ++ bs) = received socketId deviceId as ++
      received socketId deviceId bs := List.filterMap_append

/-- Frames of other events bring no new envelope. -/
theorem received_nil {socketId deviceId : Id} {frames : List Frame}
    (h : ∀ f ∈ frames, ∀ e, f.event ≠ .messageNew e) : received socketId deviceId frames = [] := by
  apply List.filterMap_eq_nil_iff.mpr
  intro f hf
  unfold envelopeOf
  split
  · rename_i e he
    exact absurd he (h f hf e)
  · rfl

theorem filterMap_if {α β : Type} (p : α → Bool) (b : β) (rows : List α) :
    rows.filterMap (fun a => if p a then some b else none) = (rows.filter p).map fun _ => b := by
  induction rows with
  | nil => rfl
  | cons a rows ih =>
      rw [List.filterMap_cons, List.filter_cons, ih]
      cases p a <;> rfl

/-- An emission to a room reaches each socket in it once. -/
theorem received_emit {sockets : List Socket} (hids : Rows.Unique (·.id) sockets) {x : Socket}
    (hx : x ∈ sockets) {deviceId : Id} (hroom : Room.device deviceId ∈ x.rooms) (e : NewEnvelope) :
    received x.id deviceId (emit sockets (.device e.recipientDeviceId) (.messageNew e)) =
      if e.recipientDeviceId = deviceId then [e] else [] := by
  unfold received emit
  rw [List.filterMap_map]
  by_cases hdevice : e.recipientDeviceId = deviceId
  · subst hdevice
    have henvelope : (envelopeOf x.id e.recipientDeviceId ∘ fun y : Socket =>
        (⟨y.id, some (.device e.recipientDeviceId), .messageNew e⟩ : Frame)) =
        fun y => if y.id == x.id then some e else none := by
      funext y
      simp only [Function.comp_apply, envelopeOf, and_true, beq_iff_eq]
    have hself : [x].filter (fun y => y.rooms.contains (.device e.recipientDeviceId)) = [x] := by
      refine List.filter_eq_self.mpr fun y hy => ?_
      rw [List.mem_singleton.mp hy]
      exact List.contains_iff_mem.mpr hroom
    rw [if_pos rfl, henvelope, filterMap_if, List.filter_comm, hids.filter_eq hx, hself]
    rfl
  · rw [if_neg hdevice]
    apply List.filterMap_eq_nil_iff.mpr
    intro y _
    have hroom' : some (Room.device e.recipientDeviceId) ≠ some (.device deviceId) :=
      fun h => hdevice (Room.device.inj (Option.some.inj h))
    simp only [Function.comp_apply, envelopeOf, hroom', and_false, if_false]

theorem received_messageCreated {sockets : List Socket} (hids : Rows.Unique (·.id) sockets)
    {x : Socket} (hx : x ∈ sockets) {deviceId : Id} (hroom : Room.device deviceId ∈ x.rooms)
    (envelopes : List NewEnvelope) :
    received x.id deviceId (envelopes.flatMap fun e =>
      emit sockets (.device e.recipientDeviceId) (.messageNew e)) =
        envelopes.filter fun e => e.recipientDeviceId == deviceId := by
  induction envelopes with
  | nil => rfl
  | cons e envelopes ih =>
      rw [List.flatMap_cons, received_append, ih, received_emit hids hx hroom]
      simp only [List.filter_cons, beq_iff_eq]
      split <;> rfl

/-- The frames of a step, none of which brings a new envelope. -/
def Silent (s t : State) : Prop :=
  ∃ frames, t.frames = s.frames ++ frames ∧ ∀ f ∈ frames, ∀ e, f.event ≠ .messageNew e

theorem silent_of_eq {s t : State} (h : t.frames = s.frames) : Silent s t :=
  ⟨[], by rw [h, List.append_nil], fun f hf => by cases hf⟩

theorem proceed_silent (env : AuthEnv) (s : State) (x : Socket) (a : Act) :
    Silent s (proceed env s x a) := by
  have hemit : ∀ auth : SocketAuth, Silent s
      { s.set { x with phase := .done auth } with
        frames := s.frames ++
          emit s.sockets (.user auth.userId) (.presenceActive auth.userId auth.deviceId) } := by
    intro auth
    refine ⟨_, rfl, ?_⟩
    intro f hf e
    obtain ⟨y, _, rfl⟩ := List.mem_map.mp hf
    exact Event.noConfusion
  fun_cases proceed env s x a
  all_goals first
    | exact silent_of_eq rfl
    | exact hemit _

/-- Only `messageCreated` emits new envelopes. -/
theorem step_silent (env : AuthEnv) (s : State) (a : Act)
    (ha : ∀ envelopes, a ≠ .messageCreated envelopes) : Silent s (step env s a) := by
  unfold step
  split
  · split
    · exact silent_of_eq rfl
    · exact proceed_silent env s _ a
  · split
    · exact silent_of_eq rfl
    · split
      · exact silent_of_eq rfl
      · refine ⟨_, rfl, ?_⟩
        intro f hf e
        unfold greeting at hf
        split at hf
        · rw [List.mem_singleton.mp hf]
          exact Event.noConfusion
        · cases hf
    · exact silent_of_eq rfl
    · split
      · exact silent_of_eq rfl
      · refine ⟨_, rfl, ?_⟩
        intro f hf e
        obtain ⟨y, _, rfl⟩ := List.mem_map.mp hf
        exact Event.noConfusion
    · exact silent_of_eq rfl
    · refine ⟨_, rfl, ?_⟩
      intro f hf e
      cases a with
      | messageCreated envelopes => exact absurd rfl (ha envelopes)
      | messageEdited event =>
          obtain ⟨m, _, hf⟩ := List.mem_flatMap.mp hf
          obtain ⟨y, _, rfl⟩ := List.mem_map.mp hf
          exact Event.noConfusion
      | toUsers name targetUserIds =>
          obtain ⟨u, _, hf⟩ := List.mem_flatMap.mp hf
          obtain ⟨y, _, rfl⟩ := List.mem_map.mp hf
          exact Event.noConfusion
      | notifyShutdown =>
          simp only [emitted] at hf
          split at hf
          · obtain ⟨y, _, rfl⟩ := List.mem_map.mp hf
            exact Event.noConfusion
          · cases hf
      | _ => cases hf

/-- One step brings a socket in the room of its device what the step announces to the device. -/
theorem step_received (env : AuthEnv) {s : State} (hwf : Wf s) (a : Act) {x : Socket}
    (hx : x ∈ s.sockets) {deviceId : Id} (hroom : Room.device deviceId ∈ x.rooms) :
    received x.id deviceId (step env s a).frames =
      received x.id deviceId s.frames ++ announcedTo deviceId a := by
  by_cases ha : ∃ envelopes, a = .messageCreated envelopes
  · obtain ⟨envelopes, rfl⟩ := ha
    show received x.id deviceId (s.frames ++ _) = _
    rw [received_append]
    exact congrArg _ (received_messageCreated hwf.ids hx hroom envelopes)
  · have hsilent := step_silent env s a fun envelopes h => ha ⟨envelopes, h⟩
    have hannounced : announcedTo deviceId a = [] := by
      cases a with
      | messageCreated envelopes => exact absurd ⟨envelopes, rfl⟩ ha
      | _ => rfl
    obtain ⟨frames, hframes, hnone⟩ := hsilent
    rw [hframes, received_append, received_nil hnone, hannounced]

/-- From any well-formed state on, a socket in the room of its device that is connected at the end
receives what is announced to the device. -/
theorem feed_from (env : AuthEnv) {s : State} (hwf : Wf s) (acts : List Act) {deviceId : Id}
    {x x' : Socket} (hx : x ∈ s.sockets) (hroom : Room.device deviceId ∈ x.rooms)
    (hx' : x' ∈ (run (step env) s acts).sockets) (hid : x'.id = x.id)
    (hconnected : x'.connected = true) :
    received x.id deviceId (run (step env) s acts).frames =
      received x.id deviceId s.frames ++ acts.flatMap (announcedTo deviceId) := by
  induction acts generalizing s x with
  | nil => exact (List.append_nil _).symm
  | cons a acts ih =>
      obtain ⟨hwf₁, hfollows⟩ := (step_effect env s a).follows hwf
      obtain ⟨y, hy, hyid, hgoes⟩ := hfollows x hx
      -- the row after the step is connected too, so it is still in the room
      obtain ⟨hwf₂, hfollows₂⟩ := run_follows env hwf₁ acts
      obtain ⟨y', hy', hyid', hgoes'⟩ := hfollows₂ y hy
      have hsame : y' = x' := hwf₂.ids.eq hy' hx' (hyid'.trans (hyid.trans hid.symm))
      obtain ⟨hyconnected, _⟩ := hgoes' (hsame ▸ hconnected)
      have hyroom := (hgoes hyconnected).2 _ hroom
      have hrest := ih hwf₁ hy hyroom hx' (hid.trans hyid.symm)
      rw [hyid] at hrest
      rw [run_cons, hrest, step_received env hwf a hx hroom, List.flatMap_cons, List.append_assoc]

/-- In every run, whatever happens in it: a socket that is in the room of its device at some point
and still connected at the end has received, since that point, exactly the envelopes announced to
the device, in order. -/
theorem feed_exact (env : AuthEnv) (db : Db) (before acts : List Act) (deviceId : Id)
    (x x' : Socket) (hx : x ∈ (run (step env) (start db) before).sockets)
    (hroom : Room.device deviceId ∈ x.rooms)
    (hx' : x' ∈ (run (step env) (start db) (before ++ acts)).sockets) (hid : x'.id = x.id)
    (hconnected : x'.connected = true) :
    received x.id deviceId (run (step env) (start db) (before ++ acts)).frames =
      received x.id deviceId (run (step env) (start db) before).frames ++
        acts.flatMap (announcedTo deviceId) := by
  rw [run_append] at hx' ⊢
  exact feed_from env (run_follows env (start_wf db) before).1 acts hx hroom hx' hid hconnected

/-- Two envelopes of one announcement, of which one is for the device of the socket. -/
def twoEnvelopes : List NewEnvelope :=
  [{ recipientDeviceId := "d1", recipientUserId := "alice", messageId := "m1", ciphertext := "c1" },
   { recipientDeviceId := "d2", recipientUserId := "alice", messageId := "m1", ciphertext := "c2" }]

theorem first_received :
    ∃ x ∈ (run (step sampleEnv) (start Tickets.sampleDb) oneSocket).sockets,
      ∃ x' ∈ (run (step sampleEnv) (start Tickets.sampleDb)
        (oneSocket ++ [.messageCreated twoEnvelopes])).sockets,
      Room.device "d1" ∈ x.rooms ∧ x'.id = x.id ∧ x'.connected = true ∧
      received x.id "d1" (run (step sampleEnv) (start Tickets.sampleDb)
          (oneSocket ++ [.messageCreated twoEnvelopes])).frames =
        received x.id "d1" (run (step sampleEnv) (start Tickets.sampleDb) oneSocket).frames ++
          [Act.messageCreated twoEnvelopes].flatMap (announcedTo "d1") := by
  have hsockets : ∃ x ∈ (run (step sampleEnv) (start Tickets.sampleDb) oneSocket).sockets,
      ∃ x' ∈ (run (step sampleEnv) (start Tickets.sampleDb)
        (oneSocket ++ [.messageCreated twoEnvelopes])).sockets,
      Room.device "d1" ∈ x.rooms ∧ x'.id = x.id ∧ x'.connected = true := by decide
  obtain ⟨x, hx, x', hx', hroom, hid, hconnected⟩ := hsockets
  exact ⟨x, hx, x', hx', hroom, hid, hconnected, feed_exact sampleEnv Tickets.sampleDb oneSocket
    [.messageCreated twoEnvelopes] "d1" x x' hx hroom hx' hid hconnected⟩

end Birgap.Realtime.Gateway
