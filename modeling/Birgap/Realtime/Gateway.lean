import Birgap.Push.Processor
import Birgap.Realtime.EditEvents
import Birgap.Realtime.Tickets

/-!
# The rooms of the gateway

`RealtimeGateway` with every await of `handleConnection` and of a kick a step of its own. A
socket joins the room of its user and the room of its device once its ticket is consumed, and
events are emitted to rooms. What a socket receives goes back to the ticket it has consumed.
-/
namespace Birgap.Realtime.Gateway

set_option autoImplicit false

open Birgap.Lib Birgap.Lib.Run Birgap.Auth Birgap.Push
open Birgap.Realtime.EditEvents (Emission EditedPayload)

inductive Room where
  | user (userId : Id)
  | device (deviceId : Id)
  deriving DecidableEq

/-- Where `handleConnection` stands: before the transaction, past each of its three look-ups,
past its commit, in the first room, in both, and at its end. -/
inductive Phase where
  | arrived (c : Consume)
  | found (c : Consume) (t : SocketTicket)
  | active (c : Consume) (t : SocketTicket)
  | ready (c : Consume) (t : SocketTicket) (deviceId : Id)
  | consumed (auth : SocketAuth)
  | joined (auth : SocketAuth)
  | registered (auth : SocketAuth)
  | done (auth : SocketAuth)
  | refused

structure Socket where
  id : Id
  connected : Bool
  phase : Phase
  rooms : List Room

/-- An envelope of `message.created`, with the fields all its senders give it. -/
structure NewEnvelope extends PushEnvelopeTarget where
  messageId : Id
  ciphertext : Ciphertext

/-- The events; those to users that carry no more than their name here are `other`. -/
inductive Event where
  | messageNew (envelope : NewEnvelope)
  | messageEdited (m : Emission)
  | presenceActive (userId deviceId : Id)
  | kicked (reason : String)
  | serverShutdown (message : String)
  | other (name : String)

/-- What a socket receives, and the room it was sent to, if to one. -/
structure Frame where
  socketId : Id
  room : Option Room
  event : Event

/-- `kicks` holds the sockets a kick has fetched. -/
structure State where
  db : Db
  sockets : List Socket
  kicks : Nat → Option (Id × List Id)
  frames : List Frame
  isShuttingDown : Bool

/-- `store` is any write of the rest of the program to the database. -/
inductive Act where
  | store (db : Db)
  | connect (id : Id) (authTicket queryTicket : Option String) (now : Time)
  | find (id : Id)
  | session (id : Id)
  | device (id : Id)
  | commit (id : Id)
  | fail (id : Id)
  | enter (id : Id)
  | enterDevice (id : Id)
  | announce (id : Id)
  | disconnect (id : Id)
  | messageCreated (envelopes : List NewEnvelope)
  | messageEdited (event : EditEvents.Event)
  | toUsers (name : String) (targetUserIds : List Id)
  | fetch (kick : Nat) (userId : Id)
  | kick (kick : Nat) (reason : Option String)
  | shutdown
  | notifyShutdown

/-! ## Sockets and rooms -/

/-- A socket that goes leaves its rooms, and a later `join` has no effect. -/
def leave (x : Socket) : Socket := { x with connected := false, rooms := [] }

def join (room : Room) (x : Socket) : Socket :=
  if x.connected then { x with rooms := x.rooms ++ [room] } else x

/-- `client.disconnect(true)` at the end of a connection that fails. -/
def refuse (x : Socket) : Socket := leave { x with phase := .refused }

/-- `server.to(room).emit`. -/
def emit (sockets : List Socket) (room : Room) (event : Event) : List Frame :=
  (sockets.filter fun x => x.rooms.contains room).map fun x => ⟨x.id, some room, event⟩

/-- `server.emit`: to every socket, whether it has shown a ticket or not. -/
def emitAll (sockets : List Socket) (event : Event) : List Frame :=
  (sockets.filter (·.connected)).map fun x => ⟨x.id, none, event⟩

def authOf (t : SocketTicket) : SocketAuth := ⟨t.userId, t.deviceId, t.sessionId⟩

def State.set (s : State) (x : Socket) : State :=
  { s with sockets := Rows.updateMany (·.id == x.id) (fun _ => x) s.sockets }

/-- The ticket of the handshake, if it is a text. -/
def extractTicket (authTicket queryTicket : Option String) : Option String := authTicket <|> queryTicket

/-- The start of `handleConnection`. -/
def arrive (isShuttingDown : Bool) (id : Id) (ticket : Option String) (now : Time) : Socket :=
  match isShuttingDown, Common.truthy ticket with
  | false, some ticket =>
      { id, connected := true, phase := .arrived { ticket, socketId := id, now }, rooms := [] }
  | _, _ => { id, connected := false, phase := .refused, rooms := [] }

/-- What a socket is told that comes during the shutdown, before its ticket is looked at. -/
def greeting (isShuttingDown : Bool) (id : Id) : List Frame :=
  if isShuttingDown then [⟨id, none, .serverShutdown "Server is shutting down"⟩] else []

section

variable (env : AuthEnv)

/-- The next step of `handleConnection`, where the act is the one it waits for. -/
def proceed (s : State) (x : Socket) : Act → State
  | .find _ =>
      match x.phase with
      | .arrived c =>
          match findTicket (env.sha256 c.ticket) c.now s.db with
          | .error _ => s.set (refuse x)
          | .ok t => s.set { x with phase := .found c t }
      | _ => s
  | .session _ =>
      match x.phase with
      | .found c t =>
          match checkSession t c.now s.db with
          | .error _ => s.set (refuse x)
          | .ok () => s.set { x with phase := .active c t }
      | _ => s
  | .device _ =>
      match x.phase with
      | .active c t =>
          match findDevice t s.db with
          | .error _ => s.set (refuse x)
          | .ok d => s.set { x with phase := .ready c t d.id }
      | _ => s
  | .commit _ =>
      match x.phase with
      | .ready c t deviceId =>
          { s.set { x with phase := .consumed (authOf t) } with
            db := consumeWrites c t.id deviceId s.db }
      | _ => s
  | .fail _ =>
      match x.phase with
      | .arrived _ => s.set (refuse x)
      | .found _ _ => s.set (refuse x)
      | .active _ _ => s.set (refuse x)
      | .ready _ _ _ => s.set (refuse x)
      | _ => s
  | .enter _ =>
      match x.phase with
      | .consumed auth => s.set (join (.user auth.userId) { x with phase := .joined auth })
      | _ => s
  | .enterDevice _ =>
      match x.phase with
      | .joined auth => s.set (join (.device auth.deviceId) { x with phase := .registered auth })
      | _ => s
  | .announce _ =>
      match x.phase with
      | .registered auth =>
          { s.set { x with phase := .done auth } with
            frames := s.frames ++
              emit s.sockets (.user auth.userId) (.presenceActive auth.userId auth.deviceId) }
      | _ => s
  | .disconnect _ => s.set (leave x)
  | _ => s

/-- The socket an act is about. -/
def Act.socket : Act → Option Id
  | .find id => some id
  | .session id => some id
  | .device id => some id
  | .commit id => some id
  | .fail id => some id
  | .enter id => some id
  | .enterDevice id => some id
  | .announce id => some id
  | .disconnect id => some id
  | _ => none

/-- The frames of an act that does nothing but emit. -/
def emitted (s : State) : Act → List Frame
  | .messageCreated envelopes =>
      envelopes.flatMap fun e => emit s.sockets (.device e.recipientDeviceId) (.messageNew e)
  | .messageEdited event =>
      (EditEvents.handle event).flatMap fun m => emit s.sockets (.device m.deviceId) (.messageEdited m)
  | .toUsers name targetUserIds =>
      targetUserIds.flatMap fun u => emit s.sockets (.user u) (.other name)
  | .notifyShutdown =>
      if s.isShuttingDown then
        emitAll s.sockets (.serverShutdown "Server is shutting down, please reconnect")
      else []
  | _ => []

def inRoom (room : Room) (sockets : List Socket) : List Id :=
  (sockets.filter fun x => x.rooms.contains room).map (·.id)

/-- The loop over the fetched sockets. -/
def disconnectAll (ids : List Id) (sockets : List Socket) : List Socket :=
  Rows.updateMany (fun x => ids.contains x.id) leave sockets

def kickedFrames (userId : Id) (ids : List Id) (reason : Option String) (sockets : List Socket) :
    List Frame :=
  (sockets.filter fun x => ids.contains x.id && x.connected).map fun x =>
    ⟨x.id, some (.user userId), .kicked (reason.getD "KICKED")⟩

def step (s : State) (a : Act) : State :=
  match a.socket with
  | some id =>
      match s.sockets.find? (·.id == id) with
      | none => s
      | some x => proceed env s x a
  | none =>
      match a with
      | .store db => { s with db }
      | .connect id authTicket queryTicket now =>
          if s.sockets.any (·.id == id) then s
          else
            { s with
              sockets := s.sockets ++
                [arrive s.isShuttingDown id (extractTicket authTicket queryTicket) now]
              frames := s.frames ++ greeting s.isShuttingDown id }
      | .fetch k userId =>
          { s with
            kicks := Function.update s.kicks k (some (userId, inRoom (.user userId) s.sockets)) }
      | .kick k reason =>
          match s.kicks k with
          | none => s
          | some (userId, ids) =>
              { s with
                sockets := disconnectAll ids s.sockets
                kicks := Function.update s.kicks k none
                frames := s.frames ++ kickedFrames userId ids reason s.sockets }
      | .shutdown => { s with isShuttingDown := true }
      | a => { s with frames := s.frames ++ emitted s a }

end

def start (db : Db) : State :=
  { db, sockets := [], kicks := fun _ => none, frames := [], isShuttingDown := false }

/-! ## What a step can do -/

variable {env : AuthEnv}

/-- What becomes of a socket, and why. -/
inductive Moves (env : AuthEnv) (s : State) (a : Act) (x : Socket) : Socket → Prop where
  | left (phase : Phase) (hphase : phase = x.phase ∨ phase = .refused) :
      Moves env s a x (leave { x with phase })
  | found (c : Consume) (t : SocketTicket) (ha : a = .find x.id) (hx : x.phase = .arrived c)
      (ht : findTicket (env.sha256 c.ticket) c.now s.db = .ok t) :
      Moves env s a x { x with phase := .found c t }
  | active (c : Consume) (t : SocketTicket) (ha : a = .session x.id) (hx : x.phase = .found c t)
      (ht : checkSession t c.now s.db = .ok ()) : Moves env s a x { x with phase := .active c t }
  | ready (c : Consume) (t : SocketTicket) (d : Device) (ha : a = .device x.id)
      (hx : x.phase = .active c t) (ht : findDevice t s.db = .ok d) :
      Moves env s a x { x with phase := .ready c t d.id }
  | consumed (c : Consume) (t : SocketTicket) (deviceId : Id) (hx : x.phase = .ready c t deviceId) :
      Moves env s a x { x with phase := .consumed (authOf t) }
  | joined (auth : SocketAuth) (hx : x.phase = .consumed auth) :
      Moves env s a x (join (.user auth.userId) { x with phase := .joined auth })
  | registered (auth : SocketAuth) (hx : x.phase = .joined auth) :
      Moves env s a x (join (.device auth.deviceId) { x with phase := .registered auth })
  | done (auth : SocketAuth) (hx : x.phase = .registered auth) :
      Moves env s a x { x with phase := .done auth }

/-- The room a frame belongs into; only the notice of the shutdown is sent to none. -/
def Addressed (f : Frame) : Prop :=
  match f.event with
  | .messageNew envelope => f.room = some (.device envelope.recipientDeviceId)
  | .messageEdited m => f.room = some (.device m.deviceId)
  | .presenceActive userId _ => f.room = some (.user userId)
  | .kicked _ => ∃ userId, f.room = some (.user userId)
  | .serverShutdown _ => f.room = none
  | .other _ => ∃ userId, f.room = some (.user userId)

/-- The frame goes to a socket in its room, or to any socket during the shutdown. -/
def Delivered (s : State) (f : Frame) : Prop :=
  (match f.room with
    | none => s.isShuttingDown = true
    | some room => ∃ x ∈ s.sockets, f.socketId = x.id ∧ room ∈ x.rooms) ∧ Addressed f

/-- What a step does to the sockets, the kicks and the frames. -/
inductive Effect (env : AuthEnv) (s : State) (a : Act) (t : State) : Prop where
  | emits (frames : List Frame) (hsockets : t.sockets = s.sockets) (hkicks : t.kicks = s.kicks)
      (hframes : t.frames = s.frames ++ frames)
      (hroom : ∀ f ∈ frames, Delivered s f)
  | arrives (id : Id) (authTicket queryTicket : Option String) (now : Time) (frames : List Frame)
      (ha : a = .connect id authTicket queryTicket now) (hfresh : ∀ x ∈ s.sockets, x.id ≠ id)
      (hsockets : t.sockets = s.sockets ++
        [arrive s.isShuttingDown id (extractTicket authTicket queryTicket) now])
      (hkicks : t.kicks = s.kicks) (hframes : t.frames = s.frames ++ frames)
      (hroom : ∀ f ∈ frames, Delivered s f)
  | moves (x x' : Socket) (frames : List Frame) (hx : x ∈ s.sockets) (hid : x'.id = x.id)
      (hmove : Moves env s a x x')
      (hsockets : t.sockets = Rows.updateMany (·.id == x.id) (fun _ => x') s.sockets)
      (hkicks : t.kicks = s.kicks) (hframes : t.frames = s.frames ++ frames)
      (hroom : ∀ f ∈ frames, Delivered s f)
  | fetched (k : Nat) (userId : Id) (ha : a = .fetch k userId) (hsockets : t.sockets = s.sockets)
      (hkicks : t.kicks = Function.update s.kicks k (some (userId, inRoom (.user userId) s.sockets)))
      (hframes : t.frames = s.frames)
  | kicked (k : Nat) (reason : Option String) (userId : Id) (ids : List Id) (ha : a = .kick k reason)
      (hk : s.kicks k = some (userId, ids)) (hsockets : t.sockets = disconnectAll ids s.sockets)
      (hkicks : t.kicks = Function.update s.kicks k none)
      (hframes : t.frames = s.frames ++ kickedFrames userId ids reason s.sockets)

theorem Effect.none (s : State) (a : Act) : Effect env s a s :=
  .emits [] rfl rfl (List.append_nil _).symm fun f hf => by cases hf

theorem mem_emit {s : State} {room : Room} {event : Event} {f : Frame}
    (h : f ∈ emit s.sockets room event) (haddressed : ∀ id, Addressed ⟨id, some room, event⟩) :
    Delivered s f := by
  obtain ⟨x, hx, rfl⟩ := List.mem_map.mp h
  obtain ⟨hx, hroom⟩ := List.mem_filter.mp hx
  exact ⟨⟨x, hx, rfl, List.contains_iff_mem.mp hroom⟩, haddressed x.id⟩

theorem mem_greeting {s : State} {id : Id} {f : Frame} (h : f ∈ greeting s.isShuttingDown id) :
    Delivered s f := by
  unfold greeting at h
  split at h
  · rename_i hshutting
    obtain rfl := List.mem_singleton.mp h
    exact ⟨hshutting, rfl⟩
  · cases h

theorem mem_emitted {s : State} {a : Act} {f : Frame} (h : f ∈ emitted s a) : Delivered s f := by
  cases a with
  | messageCreated envelopes =>
      obtain ⟨e, _, hf⟩ := List.mem_flatMap.mp h
      exact mem_emit hf fun _ => rfl
  | messageEdited event =>
      obtain ⟨m, _, hf⟩ := List.mem_flatMap.mp h
      exact mem_emit hf fun _ => rfl
  | toUsers name targetUserIds =>
      obtain ⟨u, _, hf⟩ := List.mem_flatMap.mp h
      exact mem_emit hf fun _ => ⟨u, rfl⟩
  | notifyShutdown =>
      simp only [emitted] at h
      split at h
      · rename_i hshutting
        obtain ⟨x, _, rfl⟩ := List.mem_map.mp h
        exact ⟨hshutting, rfl⟩
      · cases h
  | _ => cases h

theorem Effect.move {s : State} {a : Act} {x x' : Socket} (hx : x ∈ s.sockets) (hid : x'.id = x.id)
    (hmove : Moves env s a x x') : Effect env s a (s.set x') :=
  .moves x x' [] hx hid hmove (by rw [State.set, hid]) rfl (List.append_nil _).symm
    fun f hf => by cases hf

theorem join_id (room : Room) (x : Socket) : (join room x).id = x.id := by
  unfold join
  split <;> rfl

theorem proceed_effect {s : State} {x : Socket} (hx : x ∈ s.sockets) {a : Act}
    (ha : a.socket = some x.id) : Effect env s a (proceed env s x a) := by
  have hrefuse : Effect env s a (s.set (refuse x)) :=
    .move hx rfl (.left .refused (Or.inr rfl))
  cases a with
  | find id =>
      obtain rfl := Option.some.inj ha
      simp only [proceed]
      split
      · rename_i c hphase
        split
        · exact hrefuse
        · rename_i t ht
          exact .move hx rfl (.found c t rfl hphase ht)
      · exact .none s _
  | session id =>
      obtain rfl := Option.some.inj ha
      simp only [proceed]
      split
      · rename_i c t hphase
        split
        · exact hrefuse
        · rename_i ht
          exact .move hx rfl (.active c t rfl hphase ht)
      · exact .none s _
  | device id =>
      obtain rfl := Option.some.inj ha
      simp only [proceed]
      split
      · rename_i c t hphase
        split
        · exact hrefuse
        · rename_i d hd
          exact .move hx rfl (.ready c t d rfl hphase hd)
      · exact .none s _
  | commit id =>
      simp only [proceed]
      split
      · rename_i c t deviceId hphase
        refine .moves x _ [] hx ?_ (.consumed c t deviceId hphase) rfl rfl (List.append_nil _).symm ?_
        · rfl
        · intro f hf
          cases hf
      · exact .none s _
  | fail id =>
      simp only [proceed]
      split <;> first | exact hrefuse | exact .none s _
  | enter id =>
      simp only [proceed]
      split
      · rename_i auth hphase
        exact .move hx (join_id _ _) (.joined auth hphase)
      · exact .none s _
  | enterDevice id =>
      simp only [proceed]
      split
      · rename_i auth hphase
        exact .move hx (join_id _ _) (.registered auth hphase)
      · exact .none s _
  | announce id =>
      simp only [proceed]
      split
      · rename_i auth hphase
        refine .moves x { x with phase := .done auth } _ hx rfl (.done auth hphase) rfl rfl rfl ?_
        exact fun f hf => mem_emit hf fun _ => rfl
      · exact .none s _
  | disconnect id =>
      simp only [proceed]
      exact .move hx rfl (.left x.phase (Or.inl rfl))
  | _ => cases ha

/-- The gateway itself only consumes tickets. -/
theorem proceed_db (env : AuthEnv) (s : State) (x : Socket) (a : Act) :
    (proceed env s x a).db = s.db ∨
      ∃ c ticketId deviceId, (proceed env s x a).db = consumeWrites c ticketId deviceId s.db := by
  fun_cases proceed env s x a
  all_goals first
    | exact Or.inl rfl
    | exact Or.inr ⟨_, _, _, rfl⟩

theorem step_db (env : AuthEnv) (s : State) (a : Act) :
    (step env s a).db = s.db ∨ a = .store (step env s a).db ∨
      ∃ c ticketId deviceId, (step env s a).db = consumeWrites c ticketId deviceId s.db := by
  fun_cases step env s a
  all_goals first
    | exact Or.inl rfl
    | exact Or.inr (Or.inl rfl)
    | exact (proceed_db env s _ _).imp_right Or.inr

theorem step_effect (env : AuthEnv) (s : State) (a : Act) : Effect env s a (step env s a) := by
  unfold step
  cases hsocket : a.socket with
  | some id =>
      dsimp only
      cases hfind : s.sockets.find? (·.id == id) with
      | none => exact .none s a
      | some x =>
          have hid : x.id = id := by simpa using List.find?_some hfind
          exact proceed_effect (List.mem_of_find?_eq_some hfind) (hid ▸ hsocket)
  | none =>
      have hemits : Effect env s a { s with frames := s.frames ++ emitted s a } :=
        .emits (emitted s a) rfl rfl rfl fun f hf => mem_emitted hf
      cases a with
      | connect id authTicket queryTicket now =>
          dsimp only
          split
          · exact .none s _
          · rename_i hfresh
            refine .arrives id authTicket queryTicket now _ rfl ?_ rfl rfl rfl ?_
            · intro x hx he
              exact hfresh (List.any_eq_true.mpr ⟨x, hx, beq_iff_eq.mpr he⟩)
            · exact fun f hf => mem_greeting hf
      | store db => exact .emits [] rfl rfl (List.append_nil _).symm fun f hf => by cases hf
      | shutdown => exact .emits [] rfl rfl (List.append_nil _).symm fun f hf => by cases hf
      | fetch k userId => exact .fetched k userId rfl rfl rfl rfl
      | kick k reason =>
          dsimp only
          split
          · exact .none s _
          · rename_i userId ids hk
            exact .kicked k reason userId ids rfl hk rfl rfl rfl
      | messageCreated envelopes => exact hemits
      | messageEdited event => exact hemits
      | toUsers name targetUserIds => exact hemits
      | notifyShutdown => exact hemits
      | _ => cases hsocket

theorem proceed_isShuttingDown (env : AuthEnv) (s : State) (x : Socket) (a : Act) :
    (proceed env s x a).isShuttingDown = s.isShuttingDown := by
  fun_cases proceed env s x a <;> rfl

/-- Only `shutdown` begins the shutdown. -/
theorem step_isShuttingDown (env : AuthEnv) (s : State) (a : Act) :
    (step env s a).isShuttingDown = s.isShuttingDown ∨ a = .shutdown := by
  fun_cases step env s a
  all_goals first
    | exact Or.inl rfl
    | exact Or.inr rfl
    | exact Or.inl (proceed_isShuttingDown env s _ _)

/-! ## Where a room comes from -/

/-- The socket has connected with the ticket of `c`, at the time of `c`. -/
def Arrived (acts : List Act) (id : Id) (c : Consume) : Prop :=
  ∃ pre rest authTicket queryTicket, acts = pre ++ .connect id authTicket queryTicket c.now :: rest ∧
    extractTicket authTicket queryTicket = some c.ticket

/-- It has found the ticket stored, unused and not expired, -/
def Found (env : AuthEnv) (s : State) (acts : List Act) (id : Id) (c : Consume) (t : SocketTicket) :
    Prop :=
  ∃ pre rest, acts = pre ++ .find id :: rest ∧ Arrived pre id c ∧
    findTicket (env.sha256 c.ticket) c.now (run (step env) s pre).db = .ok t

/-- then the session of the ticket live, -/
def Checked (env : AuthEnv) (s : State) (acts : List Act) (id : Id) (c : Consume) (t : SocketTicket) :
    Prop :=
  ∃ pre rest, acts = pre ++ .session id :: rest ∧ Found env s pre id c t ∧
    checkSession t c.now (run (step env) s pre).db = .ok ()

/-- and then its device active. -/
def Admitted (env : AuthEnv) (s : State) (acts : List Act) (id : Id) (c : Consume) (t : SocketTicket) :
    Prop :=
  ∃ pre rest d, acts = pre ++ .device id :: rest ∧ Checked env s pre id c t ∧
    findDevice t (run (step env) s pre).db = .ok d

theorem Arrived.snoc {acts : List Act} {id : Id} {c : Consume} (h : Arrived acts id c) (a : Act) :
    Arrived (acts ++ [a]) id c := by
  obtain ⟨pre, rest, authTicket, queryTicket, rfl, h⟩ := h
  exact ⟨pre, rest ++ [a], authTicket, queryTicket, by simp, h⟩

theorem Found.snoc {s : State} {acts : List Act} {id : Id} {c : Consume} {t : SocketTicket}
    (h : Found env s acts id c t) (a : Act) : Found env s (acts ++ [a]) id c t := by
  obtain ⟨pre, rest, rfl, h⟩ := h
  exact ⟨pre, rest ++ [a], by simp, h⟩

theorem Checked.snoc {s : State} {acts : List Act} {id : Id} {c : Consume} {t : SocketTicket}
    (h : Checked env s acts id c t) (a : Act) : Checked env s (acts ++ [a]) id c t := by
  obtain ⟨pre, rest, rfl, h⟩ := h
  exact ⟨pre, rest ++ [a], by simp, h⟩

theorem Admitted.snoc {s : State} {acts : List Act} {id : Id} {c : Consume} {t : SocketTicket}
    (h : Admitted env s acts id c t) (a : Act) : Admitted env s (acts ++ [a]) id c t := by
  obtain ⟨pre, rest, d, rfl, h⟩ := h
  exact ⟨pre, rest ++ [a], d, by simp, h⟩

/-- The socket was admitted with a ticket for the user and the device of `auth`. -/
def Authenticated (env : AuthEnv) (s : State) (acts : List Act) (id : Id) (auth : SocketAuth) : Prop :=
  ∃ c t, Admitted env s acts id c t ∧ authOf t = auth

/-- The room is that of the user or of the device the socket was admitted for. -/
def OwnRoom (env : AuthEnv) (s : State) (acts : List Act) (id : Id) (room : Room) : Prop :=
  ∃ auth, Authenticated env s acts id auth ∧
    (room = .user auth.userId ∨ room = .device auth.deviceId)

def PhaseTraced (env : AuthEnv) (s : State) (acts : List Act) (id : Id) : Phase → Prop
  | .arrived c => Arrived acts id c
  | .found c t => Found env s acts id c t
  | .active c t => Checked env s acts id c t
  | .ready c t _ => Admitted env s acts id c t
  | .consumed auth => Authenticated env s acts id auth
  | .joined auth => Authenticated env s acts id auth
  | .registered auth => Authenticated env s acts id auth
  | .done auth => Authenticated env s acts id auth
  | .refused => True

theorem PhaseTraced.snoc {s : State} {acts : List Act} {id : Id} {phase : Phase}
    (h : PhaseTraced env s acts id phase) (a : Act) : PhaseTraced env s (acts ++ [a]) id phase := by
  have hauth : ∀ auth, Authenticated env s acts id auth → Authenticated env s (acts ++ [a]) id auth := by
    intro auth h
    obtain ⟨c, t, h, hauth⟩ := h
    exact ⟨c, t, h.snoc a, hauth⟩
  cases phase with
  | arrived c => exact Arrived.snoc h a
  | found c t => exact Found.snoc h a
  | active c t => exact Checked.snoc h a
  | ready c t deviceId => exact Admitted.snoc h a
  | consumed auth => exact hauth auth h
  | joined auth => exact hauth auth h
  | registered auth => exact hauth auth h
  | done auth => exact hauth auth h
  | refused => trivial

theorem OwnRoom.snoc {s : State} {acts : List Act} {id : Id} {room : Room}
    (h : OwnRoom env s acts id room) (a : Act) : OwnRoom env s (acts ++ [a]) id room := by
  obtain ⟨auth, ⟨c, t, h, hauth⟩, hroom⟩ := h
  exact ⟨auth, ⟨c, t, h.snoc a, hauth⟩, hroom⟩

/-- The frame was sent to the room of a user or of a device the socket was admitted for, or it was
sent after the shutdown had begun. -/
def FrameTraced (env : AuthEnv) (s : State) (acts : List Act) (f : Frame) : Prop :=
  match f.room with
  | none => .shutdown ∈ acts
  | some room => OwnRoom env s acts f.socketId room

theorem FrameTraced.snoc {s : State} {acts : List Act} {f : Frame} (h : FrameTraced env s acts f)
    (a : Act) : FrameTraced env s (acts ++ [a]) f := by
  unfold FrameTraced at *
  split at h
  · exact List.mem_append_left _ h
  · exact h.snoc a

/-- Phases, rooms, fetched sockets and frames go back to admissions of the run. -/
structure Traced (env : AuthEnv) (s : State) (acts : List Act) (t : State) : Prop where
  phases : ∀ x ∈ t.sockets, PhaseTraced env s acts x.id x.phase
  rooms : ∀ x ∈ t.sockets, ∀ room ∈ x.rooms, OwnRoom env s acts x.id room
  kicks : ∀ k userId ids, t.kicks k = some (userId, ids) →
    ∀ id ∈ ids, OwnRoom env s acts id (.user userId)
  frames : ∀ f ∈ t.frames, FrameTraced env s acts f ∧ Addressed f
  shutdown : t.isShuttingDown = true → .shutdown ∈ acts

theorem mem_join {room r : Room} {x : Socket} (h : r ∈ (join room x).rooms) : r ∈ x.rooms ∨ r = room := by
  unfold join at h
  split at h
  · simpa using h
  · exact Or.inl h

/-- A moved socket has the phase its move reached and at most one room more. -/
theorem Moves.traced {s t : State} {acts : List Act} {a : Act} {x x' : Socket}
    (ht : t = run (step env) s acts) (hmove : Moves env t a x x')
    (hphase : PhaseTraced env s acts x.id x.phase)
    (hrooms : ∀ room ∈ x.rooms, OwnRoom env s acts x.id room) :
    PhaseTraced env s (acts ++ [a]) x.id x'.phase ∧
      ∀ room ∈ x'.rooms, OwnRoom env s (acts ++ [a]) x.id room := by
  have hkept : ∀ room ∈ x.rooms, OwnRoom env s (acts ++ [a]) x.id room :=
    fun room hroom => (hrooms room hroom).snoc a
  have hphase' := hphase.snoc a
  cases hmove with
  | left phase hp =>
      refine ⟨?_, fun room hroom => by cases hroom⟩
      rcases hp with rfl | rfl
      · exact hphase'
      · trivial
  | found c tk ha hx hfind =>
      rw [hx] at hphase
      refine ⟨⟨acts, [], by rw [ha], hphase, ?_⟩, hkept⟩
      rw [← ht]
      exact hfind
  | active c tk ha hx hcheck =>
      rw [hx] at hphase
      refine ⟨⟨acts, [], by rw [ha], hphase, ?_⟩, hkept⟩
      rw [← ht]
      exact hcheck
  | ready c tk d ha hx hdevice =>
      rw [hx] at hphase
      refine ⟨⟨acts, [], d, by rw [ha], hphase, ?_⟩, hkept⟩
      rw [← ht]
      exact hdevice
  | consumed c tk deviceId hx =>
      rw [hx] at hphase'
      exact ⟨⟨c, tk, hphase', rfl⟩, hkept⟩
  | joined auth hx =>
      rw [hx] at hphase'
      have hjoined : (join (.user auth.userId) { x with phase := .joined auth }).phase = .joined auth := by
        unfold join
        split <;> rfl
      rw [hjoined]
      refine ⟨hphase', ?_⟩
      intro room hroom
      rcases mem_join hroom with hroom | rfl
      · exact hkept room hroom
      · exact ⟨auth, hphase', Or.inl rfl⟩
  | registered auth hx =>
      rw [hx] at hphase'
      have hregistered : (join (.device auth.deviceId) { x with phase := .registered auth }).phase =
          .registered auth := by
        unfold join
        split <;> rfl
      rw [hregistered]
      refine ⟨hphase', ?_⟩
      intro room hroom
      rcases mem_join hroom with hroom | rfl
      · exact hkept room hroom
      · exact ⟨auth, hphase', Or.inr rfl⟩
  | done auth hx =>
      rw [hx] at hphase'
      exact ⟨hphase', hkept⟩

theorem Traced.snoc {s : State} {acts : List Act} (a : Act)
    (h : Traced env s acts (run (step env) s acts)) :
    Traced env s (acts ++ [a]) (step env (run (step env) s acts) a) := by
  have hphases := fun x hx => (h.phases x hx).snoc a
  have hrooms := fun x hx room hroom => (h.rooms x hx room hroom).snoc a
  have hkicks := fun k userId ids hk id hid => (h.kicks k userId ids hk id hid).snoc a
  have hframes := fun f hf => (h.frames f hf).imp_left fun hown => hown.snoc a
  have hemitted : ∀ frames : List Frame,
      (∀ f ∈ frames, Delivered (run (step env) s acts) f) →
      ∀ f ∈ (run (step env) s acts).frames ++ frames,
        FrameTraced env s (acts ++ [a]) f ∧ Addressed f := by
    intro frames hnew f hf
    rcases List.mem_append.mp hf with hf | hf
    · exact hframes f hf
    · obtain ⟨hsent, haddressed⟩ := hnew f hf
      refine ⟨?_, haddressed⟩
      unfold FrameTraced
      split at hsent
      · exact List.mem_append_left _ (h.shutdown hsent)
      · rename_i room _
        obtain ⟨x, hx, hid, hroom⟩ := hsent
        rw [hid]
        exact hrooms x hx room hroom
  have hshutdown : (step env (run (step env) s acts) a).isShuttingDown = true →
      .shutdown ∈ acts ++ [a] := by
    intro hshutting
    rcases step_isShuttingDown env (run (step env) s acts) a with hsame | ha
    · rw [hsame] at hshutting
      exact List.mem_append_left _ (h.shutdown hshutting)
    · rw [ha]
      exact List.mem_append_right _ List.mem_cons_self
  generalize htarget : step env (run (step env) s acts) a = t at hshutdown
  have heff := step_effect env (run (step env) s acts) a
  rw [htarget] at heff
  cases heff with
  | emits frames hs hk hf hroom =>
      refine ⟨by rw [hs]; exact hphases, by rw [hs]; exact hrooms, by rw [hk]; exact hkicks, ?_,
        hshutdown⟩
      rw [hf]
      exact hemitted frames hroom
  | arrives id authTicket queryTicket now frames ha hfresh hs hk hf hroom =>
      have hnew : ∀ x, x = arrive (run (step env) s acts).isShuttingDown id
          (extractTicket authTicket queryTicket) now →
          PhaseTraced env s (acts ++ [a]) id x.phase ∧ x.id = id ∧ x.rooms = [] := by
        intro x hx
        unfold arrive at hx
        split at hx
        · rename_i ticket hticket
          rw [hx]
          refine ⟨⟨acts, [], authTicket, queryTicket, by rw [ha], ?_⟩, rfl, rfl⟩
          exact Common.truthy_some hticket
        · rw [hx]
          exact ⟨trivial, rfl, rfl⟩
      obtain ⟨hphase, hid, hempty⟩ := hnew _ rfl
      refine ⟨?_, ?_, by rw [hk]; exact hkicks, by rw [hf]; exact hemitted frames hroom, hshutdown⟩
      · intro x hx
        rw [hs] at hx
        rcases List.mem_append.mp hx with hx | hx
        · exact hphases x hx
        · obtain rfl := List.mem_singleton.mp hx
          rw [hid]
          exact hphase
      · intro x hx
        rw [hs] at hx
        rcases List.mem_append.mp hx with hx | hx
        · exact hrooms x hx
        · obtain rfl := List.mem_singleton.mp hx
          rw [hempty]
          intro room hroom
          cases hroom
  | moves x x' frames hx hid hmove hs hk hf hroom =>
      obtain ⟨hphase, hmoved⟩ := hmove.traced rfl (h.phases x hx) (h.rooms x hx)
      refine ⟨?_, ?_, by rw [hk]; exact hkicks, ?_, hshutdown⟩
      · intro y hy
        rw [hs] at hy
        obtain ⟨z, hz, rfl⟩ := Rows.mem_updateMany.mp hy
        split
        · rw [hid]
          exact hphase
        · exact hphases z hz
      · intro y hy
        rw [hs] at hy
        obtain ⟨z, hz, rfl⟩ := Rows.mem_updateMany.mp hy
        split
        · rw [hid]
          exact hmoved
        · exact hrooms z hz
      · rw [hf]
        exact hemitted frames hroom
  | fetched k userId ha hs hk hf =>
      refine ⟨by rw [hs]; exact hphases, by rw [hs]; exact hrooms, ?_, by rw [hf]; exact hframes,
        hshutdown⟩
      intro k' userId' ids hk' id hid
      rw [hk] at hk'
      by_cases heq : k' = k
      · subst heq
        rw [Function.update_self] at hk'
        cases hk'
        obtain ⟨x, hx, rfl⟩ := List.mem_map.mp hid
        obtain ⟨hx, hroom⟩ := List.mem_filter.mp hx
        exact hrooms x hx _ (List.contains_iff_mem.mp hroom)
      · rw [Function.update_of_ne heq] at hk'
        exact hkicks k' userId' ids hk' id hid
  | kicked k reason userId ids ha hkick hs hk hf =>
      refine ⟨?_, ?_, ?_, ?_, hshutdown⟩
      · intro y hy
        rw [hs] at hy
        obtain ⟨z, hz, rfl⟩ := Rows.mem_updateMany.mp hy
        split
        · exact hphases z hz
        · exact hphases z hz
      · intro y hy room hroom
        rw [hs] at hy
        obtain ⟨z, hz, rfl⟩ := Rows.mem_updateMany.mp hy
        split at hroom
        · cases hroom
        · rename_i hne
          rw [if_neg hne]
          exact hrooms z hz room hroom
      · intro k' userId' ids' hk' id hid
        rw [hk] at hk'
        by_cases heq : k' = k
        · subst heq
          rw [Function.update_self] at hk'
          cases hk'
        · rw [Function.update_of_ne heq] at hk'
          exact hkicks k' userId' ids' hk' id hid
      · intro f hf'
        rw [hf] at hf'
        rcases List.mem_append.mp hf' with hf' | hf'
        · exact hframes f hf'
        · obtain ⟨x, hx, rfl⟩ := List.mem_map.mp hf'
          obtain ⟨hx, hcond⟩ := List.mem_filter.mp hx
          have hid : x.id ∈ ids := by
            simp only [Bool.and_eq_true] at hcond
            exact List.contains_iff_mem.mp hcond.1
          exact ⟨hkicks k userId ids hkick x.id hid, userId, rfl⟩

theorem run_traced (env : AuthEnv) (db : Db) (acts : List Act) :
    Traced env (start db) acts (run (step env) (start db) acts) := by
  refine run_history (I := Traced env (start db)) ?_ ?_ acts
  · refine ⟨?_, ?_, ?_, ?_, ?_⟩
    · intro x hx
      cases hx
    · intro x hx
      cases hx
    · intro k userId ids hk
      cases hk
    · intro f hf
      cases hf
    · intro h
      cases h
  · intro pre a h
    exact h.snoc a

/-- The ticket is stored under the hash, unused and not expired. -/
def TicketUsable (hash : String) (now : Time) (t : SocketTicket) (db : Db) : Prop :=
  t ∈ db.socketTickets ∧ t.tokenHash = hash ∧ t.consumedAt = none ∧ now < t.expiresAt

/-- The session of the ticket is stored, not revoked and not expired. -/
def SessionLive (t : SocketTicket) (now : Time) (db : Db) : Prop :=
  ∃ session ∈ db.refreshTokens, session.id = t.sessionId ∧ session.revokedAt = none ∧
    now < session.expiresAt

/-- The device of the ticket is an active one of its user. -/
def DeviceActive (t : SocketTicket) (db : Db) : Prop :=
  ∃ d ∈ db.devices, d.id = t.deviceId ∧ d.userId = t.userId ∧ d.active = true

theorem findTicket_usable {hash : String} {now : Time} {t : SocketTicket} {db : Db}
    (h : findTicket hash now db = .ok t) : TicketUsable hash now t db := by
  obtain ⟨hmem, hhash, hfree⟩ := Tickets.findTicket_ok h
  refine ⟨hmem, hhash, hfree, ?_⟩
  unfold findTicket at h
  split at h
  · cases h
  · split at h
    · cases h
    · rename_i hrefused
      obtain rfl := Except.ok.inj h
      by_contra hexpired
      exact hrefused (by simp [not_lt.mp hexpired])

theorem checkSession_live {t : SocketTicket} {now : Time} {db : Db}
    (h : checkSession t now db = .ok ()) : SessionLive t now db := by
  unfold checkSession at h
  split at h
  · cases h
  · rename_i session hfind
    have hlive := Tx.ensure_ok.mp h
    simp only [Bool.not_eq_true', Bool.or_eq_false_iff, decide_eq_false_iff_not, not_le] at hlive
    refine ⟨session, List.mem_of_find?_eq_some hfind, by simpa using List.find?_some hfind, ?_, hlive.2⟩
    simpa using hlive.1

theorem findDevice_active {t : SocketTicket} {db : Db} {d : Device} (h : findDevice t db = .ok d) :
    DeviceActive t db := by
  unfold findDevice at h
  split at h
  · cases h
  · rename_i device hfind
    have hkey := List.find?_some hfind
    simp only [Bool.and_eq_true, beq_iff_eq] at hkey
    exact ⟨device, List.mem_of_find?_eq_some hfind, hkey.1.1, hkey.1.2, hkey.2⟩

/-- The socket has presented a ticket, which was usable when it was looked up; then its session was
live, and then its device was an active one of its user. `room` is that of the user or of the
device. -/
def Proven (env : AuthEnv) (db : Db) (acts : List Act) (socketId : Id) (room : Room) : Prop :=
  ∃ p₁ p₂ p₃ p₄ p₅ authTicket queryTicket ticket now t,
    acts = p₁ ++ .connect socketId authTicket queryTicket now :: p₂ ++ .find socketId :: p₃ ++
      .session socketId :: p₄ ++ .device socketId :: p₅ ∧
    extractTicket authTicket queryTicket = some ticket ∧
    TicketUsable (env.sha256 ticket) now t (run (step env) (start db)
      (p₁ ++ .connect socketId authTicket queryTicket now :: p₂)).db ∧
    SessionLive t now (run (step env) (start db)
      (p₁ ++ .connect socketId authTicket queryTicket now :: p₂ ++ .find socketId :: p₃)).db ∧
    DeviceActive t (run (step env) (start db)
      (p₁ ++ .connect socketId authTicket queryTicket now :: p₂ ++ .find socketId :: p₃ ++
        .session socketId :: p₄)).db ∧
    (room = .user t.userId ∨ room = .device t.deviceId)

theorem OwnRoom.proven {db : Db} {acts : List Act} {socketId : Id} {room : Room}
    (h : OwnRoom env (start db) acts socketId room) : Proven env db acts socketId room := by
  obtain ⟨_, ⟨c, t, hadmitted, rfl⟩, hroom⟩ := h
  obtain ⟨_, p₅, d, rfl, ⟨_, p₄, rfl, ⟨_, p₃, rfl, harrived, hticket⟩, hsession⟩, hdevice⟩ := hadmitted
  obtain ⟨p₁, p₂, authTicket, queryTicket, rfl, hextract⟩ := harrived
  exact ⟨p₁, p₂, p₃, p₄, p₅, authTicket, queryTicket, c.ticket, c.now, t, rfl, hextract,
    findTicket_usable hticket, checkSession_live hsession, findDevice_active hdevice, hroom⟩

/-- In every run, whatever the interleaving, a frame that a socket receives is a notice of the
shutdown, sent to no room after the shutdown has begun, or it stands in the room its event is
addressed to, and the socket has proven that room its own. -/
theorem frames_reach_owner (env : AuthEnv) (db : Db) (acts : List Act) :
    ∀ f ∈ (run (step env) (start db) acts).frames,
      (∃ message, f.event = .serverShutdown message ∧ f.room = none ∧ .shutdown ∈ acts) ∨
        ((∀ message, f.event ≠ .serverShutdown message) ∧ Addressed f ∧
          ∃ room, f.room = some room ∧ Proven env db acts f.socketId room) := by
  intro f hf
  obtain ⟨htraced, haddressed⟩ := (run_traced env db acts).frames f hf
  unfold FrameTraced at htraced
  cases hroom : f.room with
  | none =>
      rw [hroom] at htraced
      refine Or.inl ?_
      cases hevent : f.event with
      | serverShutdown message => exact ⟨message, rfl, rfl, htraced⟩
      | _ => simp [Addressed, hevent, hroom] at haddressed
  | some room =>
      rw [hroom] at htraced
      refine Or.inr ⟨?_, haddressed, room, rfl, htraced.proven⟩
      intro message hevent
      simp [Addressed, hevent, hroom] at haddressed

/-- A connection that is announced to its own room. -/
def oneSocket : List Act :=
  [.connect "a" (some "ticket-1") none 1000, .find "a", .session "a", .device "a", .commit "a",
   .enter "a", .enterDevice "a", .announce "a"]

/-- The shutdown begins, and another socket comes without a ticket. -/
def lateArrival : List Act :=
  oneSocket ++ [.shutdown, .connect "b" none none 1001, .notifyShutdown]

theorem announcement_owned :
    (∃ f ∈ (run (step sampleEnv) (start Tickets.sampleDb) lateArrival).frames,
      f.socketId = "a" ∧ Addressed f ∧
        Proven sampleEnv Tickets.sampleDb lateArrival "a" (.user "alice")) ∧
    (∃ f ∈ (run (step sampleEnv) (start Tickets.sampleDb) lateArrival).frames,
      f.socketId = "b" ∧ ∃ message, f.event = .serverShutdown message ∧ .shutdown ∈ lateArrival) := by
  have howned := frames_reach_owner sampleEnv Tickets.sampleDb lateArrival
  have hsent : ∃ f ∈ (run (step sampleEnv) (start Tickets.sampleDb) lateArrival).frames,
      f.socketId = "a" ∧ f.room = some (.user "alice") := by decide
  have hnotice : ∃ f ∈ (run (step sampleEnv) (start Tickets.sampleDb) lateArrival).frames,
      f.socketId = "b" ∧ f.room = none := by decide
  constructor
  · obtain ⟨f, hf, hid, hroom⟩ := hsent
    rcases howned f hf with ⟨_, _, hnone, _⟩ | ⟨_, haddressed, room, hsome, hproven⟩
    · rw [hroom] at hnone
      cases hnone
    · rw [hroom] at hsome
      cases hsome
      exact ⟨f, hf, hid, haddressed, hid ▸ hproven⟩
  · obtain ⟨f, hf, hid, hroom⟩ := hnotice
    rcases howned f hf with ⟨message, hevent, _, hshutdown⟩ | ⟨_, _, room, hsome, _⟩
    · exact ⟨f, hf, hid, message, hevent, hshutdown⟩
    · rw [hroom] at hsome
      cases hsome

end Birgap.Realtime.Gateway
