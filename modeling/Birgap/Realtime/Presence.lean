import Birgap.Lib.ExpiringSets
import Birgap.Lib.Run
import Birgap.Schema

/-!
# Presence of devices

The gateway keeps the sockets of a device in a Redis set that expires, next to a key for each
socket that expires earlier. `handleConnection` registers a socket and then prunes the sets of
its user and device; `handleDisconnect` takes the socket out again. Every Redis command is a
step, and the handlers of other sockets run in between. Nothing renews a registration, so
presence holds as long as no set of a connected device runs out, no prune asks about a
connected socket whose key has run out, and no socket is added once its removal has run.
-/
namespace Birgap.Realtime.Presence

set_option autoImplicit false

open Birgap.Lib Birgap.Lib.Run Birgap.Lib.ExpiringSets

/-! ## Redis -/

/-- `user:…:sockets` and `device:…:sockets`. -/
inductive Key where
  | user (userId : Id)
  | device (deviceId : Id)
  deriving DecidableEq

/-- The sets, and for each `socket:…` key when it expires. -/
structure Redis where
  sets : Sets Key Id
  sockets : Id → Option Nat

/-- The commands that write; times to live in seconds. -/
inductive Command where
  | sadd (key : Key) (socketId : Id)
  | expire (key : Key) (seconds : Nat)
  | setEx (socketId : Id) (seconds : Nat)
  | srem (key : Key) (socketId : Id)
  | del (socketId : Id)
  deriving DecidableEq

def Command.exec (now : Nat) (r : Redis) : Command → Redis
  | .sadd key socketId => { r with sets := ExpiringSets.sadd now key socketId r.sets }
  | .expire key seconds => { r with sets := ExpiringSets.expire now key (seconds * 1000) r.sets }
  | .setEx socketId seconds =>
      { r with sockets := Function.update r.sockets socketId (some (now + seconds * 1000)) }
  | .srem key socketId => { r with sets := ExpiringSets.srem now key socketId r.sets }
  | .del socketId => { r with sockets := Function.update r.sockets socketId none }

/-- EXISTS on the key of a socket. -/
def Redis.exists_ (now : Nat) (r : Redis) (socketId : Id) : Bool :=
  (r.sockets socketId).any (decide <| now < ·)

/-- The pipeline of `setDeviceSocket`. -/
def setDeviceSocket (userId deviceId socketId : Id) : List Command :=
  [.sadd (.user userId) socketId, .sadd (.device deviceId) socketId, .expire (.user userId) 7200,
    .expire (.device deviceId) 7200, .setEx socketId 3600]

/-- The pipeline of `removeDeviceSocket`. -/
def removeDeviceSocket (userId deviceId socketId : Id) : List Command :=
  [.srem (.user userId) socketId, .srem (.device deviceId) socketId, .del socketId]

/-! ## The gateway -/

/-- Where `handleConnection` stands. `registering n` has sent `n` commands of its pipeline;
what follows is `pruneStaleSockets`, which collects the members with their sets and the ones
whose key is gone. -/
inductive Connection where
  | authenticating
  | registering (n : Nat)
  | listingUser
  | listingDevice (userSockets : List Id)
  | asking (sockets stale : List (Key × Id))
  | removing (stale : List (Key × Id))
  | ended

/-- A socket: `client.data`, whether it is open, and where its two handlers stand. `leaving`
counts the commands that `handleDisconnect` has sent. -/
structure Client where
  data : Option (Id × Id) := none
  connected : Bool := true
  connection : Connection := .authenticating
  leaving : Option Nat := none

structure State where
  now : Nat
  redis : Redis
  clients : Id → Option Client

inductive Act where
  | tick (ms : Nat)
  | connect (socketId : Id)
  | authenticate (socketId userId deviceId : Id)
  | refuse (socketId : Id)
  | advance (socketId : Id)
  | disconnect (socketId : Id)
  | leave (socketId : Id)

def State.put (s : State) (socketId : Id) (c : Client) : State :=
  { s with clients := Function.update s.clients socketId (some c) }

def State.exec (s : State) (command : Command) : State :=
  { s with redis := command.exec s.now s.redis }

/-- The next command of `handleConnection` after `consumeSocketTicket`. -/
def advance (s : State) (socketId : Id) (c : Client) (userId deviceId : Id) : State :=
  let goOn (s : State) (connection : Connection) := s.put socketId { c with connection }
  match c.connection with
  | .authenticating => s
  | .registering n =>
      match (setDeviceSocket userId deviceId socketId)[n]? with
      | some command => goOn (s.exec command) (.registering (n + 1))
      | none => goOn s .listingUser
  | .listingUser => goOn s (.listingDevice (members s.now s.redis.sets (.user userId)))
  | .listingDevice userSockets =>
      let deviceSockets := members s.now s.redis.sets (.device deviceId)
      goOn s (.asking (userSockets.map (.user userId, ·) ++
        deviceSockets.map (.device deviceId, ·)) [])
  | .asking [] stale => goOn s (.removing stale)
  | .asking ((key, id) :: rest) stale =>
      goOn s (.asking rest (if s.redis.exists_ s.now id then stale else stale ++ [(key, id)]))
  | .removing [] => goOn s .ended
  | .removing ((key, id) :: rest) => goOn (s.exec (.srem key id)) (.removing rest)
  | .ended => s

def step (s : State) : Act → State
  | .tick ms => { s with now := s.now + ms }
  | .connect socketId =>
      match s.clients socketId with
      | none => s.put socketId {}
      | some _ => s
  | .authenticate socketId userId deviceId =>
      match s.clients socketId with
      | some c =>
          match c.connection with
          -- the socket may be gone already when the ticket has been consumed
          | .authenticating =>
              s.put socketId { c with data := some (userId, deviceId), connection := .registering 0 }
          | _ => s
      | none => s
  | .refuse socketId =>
      match s.clients socketId with
      | some c =>
          match c.connection with
          | .authenticating => s.put socketId { c with connected := false, connection := .ended }
          | _ => s
      | none => s
  | .advance socketId =>
      match s.clients socketId with
      | some c =>
          match c.data with
          | some (userId, deviceId) => advance s socketId c userId deviceId
          | none => s
      | none => s
  | .disconnect socketId =>
      match s.clients socketId with
      | some c =>
          if c.connected then
            s.put socketId { c with connected := false, leaving := c.data.map fun _ => 0 }
          else s
      | none => s
  | .leave socketId =>
      match s.clients socketId with
      | some c =>
          match c.data, c.leaving with
          | some (userId, deviceId), some n =>
              match (removeDeviceSocket userId deviceId socketId)[n]? with
              | some command => (s.exec command).put socketId { c with leaving := some (n + 1) }
              | none => s
          | _, _ => s
      | none => s

def start (now : Nat) : State :=
  { now, redis := { sets := fun _ => none, sockets := fun _ => none }, clients := fun _ => none }

def getDevicesWithSockets (s : State) (deviceIds : List Id) : List Id :=
  deviceIds.filter fun id => decide (0 < (members s.now s.redis.sets (.device id)).length)

/-- The devices that a push goes to. -/
def filterOnlineDevices (s : State) (devices : List Id) : List Id :=
  devices.filter fun id => !(getDevicesWithSockets s devices).contains id

/-! ## What is claimed of a state -/

def Connection.registered : Connection → Bool
  | .authenticating => false
  | .registering _ => false
  | _ => true

/-- Authenticated, registered and still open. -/
def Client.online (c : Client) : Prop := c.connected = true ∧ c.connection.registered = true

/-- Closed, with its `handleDisconnect` at its end. -/
def Client.gone (c : Client) : Prop := c.connected = false ∧ ∀ n, c.leaving = some n → 3 ≤ n

structure Present (s : State) : Prop where
  online : ∀ socketId c userId deviceId, s.clients socketId = some c →
    c.data = some (userId, deviceId) → c.online → ∀ deviceIds, deviceId ∈ deviceIds →
      deviceId ∈ getDevicesWithSockets s deviceIds ∧ deviceId ∉ filterOnlineDevices s deviceIds
  offline : ∀ deviceId,
    (∀ socketId c userId, s.clients socketId = some c → c.data = some (userId, deviceId) → c.gone) →
      ∀ deviceIds, deviceId ∉ getDevicesWithSockets s deviceIds

/-- What a prune has still to ask about. -/
def Connection.sockets : Connection → List (Key × Id)
  | .asking sockets _ => sockets
  | _ => []

/-- What a prune has found or is removing. -/
def Connection.stale : Connection → List (Key × Id)
  | .asking _ stale => stale
  | .removing stale => stale
  | _ => []

/-- The SADD of the device's set has run. -/
def Connection.added : Connection → Bool
  | .authenticating => false
  | .registering n => decide (2 ≤ n)
  | _ => true

/-- The SREM of the device's set is still to come. -/
def Client.willLeave (c : Client) : Prop := ∃ n, c.leaving = some n ∧ n < 2

/-- What a step must find. -/
def Timely (s : State) : Act → Prop
  | .tick ms => ∀ socketId c userId deviceId, s.clients socketId = some c →
      c.data = some (userId, deviceId) → c.connected = true → c.connection.added = true →
        (s.redis.sets (.device deviceId)).all (·.lasts (s.now + ms)) = true
  | .advance socketId => ∀ c, s.clients socketId = some c →
      match c.connection with
      | .registering 1 => c.connected = true ∨ c.willLeave
      | .asking ((.device _, id) :: _) _ => ∀ asked, s.clients id = some asked →
          asked.connected = true → s.redis.exists_ s.now id = true
      | _ => True
  | _ => True

/-! ## What the sets hold -/

/-- The sockets of a device, as Redis has them. -/
abbrev State.listed (s : State) (deviceId : Id) : List Id :=
  members s.now s.redis.sets (.device deviceId)

structure Inv (s : State) : Prop where
  listed : ∀ socketId c userId deviceId, s.clients socketId = some c →
    c.data = some (userId, deviceId) → c.connected = true → c.connection.added = true →
      socketId ∈ s.listed deviceId
  owned : ∀ socketId deviceId, socketId ∈ s.listed deviceId →
    ∃ c userId, s.clients socketId = some c ∧ c.data = some (userId, deviceId) ∧
      (c.connected = true ∨ c.willLeave)
  asked : ∀ pruner c deviceId socketId, s.clients pruner = some c →
    (.device deviceId, socketId) ∈ c.connection.sockets → ∃ c, s.clients socketId = some c
  stale : ∀ pruner c deviceId socketId, s.clients pruner = some c →
    (.device deviceId, socketId) ∈ c.connection.stale →
      ∃ c, s.clients socketId = some c ∧ c.connected = false
  open_ : ∀ socketId c, s.clients socketId = some c → c.connected = true → c.leaving = none
  fresh : ∀ socketId c, s.clients socketId = some c → c.connection = .authenticating → c.data = none

theorem mem_exec {s : State} {command : Command} {socketId deviceId : Id}
    (hpos : ∀ key, command ≠ .expire key 0) :
    socketId ∈ (s.exec command).listed deviceId ↔
      command = .sadd (.device deviceId) socketId ∨
        (socketId ∈ s.listed deviceId ∧ command ≠ .srem (.device deviceId) socketId) := by
  cases command with
  | sadd key id =>
      show socketId ∈ members s.now (sadd s.now key id s.redis.sets) _ ↔ _
      rw [mem_sadd]
      simp [eq_comm]
  | srem key id =>
      show socketId ∈ members s.now (srem s.now key id s.redis.sets) _ ↔ _
      rw [mem_srem]
      simp [eq_comm]
  | expire key seconds =>
      have hms : 0 < seconds * 1000 := by
        have hne : seconds ≠ 0 := fun h => hpos key (by rw [h])
        omega
      show socketId ∈ members s.now (expire s.now key (seconds * 1000) s.redis.sets) _ ↔ _
      rw [members_expire hms]
      simp
  | setEx id seconds => simp [State.exec, Command.exec]
  | del id => simp [State.exec, Command.exec]

theorem put_of_ne (s : State) {id x : Id} (hx : x ≠ id) (c : Client) :
    (s.put id c).clients x = s.clients x :=
  Function.update_of_ne hx _ _

/-- What holds of every socket, and of the new state of one of them, holds of every socket then. -/
theorem put_clients {s : State} {id : Id} {c' : Client} {P : Id → Client → Prop}
    (hs : ∀ x c, s.clients x = some c → P x c) (hc' : P id c') :
    ∀ x c, (s.put id c').clients x = some c → P x c := by
  intro x c hc
  by_cases hx : x = id
  · subst hx
    have hself : (s.put x c').clients x = some c' := Function.update_self ..
    obtain rfl := Option.some.inj (hself.symm.trans hc)
    exact hc'
  · exact hs x c ((put_of_ne s hx c').symm.trans hc)

section Steps

variable {s : State} (h : Inv s)
include h

/-- A command adds only a socket that will be taken out again, and removes only a closed one. -/
theorem Inv.exec {command : Command} (hpos : ∀ key, command ≠ .expire key 0)
    (hadd : ∀ deviceId id, command = .sadd (.device deviceId) id → ∃ c userId,
      s.clients id = some c ∧ c.data = some (userId, deviceId) ∧ (c.connected = true ∨ c.willLeave))
    (hrem : ∀ deviceId id c, command = .srem (.device deviceId) id → s.clients id = some c →
      c.connected = false) : Inv (s.exec command) := by
  refine { h with listed := ?_, owned := ?_ }
  · intro id c userId deviceId hc hdata hconn hadded
    refine (mem_exec hpos).mpr (.inr ⟨h.listed id c userId deviceId hc hdata hconn hadded, ?_⟩)
    intro hsrem
    have hclosed := hrem deviceId id c hsrem hc
    rw [hconn] at hclosed
    cases hclosed
  · intro id deviceId hmem
    rcases (mem_exec hpos).mp hmem with hsadd | ⟨hold, _⟩
    · exact hadd deviceId id hsadd
    · exact h.owned id deviceId hold

/-- One socket moves on and Redis stays. -/
theorem Inv.put {id : Id} {c' : Client}
    (hlisted : ∀ userId deviceId, c'.data = some (userId, deviceId) → c'.connected = true →
      c'.connection.added = true → id ∈ s.listed deviceId)
    (howned : ∀ deviceId, id ∈ s.listed deviceId → ∃ userId, c'.data = some (userId, deviceId) ∧
      (c'.connected = true ∨ c'.willLeave))
    (hasked : ∀ deviceId x, (.device deviceId, x) ∈ c'.connection.sockets →
      ∃ c, s.clients x = some c)
    (hstale : ∀ deviceId x, (.device deviceId, x) ∈ c'.connection.stale →
      ∃ c, s.clients x = some c ∧ c.connected = false)
    (hclosed : ∀ c, s.clients id = some c → c.connected = false → c'.connected = false)
    (hopen : c'.connected = true → c'.leaving = none)
    (hfresh : c'.connection = .authenticating → c'.data = none) : Inv (s.put id c') := by
  have hself : (s.put id c').clients id = some c' := Function.update_self ..
  have hthere : ∀ x, (∃ c, s.clients x = some c) → ∃ c, (s.put id c').clients x = some c := by
    rintro x ⟨c, hc⟩
    by_cases hx : x = id
    · exact ⟨c', hx ▸ hself⟩
    · exact ⟨c, (put_of_ne s hx c').trans hc⟩
  have hgone : ∀ x, (∃ c, s.clients x = some c ∧ c.connected = false) →
      ∃ c, (s.put id c').clients x = some c ∧ c.connected = false := by
    rintro x ⟨c, hc, hconn⟩
    by_cases hx : x = id
    · subst hx
      exact ⟨c', hself, hclosed c hc hconn⟩
    · exact ⟨c, (put_of_ne s hx c').trans hc, hconn⟩
  constructor
  · intro x c userId deviceId hc
    refine put_clients (P := fun x c => c.data = some (userId, deviceId) → c.connected = true →
      c.connection.added = true → x ∈ s.listed deviceId) ?_ (hlisted userId deviceId) x c hc
    exact fun y cy hy => h.listed y cy userId deviceId hy
  · intro x deviceId hmem
    by_cases hx : x = id
    · subst hx
      obtain ⟨userId, hdata, hstays⟩ := howned deviceId hmem
      exact ⟨c', userId, hself, hdata, hstays⟩
    · obtain ⟨c, userId, hc, hdata, hstays⟩ := h.owned x deviceId hmem
      exact ⟨c, userId, (put_of_ne s hx c').trans hc, hdata, hstays⟩
  · intro pruner c deviceId x hc hmem
    apply hthere x
    exact put_clients (P := fun _ c => (.device deviceId, x) ∈ c.connection.sockets →
      ∃ c, s.clients x = some c) (fun y cy hy => h.asked y cy deviceId x hy)
      (hasked deviceId x) pruner c hc hmem
  · intro pruner c deviceId x hc hmem
    apply hgone x
    exact put_clients (P := fun _ c => (.device deviceId, x) ∈ c.connection.stale →
      ∃ c, s.clients x = some c ∧ c.connected = false) (fun y cy hy => h.stale y cy deviceId x hy)
      (hstale deviceId x) pruner c hc hmem
  · exact put_clients (P := fun _ c => c.connected = true → c.leaving = none) h.open_ hopen
  · exact put_clients (P := fun _ c => c.connection = .authenticating → c.data = none) h.fresh hfresh

/-- A socket that is on no list, and has not begun to prune, moves on. -/
theorem Inv.put_unlisted {id : Id} {c' : Client} (hunlisted : ∀ deviceId, id ∉ s.listed deviceId)
    (hoff : c'.connected = true → c'.connection.added = false)
    (hsockets : c'.connection.sockets = []) (hstale : c'.connection.stale = [])
    (hclosed : ∀ c, s.clients id = some c → c.connected = false → c'.connected = false)
    (hopen : c'.connected = true → c'.leaving = none)
    (hfresh : c'.connection = .authenticating → c'.data = none) : Inv (s.put id c') := by
  refine h.put ?_ (fun deviceId hmem => absurd hmem (hunlisted deviceId)) ?_ ?_ hclosed hopen hfresh
  · intro _ _ _ hconn hadded
    rw [hoff hconn] at hadded
    cases hadded
  · intro deviceId x hx
    rw [hsockets] at hx
    cases hx
  · intro deviceId x hx
    rw [hstale] at hx
    cases hx

/-- `handleConnection` goes on to its next command. -/
theorem Inv.goOn {id : Id} {c : Client} (hc : s.clients id = some c) {connection : Connection}
    (hadded : ∀ userId deviceId, c.data = some (userId, deviceId) → c.connected = true →
      connection.added = true → id ∈ s.listed deviceId)
    (hasked : ∀ deviceId x, (.device deviceId, x) ∈ connection.sockets →
      ∃ c, s.clients x = some c)
    (hstale : ∀ deviceId x, (.device deviceId, x) ∈ connection.stale →
      ∃ c, s.clients x = some c ∧ c.connected = false)
    (hleft : connection ≠ .authenticating := by simp) :
    Inv (s.put id { c with connection }) := by
  apply h.put hadded
  · intro deviceId hmem
    obtain ⟨x, userId, hx, hdata, hstays⟩ := h.owned id deviceId hmem
    obtain rfl := Option.some.inj (hc.symm.trans hx)
    exact ⟨userId, hdata, hstays⟩
  · exact hasked
  · exact hstale
  · intro x hx hconn
    obtain rfl := Option.some.inj (hc.symm.trans hx)
    exact hconn
  · exact h.open_ id c hc
  · exact fun hconnection => absurd hconnection hleft

/-- The socket is on its list already. -/
theorem Inv.goOn_added {id : Id} {c : Client} (hc : s.clients id = some c)
    (hadded : c.connection.added = true) {connection : Connection}
    (hasked : ∀ deviceId x, (.device deviceId, x) ∈ connection.sockets →
      ∃ c, s.clients x = some c)
    (hstale : ∀ deviceId x, (.device deviceId, x) ∈ connection.stale →
      ∃ c, s.clients x = some c ∧ c.connected = false)
    (hleft : connection ≠ .authenticating := by simp) :
    Inv (s.put id { c with connection }) :=
  h.goOn hc (fun userId deviceId hdata hconn _ => h.listed id c userId deviceId hc hdata hconn hadded)
    hasked hstale hleft

/-- The registration: the second command lists the socket, the others leave the lists alone. -/
theorem Inv.register {id userId deviceId : Id} {c : Client} (hc : s.clients id = some c)
    (hdata : c.data = some (userId, deviceId)) {n : Nat} (hn : c.connection = .registering n)
    {command : Command} (hcommand : (setDeviceSocket userId deviceId id)[n]? = some command)
    (hstays : n = 1 → c.connected = true ∨ c.willLeave) :
    Inv ((s.exec command).put id { c with connection := .registering (n + 1) }) := by
  have hmem := List.mem_of_getElem? hcommand
  have hpos : ∀ key, command ≠ .expire key 0 := by
    rintro key rfl
    simp [setDeviceSocket] at hmem
  have hrem : ∀ key x, command ≠ .srem key x := by
    rintro key x rfl
    simp [setDeviceSocket] at hmem
  have hsadd : ∀ d x, command = .sadd (.device d) x → n = 1 ∧ d = deviceId ∧ x = id := by
    rintro d x rfl
    rcases n with _ | _ | n
    · cases hcommand
    · cases hcommand
      exact ⟨rfl, rfl, rfl⟩
    · have hrest : .sadd (.device d) x ∈ [Command.expire (.user userId) 7200,
          .expire (.device deviceId) 7200, .setEx id 3600] := List.mem_of_getElem? hcommand
      simp at hrest
  have hexec : Inv (s.exec command) := by
    apply h.exec hpos
    · intro d x hd
      obtain ⟨hn, rfl, rfl⟩ := hsadd d x hd
      exact ⟨c, userId, hc, hdata, hstays hn⟩
    · intro d x _ hd _
      exact absurd hd (hrem (.device d) x)
  apply hexec.goOn hc
  · intro u d hd hconn hadded
    obtain ⟨rfl, rfl⟩ : userId = u ∧ deviceId = d := by simpa [hdata] using hd
    by_cases hfirst : n = 1
    · subst hfirst
      cases hcommand
      exact (mem_exec hpos).mpr (.inl rfl)
    · have hbefore : c.connection.added = true := by
        simp only [hn, Connection.added, decide_eq_true_eq] at hadded ⊢
        omega
      exact hexec.listed id c userId deviceId hc hdata hconn hbefore
  · intro d x hx
    cases hx
  · intro d x hx
    cases hx

/-- A prune asks only about sockets it has seen, and finds stale only closed ones. -/
theorem Inv.advance {id userId deviceId : Id} {c : Client} (hc : s.clients id = some c)
    (hdata : c.data = some (userId, deviceId)) (hok : Timely s (.advance id)) :
    Inv (advance s id c userId deviceId) := by
  have htimely := hok c hc
  unfold Presence.advance
  cases hconnection : c.connection with
  | authenticating => exact h
  | registering n =>
      dsimp only
      split
      · rename_i command hcommand
        apply h.register hc hdata hconnection hcommand
        rintro rfl
        simpa [hconnection] using htimely
      · rename_i hend
        have hn : 2 ≤ n := by
          have hlen := List.getElem?_eq_none_iff.mp hend
          simp only [setDeviceSocket, List.length_cons, List.length_nil] at hlen
          omega
        have hadded : c.connection.added = true := by simpa [hconnection, Connection.added] using hn
        exact h.goOn_added hc hadded
          (fun _ _ hx => by cases hx) (fun _ _ hx => by cases hx)
  | listingUser =>
      have hadded : c.connection.added = true := by rw [hconnection]; rfl
      exact h.goOn_added hc hadded
        (fun _ _ hx => by cases hx) (fun _ _ hx => by cases hx)
  | listingDevice userSockets =>
      have hadded : c.connection.added = true := by rw [hconnection]; rfl
      apply h.goOn_added hc hadded
      · intro d x hx
        rcases List.mem_append.mp hx with huser | hdevice
        · simp at huser
        · obtain ⟨y, hy, hkey⟩ := List.mem_map.mp hdevice
          cases hkey
          obtain ⟨cy, _, hcy, _⟩ := h.owned x deviceId hy
          exact ⟨cy, hcy⟩
      · intro _ _ hx
        cases hx
  | asking sockets stale =>
      have hadded : c.connection.added = true := by rw [hconnection]; rfl
      have hasked := fun d x => h.asked id c d x hc
      have hstale := fun d x => h.stale id c d x hc
      rw [hconnection] at hasked hstale
      cases sockets with
      | nil =>
          exact h.goOn_added hc hadded
            (fun _ _ hx => by cases hx) hstale
      | cons pair rest =>
          obtain ⟨key, x⟩ := pair
          apply h.goOn_added hc hadded
          · intro d y hy
            exact hasked d y (List.mem_cons_of_mem _ hy)
          · intro d y hy
            cases hex : s.redis.exists_ s.now x with
            | true =>
                rw [hex] at hy
                exact hstale d y hy
            | false =>
                rw [hex] at hy
                rcases List.mem_append.mp hy with hold | hnew
                · exact hstale d y hold
                · obtain ⟨rfl, rfl⟩ : Key.device d = key ∧ y = x := by simpa using hnew
                  obtain ⟨cy, hcy⟩ := hasked d y List.mem_cons_self
                  refine ⟨cy, hcy, ?_⟩
                  rw [hconnection] at htimely
                  -- a connected one would have its key
                  by_contra hconn
                  have hthere := htimely cy hcy (by simpa using hconn)
                  rw [hex] at hthere
                  cases hthere
  | removing stale =>
      have hadded : c.connection.added = true := by rw [hconnection]; rfl
      have hstale := fun d x => h.stale id c d x hc
      rw [hconnection] at hstale
      cases stale with
      | nil =>
          exact h.goOn_added hc hadded
            (fun _ _ hx => by cases hx) (fun _ _ hx => by cases hx)
      | cons pair rest =>
          obtain ⟨key, x⟩ := pair
          have hexec : Inv (s.exec (.srem key x)) := by
            apply h.exec (by simp) (by simp)
            intro d y cy hcommand hcy
            cases hcommand
            obtain ⟨cx, hcx, hclosed⟩ := hstale d x List.mem_cons_self
            obtain rfl := Option.some.inj (hcx.symm.trans hcy)
            exact hclosed
          apply hexec.goOn_added hc hadded
          · intro _ _ hx
            cases hx
          · intro d y hy
            exact hstale d y (List.mem_cons_of_mem _ hy)
  | ended => exact h

/-- The removal: after its second command the device no longer lists the socket. -/
theorem Inv.leave {id userId deviceId : Id} {c : Client} (hc : s.clients id = some c)
    (hdata : c.data = some (userId, deviceId)) {n : Nat} (hn : c.leaving = some n)
    {command : Command} (hcommand : (removeDeviceSocket userId deviceId id)[n]? = some command) :
    Inv ((s.exec command).put id { c with leaving := some (n + 1) }) := by
  have hmem := List.mem_of_getElem? hcommand
  have hclosed : c.connected = false := by
    by_contra hconn
    have hopen := h.open_ id c hc (by simpa using hconn)
    rw [hn] at hopen
    cases hopen
  have hpos : ∀ key, command ≠ .expire key 0 := by
    rintro key rfl
    simp [removeDeviceSocket] at hmem
  have hadd : ∀ key x, command ≠ .sadd key x := by
    rintro key x rfl
    simp [removeDeviceSocket] at hmem
  have hexec : Inv (s.exec command) := by
    apply h.exec hpos
    · intro d x hd
      exact absurd hd (hadd (.device d) x)
    · rintro d x cx rfl hcx
      obtain ⟨_, rfl⟩ : d = deviceId ∧ x = id := by simpa [removeDeviceSocket] using hmem
      obtain rfl := Option.some.inj (hc.symm.trans hcx)
      exact hclosed
  apply hexec.put
  · intro _ _ _ hconn
    rw [hclosed] at hconn
    cases hconn
  · intro d hlisted
    rcases (mem_exec hpos).mp hlisted with hsadd | ⟨hold, hsrem⟩
    · exact absurd hsadd (hadd (.device d) id)
    · obtain ⟨x, u, hx, hd, hstays⟩ := h.owned id d hold
      obtain rfl := Option.some.inj (hc.symm.trans hx)
      refine ⟨u, hd, .inr ?_⟩
      obtain ⟨rfl, rfl⟩ : userId = u ∧ deviceId = d := by simpa [hdata] using hd
      have hlt : n < 2 := by
        rcases hstays with hconn | ⟨m, hm, hlt⟩
        · rw [hclosed] at hconn
          cases hconn
        · obtain rfl := Option.some.inj (hn.symm.trans hm)
          exact hlt
      have hne : n ≠ 1 := by
        rintro rfl
        cases hcommand
        exact hsrem rfl
      exact ⟨n + 1, rfl, by omega⟩
  · exact fun d x hx => h.asked id c d x hc hx
  · exact fun d x hx => h.stale id c d x hc hx
  · exact fun _ _ _ => hclosed
  · intro hconn
    rw [hclosed] at hconn
    cases hconn
  · exact h.fresh id c hc

end Steps

/-! ## Every run -/

theorem tick_inv {s : State} (h : Inv s) {ms : Nat} (hok : Timely s (.tick ms)) :
    Inv (step s (.tick ms)) := by
  refine { h with listed := ?_, owned := ?_ }
  · intro id c userId deviceId hc hdata hconn hadded
    exact members_lasting (h.listed id c userId deviceId hc hdata hconn hadded)
      (hok id c userId deviceId hc hdata hconn hadded)
  · intro id deviceId hmem
    exact h.owned id deviceId (members_later (Nat.le_add_right s.now ms) hmem)

/-- A socket that has not authenticated is on no list. -/
theorem Inv.unlisted {s : State} (h : Inv s) {id : Id} {c : Client} (hc : s.clients id = some c)
    (hdata : c.data = none) (deviceId : Id) : id ∉ s.listed deviceId := by
  intro hmem
  obtain ⟨x, userId, hx, hd, _⟩ := h.owned id deviceId hmem
  obtain rfl := Option.some.inj (hc.symm.trans hx)
  rw [hdata] at hd
  cases hd

theorem step_inv (s : State) (a : Act) (h : Inv s) (hok : Timely s a) : Inv (step s a) := by
  cases a with
  | tick ms => exact tick_inv h hok
  | connect id =>
      cases hc : s.clients id with
      | some c => simpa [step, hc] using h
      | none =>
          simp only [step, hc]
          refine h.put_unlisted ?_ ?_ rfl rfl ?_ (fun _ => rfl) (fun _ => rfl)
          · intro d hmem
            obtain ⟨c, _, hx, _⟩ := h.owned id d hmem
            rw [hc] at hx
            cases hx
          · exact fun _ => rfl
          · intro c hx
            rw [hc] at hx
            cases hx
  | authenticate id userId deviceId =>
      simp only [step]
      split
      · rename_i c hc
        split
        · rename_i hconnection
          have hnone := h.unlisted hc (h.fresh id c hc hconnection)
          refine h.put_unlisted hnone (fun _ => rfl) rfl rfl ?_ (h.open_ id c hc) ?_
          · intro x hx hconn
            obtain rfl := Option.some.inj (hc.symm.trans hx)
            exact hconn
          · intro hx
            cases hx
        · exact h
      · exact h
  | refuse id =>
      simp only [step]
      split
      · rename_i c hc
        split
        · rename_i hconnection
          have hdata := h.fresh id c hc hconnection
          refine h.put_unlisted (h.unlisted hc hdata) ?_ rfl rfl (fun _ _ _ => rfl) ?_ fun _ => hdata
          · intro hconn
            cases hconn
          · intro hconn
            cases hconn
        · exact h
      · exact h
  | advance id =>
      simp only [step]
      split
      · rename_i c hc
        split
        · rename_i userId deviceId hdata
          exact h.advance hc hdata hok
        · exact h
      · exact h
  | disconnect id =>
      simp only [step]
      split
      · rename_i c hc
        split
        · apply h.put
          · intro _ _ _ hconn
            cases hconn
          · intro d hmem
            obtain ⟨x, userId, hx, hdata, _⟩ := h.owned id d hmem
            obtain rfl := Option.some.inj (hc.symm.trans hx)
            -- its `handleDisconnect` begins with what `client.data` holds
            refine ⟨userId, hdata, .inr ⟨0, ?_, by omega⟩⟩
            simp [hdata]
          · exact fun d x hx => h.asked id c d x hc hx
          · exact fun d x hx => h.stale id c d x hc hx
          · exact fun _ _ _ => rfl
          · intro hconn
            cases hconn
          · exact h.fresh id c hc
        · exact h
      · exact h
  | leave id =>
      simp only [step]
      split
      · rename_i c hc
        split
        · rename_i userId deviceId n hdata hn
          split
          · rename_i command hcommand
            exact h.leave hc hdata hn hcommand
          · exact h
        · exact h
      · exact h

theorem start_inv (now : Nat) : Inv (start now) := by
  constructor
  · intro _ _ _ _ hc
    cases hc
  · intro _ _ hmem
    cases hmem
  · intro _ _ _ _ hc
    cases hc
  · intro _ _ _ _ hc
    cases hc
  · intro _ _ hc
    cases hc
  · intro _ _ hc
    cases hc

theorem mem_getDevicesWithSockets {s : State} {deviceIds : List Id} {deviceId : Id} :
    deviceId ∈ getDevicesWithSockets s deviceIds ↔
      deviceId ∈ deviceIds ∧ ∃ id, id ∈ s.listed deviceId := by
  simp [getDevicesWithSockets, List.length_pos_iff_exists_mem]

theorem registered_added {connection : Connection} (h : connection.registered = true) :
    connection.added = true := by
  cases connection <;> first | rfl | cases h

theorem Inv.present {s : State} (h : Inv s) : Present s := by
  constructor
  · intro id c userId deviceId hc hdata hon deviceIds hmem
    have hlisted := h.listed id c userId deviceId hc hdata hon.1 (registered_added hon.2)
    have hthere : deviceId ∈ getDevicesWithSockets s deviceIds :=
      mem_getDevicesWithSockets.mpr ⟨hmem, id, hlisted⟩
    exact ⟨hthere, by simp [filterOnlineDevices, hthere]⟩
  · intro deviceId hgone deviceIds hmem
    obtain ⟨_, id, hlisted⟩ := mem_getDevicesWithSockets.mp hmem
    obtain ⟨c, userId, hc, hdata, hstays⟩ := h.owned id deviceId hlisted
    obtain ⟨hclosed, hleft⟩ := hgone id c userId hc hdata
    rcases hstays with hconn | ⟨n, hn, hlt⟩
    · rw [hclosed] at hconn
      cases hconn
    · have hle := hleft n hn
      omega

/-- As long as every step finds what it must, presence is right. -/
theorem presence_covers (now : Nat) (acts : List Act)
    (hok : Along step Timely (start now) acts) : Always step Present (start now) acts := by
  have hinv := always_of_along step_inv acts (start now) (start_inv now) hok
  exact hinv.mono fun _ h => h.present

/-- A socket that registers, stays open for an hour and leaves. -/
def shortVisit : List Act :=
  .connect "s1" :: .authenticate "s1" "alice" "phone" :: List.replicate 6 (.advance "s1") ++
    [.tick 3600000, .disconnect "s1", .leave "s1", .leave "s1", .leave "s1"]

theorem short_visit_present : Along step Timely (start 0) shortVisit ∧
    Always step Present (start 0) shortVisit := by
  have hok : Along step Timely (start 0) shortVisit := by
    simp only [shortVisit, List.replicate, List.cons_append, List.nil_append, along_cons]
    refine ⟨trivial, trivial, ?_, ?_, ?_, ?_, ?_, ?_, ?_, trivial, trivial, trivial, trivial,
      along_nil step Timely _⟩
    · intro c hc
      obtain rfl := Option.some.inj hc
      trivial
    · intro c hc
      obtain rfl := Option.some.inj hc
      exact .inl rfl
    · intro c hc
      obtain rfl := Option.some.inj hc
      trivial
    · intro c hc
      obtain rfl := Option.some.inj hc
      trivial
    · intro c hc
      obtain rfl := Option.some.inj hc
      trivial
    · intro c hc
      obtain rfl := Option.some.inj hc
      trivial
    · intro id c userId deviceId hc hdata _ _
      by_cases hid : id = "s1"
      · subst hid
        obtain rfl := Option.some.inj hc
        cases hdata
        decide
      · -- each of the eight steps has put the one socket only
        iterate 8 replace hc := (Function.update_of_ne hid _ _).symm.trans hc
        cases hc
  exact ⟨hok, presence_covers 0 shortVisit hok⟩

/-- A socket that stays open for two hours: its device's set has run out. -/
def longVisit : List Act :=
  .connect "s1" :: .authenticate "s1" "alice" "phone" :: List.replicate 6 (.advance "s1") ++
    [.tick 7200000]

theorem long_visit_goes_offline : ¬ ∀ acts, Always step Present (start 0) acts := by
  intro h
  have hpresent := h longVisit longVisit (List.prefix_refl _)
  have honline := (hpresent.online "s1" { data := some ("alice", "phone"), connection := .listingUser }
    "alice" "phone" rfl rfl ⟨rfl, rfl⟩ ["phone"] List.mem_cons_self).1
  exact absurd honline (by decide)

end Birgap.Realtime.Presence
