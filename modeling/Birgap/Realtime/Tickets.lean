import Birgap.Auth.Revocation
import Birgap.Lib.Run
import Birgap.Lib.Tx
import Mathlib.Logic.Function.Basic

/-!
# Socket tickets

`RealtimeService.createSocketTicket` and `consumeSocketTicket`. The transaction of a
consumption reads the ticket, the session and the device, and then marks the ticket by its id.
Concurrent consumptions interleave statement by statement: what a transaction has written is
invisible until it commits, and a second update of the row waits for the first one to end. The
update does not look at the mark, so a ticket is used twice exactly when a consumption commits
after another one has marked the ticket it had read.
-/
namespace Birgap.Realtime

set_option autoImplicit false

open Birgap.Lib Birgap.Lib.Run Birgap.Lib.Tx Birgap.Auth

/-- The values a new ticket draws. -/
structure TicketDraws where
  ticketId : Id
  ticket : String

structure IssuedTicket where
  ticket : String
  expiresAt : Time
  deriving DecidableEq

/-- `createSocketTicket`; `ttlSeconds` is the configured lifetime. -/
def createSocketTicket (env : AuthEnv) (ttlSeconds : Option Int) (now : Time)
    (user : AuthenticatedUser) (deviceId : Id) (d : TicketDraws) (db : Db) :
    Except Err IssuedTicket × Db :=
  if !db.devices.any (fun x => x.id == deviceId && x.userId == user.userId && x.active) then
    (.error (.forbidden "Device is not active for this user"), db)
  else if db.socketTickets.any fun t => t.id == d.ticketId || t.tokenHash == env.sha256 d.ticket then
    (.error .uniqueConstraint, db)
  else
    let created : SocketTicket :=
      { id := d.ticketId, userId := user.userId, deviceId, sessionId := user.sessionId
        tokenHash := env.sha256 d.ticket, expiresAt := now + ttlSeconds.getD 60 * 1000
        createdAt := now }
    (.ok ⟨d.ticket, created.expiresAt⟩, { db with socketTickets := db.socketTickets ++ [created] })

/-- A connection attempt, with the time it takes at its start. -/
structure Consume where
  ticket : String
  socketId : String
  now : Time

structure SocketAuth where
  userId : Id
  deviceId : Id
  sessionId : Id
  deriving DecidableEq

def findTicket (tokenHash : String) (now : Time) (db : Db) : Except Err SocketTicket :=
  match db.socketTickets.find? (·.tokenHash == tokenHash) with
  | none => .error (.unauthorized "Socket ticket is invalid")
  | some t =>
      if t.consumedAt.isSome || decide (t.expiresAt ≤ now) then
        .error (.unauthorized "Socket ticket is invalid")
      else .ok t

def checkSession (t : SocketTicket) (now : Time) (db : Db) : Except Err Unit :=
  match db.refreshTokens.find? (·.id == t.sessionId) with
  | none => .error (.unauthorized "Session is no longer active")
  | some session =>
      ensure (!(session.revokedAt.isSome || decide (session.expiresAt ≤ now)))
        (.unauthorized "Session is no longer active")

def findDevice (t : SocketTicket) (db : Db) : Except Err Device :=
  match db.devices.find? fun d => d.id == t.deviceId && d.userId == t.userId && d.active with
  | none => .error (.unauthorized "Device is no longer active")
  | some device => .ok device

def markTicket (c : Consume) (t : SocketTicket) : SocketTicket :=
  { t with consumedAt := some c.now, consumedBy := some c.socketId }

/-- The two updates at the end of the transaction. -/
def consumeWrites (c : Consume) (ticketId deviceId : Id) (db : Db) : Db :=
  { db with
    socketTickets := Rows.updateMany (·.id == ticketId) (markTicket c) db.socketTickets
    devices := Rows.updateMany (·.id == deviceId) (fun d => { d with lastSeenAt := some c.now })
      db.devices }

/-- `consumeSocketTicket`, run alone. -/
def consumeSocketTicket (env : AuthEnv) (c : Consume) (db : Db) : Except Err SocketAuth × Db :=
  atomically (fun db => do
    let t ← findTicket (env.sha256 c.ticket) c.now db
    checkSession t c.now db
    let device ← findDevice t db
    pure (⟨t.userId, t.deviceId, t.sessionId⟩, consumeWrites c t.id device.id db)) db

namespace Tickets

/-- How far a consumption has come: past the look-up of the ticket, of the session, of the
device, and past the update of the ticket. -/
inductive Flight where
  | idle
  | found (c : Consume) (t : SocketTicket)
  | active (c : Consume) (t : SocketTicket)
  | ready (c : Consume) (t : SocketTicket) (deviceId : Id)
  | marked (c : Consume) (t : SocketTicket) (deviceId : Id)

/-- The attempt and the ticket a consumption works on. -/
def Flight.holds : Flight → Option (Consume × SocketTicket)
  | .idle => none
  | .found c t => some (c, t)
  | .active c t => some (c, t)
  | .ready c t _ => some (c, t)
  | .marked c t _ => some (c, t)

/-- The committed store, the consumptions, who has updated a ticket without committing yet,
and the hash of the ticket of every consumption that has returned. -/
structure State where
  db : Db
  flights : Nat → Flight
  locks : Id → Option Nat
  returned : List String

/-- The creation of a ticket, or one statement of the consumption with number `pid`. `fail`
rolls a transaction back wherever it is. -/
inductive Act where
  | create (now : Time) (user : AuthenticatedUser) (deviceId : Id) (d : TicketDraws)
  | find (pid : Nat) (c : Consume)
  | session (pid : Nat)
  | device (pid : Nat)
  | mark (pid : Nat)
  | commit (pid : Nat)
  | fail (pid : Nat)

def State.set (s : State) (pid : Nat) (f : Flight) : State :=
  { s with flights := Function.update s.flights pid f }

/-- The end of a transaction releases the row it has updated. -/
def State.finish (s : State) (pid : Nat) : State :=
  { s with
    flights := Function.update s.flights pid .idle
    locks := fun id => if s.locks id = some pid then none else s.locks id }

def step (env : AuthEnv) (ttlSeconds : Option Int) (s : State) : Act → State
  | .create now user deviceId d =>
      { s with db := (createSocketTicket env ttlSeconds now user deviceId d s.db).2 }
  | .find pid c =>
      match s.flights pid with
      | .idle =>
          match findTicket (env.sha256 c.ticket) c.now s.db with
          | .error _ => s
          | .ok t => s.set pid (.found c t)
      | _ => s
  | .session pid =>
      match s.flights pid with
      | .found c t =>
          match checkSession t c.now s.db with
          | .error _ => s.set pid .idle
          | .ok () => s.set pid (.active c t)
      | _ => s
  | .device pid =>
      match s.flights pid with
      | .active c t =>
          match findDevice t s.db with
          | .error _ => s.set pid .idle
          | .ok device => s.set pid (.ready c t device.id)
      | _ => s
  | .mark pid =>
      match s.flights pid with
      | .ready c t deviceId =>
          match s.locks t.id with
          -- another transaction has updated the row and not ended yet
          | some _ => s
          | none =>
              { s.set pid (.marked c t deviceId) with
                locks := Function.update s.locks t.id (some pid) }
      | _ => s
  | .commit pid =>
      match s.flights pid with
      | .marked c t deviceId =>
          { s.finish pid with
            db := consumeWrites c t.id deviceId s.db
            returned := s.returned ++ [env.sha256 c.ticket] }
      | _ => s
  | .fail pid => s.finish pid

def start (db : Db) : State := { db, flights := fun _ => .idle, locks := fun _ => none, returned := [] }

/-- A consumption that nothing interrupts, on a ticket nobody is updating, leaves what
`consumeSocketTicket` leaves. -/
theorem uninterrupted_consume (env : AuthEnv) (ttlSeconds : Option Int) (s : State) (pid : Nat)
    (c : Consume) (hp : s.flights pid = .idle) (hl : ∀ id, s.locks id = none) :
    (run (step env ttlSeconds) s [.find pid c, .session pid, .device pid, .mark pid, .commit pid]).db =
      (consumeSocketTicket env c s.db).2 := by
  rw [run_cons, run_cons, run_cons, run_cons, run_cons, run_nil]
  unfold consumeSocketTicket atomically
  cases hf : findTicket (env.sha256 c.ticket) c.now s.db with
  | error e => simp [step, hp, hf, bind, Except.bind]
  | ok t =>
      cases hs : checkSession t c.now s.db with
      | error e => simp [step, hp, hf, hs, State.set, bind, Except.bind]
      | ok u =>
          cases hd : findDevice t s.db with
          | error e => simp [step, hp, hf, hs, hd, State.set, bind, Except.bind]
          | ok device =>
              simp [step, hp, hf, hs, hd, hl, State.set, bind, Except.bind, pure, Except.pure]

/-- No ticket has let two sockets in. -/
def UsedOnce (s : State) : Prop := s.returned.Nodup

/-- A consumption commits on a ticket that nobody has consumed since it was read. -/
def StillUnconsumed (s : State) : Act → Prop
  | .commit pid =>
      match s.flights pid with
      | .marked _ t _ => ∀ x ∈ s.db.socketTickets, x.id = t.id → x.consumedAt = none
      | _ => True
  | _ => True

/-- The unique indexes of the ticket table. -/
structure TicketKeys (db : Db) : Prop where
  ids : Rows.Unique (·.id) db.socketTickets
  hashes : Rows.Unique (·.tokenHash) db.socketTickets

/-- The ticket of a consumption is stored under the presented hash, and consumed only by one
that has returned. -/
def Held (env : AuthEnv) (s : State) (c : Consume) (t : SocketTicket) : Prop :=
  t.tokenHash = env.sha256 c.ticket ∧
  ∃ x ∈ s.db.socketTickets, x.id = t.id ∧ x.tokenHash = t.tokenHash ∧
    (x.consumedAt ≠ none → x.tokenHash ∈ s.returned)

structure Wf (env : AuthEnv) (s : State) : Prop where
  keys : TicketKeys s.db
  held : ∀ pid c t, (s.flights pid).holds = some (c, t) → Held env s c t
  returned : ∀ h ∈ s.returned, ∃ x ∈ s.db.socketTickets, x.tokenHash = h ∧ x.consumedAt ≠ none

theorem start_wf (env : AuthEnv) {db : Db} (hk : TicketKeys db) : Wf env (start db) := by
  refine ⟨hk, ?_, ?_⟩
  · intro pid c t h
    cases h
  · intro h hh
    cases hh

/-- A consumption that moves without writing. -/
theorem Wf.set {env : AuthEnv} {s : State} (h : Wf env s) (pid : Nat) {f : Flight}
    (hf : ∀ c t, f.holds = some (c, t) → Held env s c t) (locks : Id → Option Nat) :
    Wf env { s.set pid f with locks := locks } := by
  refine ⟨h.keys, ?_, h.returned⟩
  intro q c t hq
  by_cases he : q = pid
  · subst he
    apply hf c t
    simpa [State.set] using hq
  · apply h.held q c t
    simpa [State.set, he] using hq

theorem findTicket_ok {tokenHash : String} {now : Time} {db : Db} {t : SocketTicket}
    (h : findTicket tokenHash now db = .ok t) :
    t ∈ db.socketTickets ∧ t.tokenHash = tokenHash ∧ t.consumedAt = none := by
  unfold findTicket at h
  split at h
  · cases h
  · rename_i x hx
    split at h
    · cases h
    · rename_i hfree
      obtain rfl := Except.ok.inj h
      have hhash := List.find?_some hx
      refine ⟨List.mem_of_find?_eq_some hx, beq_iff_eq.mp hhash, ?_⟩
      simpa using (not_or.mp (fun ho => hfree (Bool.or_eq_true_iff.mpr ho))).1

theorem createSocketTicket_cases (env : AuthEnv) (ttlSeconds : Option Int) (now : Time)
    (user : AuthenticatedUser) (deviceId : Id) (d : TicketDraws) (db : Db) :
    (createSocketTicket env ttlSeconds now user deviceId d db).2 = db ∨
    ∃ new : SocketTicket,
      (∀ t ∈ db.socketTickets, t.id ≠ new.id ∧ t.tokenHash ≠ new.tokenHash) ∧
      (createSocketTicket env ttlSeconds now user deviceId d db).2 =
        { db with socketTickets := db.socketTickets ++ [new] } := by
  unfold createSocketTicket
  split
  · exact Or.inl rfl
  · split
    · exact Or.inl rfl
    · rename_i hfree
      refine Or.inr ⟨_, ?_, rfl⟩
      intro t ht
      have hno : ¬ ((t.id == d.ticketId || t.tokenHash == env.sha256 d.ticket) = true) :=
        fun hc => hfree (List.any_eq_true.mpr ⟨t, ht, hc⟩)
      simpa using hno

theorem Wf.create {env : AuthEnv} {s : State} (h : Wf env s) {new : SocketTicket}
    (hnew : ∀ t ∈ s.db.socketTickets, t.id ≠ new.id ∧ t.tokenHash ≠ new.tokenHash) :
    Wf env { s with db := { s.db with socketTickets := s.db.socketTickets ++ [new] } } := by
  refine ⟨⟨Rows.unique_append h.keys.ids fun t ht => (hnew t ht).1,
    Rows.unique_append h.keys.hashes fun t ht => (hnew t ht).2⟩, ?_, ?_⟩
  · intro pid c t hp
    obtain ⟨hhash, x, hx, hrest⟩ := h.held pid c t hp
    exact ⟨hhash, x, List.mem_append_left _ hx, hrest⟩
  · intro hash hh
    obtain ⟨x, hx, hrest⟩ := h.returned hash hh
    exact ⟨x, List.mem_append_left _ hx, hrest⟩

/-- The commit marks the row of its ticket, whose hash it returns with. -/
theorem Wf.commit {env : AuthEnv} {s : State} (h : Wf env s) {pid : Nat} {c : Consume}
    {t : SocketTicket} {deviceId : Id} (hp : s.flights pid = .marked c t deviceId) :
    Wf env { s.finish pid with
      db := consumeWrites c t.id deviceId s.db
      returned := s.returned ++ [env.sha256 c.ticket] } := by
  obtain ⟨hhash, x, hx, hxid, hxhash, _⟩ := h.held pid c t (by rw [hp]; rfl)
  have hmarked : ∀ y ∈ s.db.socketTickets, ∃ y' ∈ (consumeWrites c t.id deviceId s.db).socketTickets,
      y'.id = y.id ∧ y'.tokenHash = y.tokenHash ∧
        (y.id = t.id → y'.consumedAt ≠ none) ∧ (y.id ≠ t.id → y'.consumedAt = y.consumedAt) := by
    intro y hy
    refine ⟨_, Rows.mem_updateMany.mpr ⟨y, hy, rfl⟩, ?_⟩
    by_cases he : y.id = t.id
    · rw [if_pos (beq_iff_eq.mpr he)]
      exact ⟨rfl, rfl, fun _ => Option.some_ne_none _, fun hne => absurd he hne⟩
    · rw [if_neg (fun hb => he (beq_iff_eq.mp hb))]
      exact ⟨rfl, rfl, fun heq => absurd heq he, fun _ => rfl⟩
  refine ⟨⟨Rows.unique_updateMany (f := markTicket c) (fun _ => rfl) h.keys.ids,
    Rows.unique_updateMany (f := markTicket c) (fun _ => rfl) h.keys.hashes⟩, ?_, ?_⟩
  · intro q c' t' hq
    have hq' : (s.flights q).holds = some (c', t') := by
      by_cases he : q = pid
      · subst he
        simp [State.finish, Flight.holds] at hq
      · simpa [State.finish, he] using hq
    obtain ⟨hhash', y, hy, hyid, hyhash, hyret⟩ := h.held q c' t' hq'
    obtain ⟨y', hy', hid', hhash'', hsame, hother⟩ := hmarked y hy
    refine ⟨hhash', y', hy', hid'.trans hyid, hhash''.trans hyhash, ?_⟩
    intro hcons
    apply List.mem_append.mpr
    by_cases he : y.id = t.id
    · right
      obtain rfl := h.keys.ids.eq hy hx (he.trans hxid.symm)
      rw [hhash'', hxhash, hhash]
      exact List.mem_singleton_self _
    · left
      rw [hother he] at hcons
      rw [hhash'']
      exact hyret hcons
  · intro hash hh
    rcases List.mem_append.mp hh with hold | hnew
    · obtain ⟨y, hy, hyhash, hycons⟩ := h.returned hash hold
      obtain ⟨y', hy', _, hhash', hsame, hother⟩ := hmarked y hy
      refine ⟨y', hy', hhash'.trans hyhash, ?_⟩
      by_cases he : y.id = t.id
      · exact hsame he
      · rw [hother he]
        exact hycons
    · obtain ⟨x', hx', _, hhash', hsame, _⟩ := hmarked x hx
      refine ⟨x', hx', ?_, hsame hxid⟩
      rw [List.mem_singleton.mp hnew, hhash', hxhash, hhash]

/-- A flight that works on what it worked on before, or on a free ticket it has just read. -/
def Continues (env : AuthEnv) (s : State) (pid : Nat) (f : Flight) : Prop :=
  ∀ c t, f.holds = some (c, t) → (s.flights pid).holds = some (c, t) ∨
    (t ∈ s.db.socketTickets ∧ t.tokenHash = env.sha256 c.ticket ∧ t.consumedAt = none)

theorem continues_idle (env : AuthEnv) (s : State) (pid : Nat) : Continues env s pid .idle := by
  intro c t he
  cases he

theorem Continues.of_holds {s : State} {pid : Nat} {f : Flight} (env : AuthEnv)
    (h : (s.flights pid).holds = f.holds) : Continues env s pid f := by
  intro c t he
  exact Or.inl (h.trans he)

/-- What one step can do: add a ticket, commit a marked one, or move a consumption. -/
theorem step_cases (env : AuthEnv) (ttlSeconds : Option Int) (s : State) (a : Act) :
    (∃ pid c t deviceId, a = .commit pid ∧ s.flights pid = .marked c t deviceId ∧
      step env ttlSeconds s a = { s.finish pid with
        db := consumeWrites c t.id deviceId s.db
        returned := s.returned ++ [env.sha256 c.ticket] }) ∨
    (StillUnconsumed s a ∧
      (step env ttlSeconds s a = s ∨
      (∃ new : SocketTicket, (∀ t ∈ s.db.socketTickets, t.id ≠ new.id ∧ t.tokenHash ≠ new.tokenHash) ∧
        step env ttlSeconds s a = { s with db := { s.db with
          socketTickets := s.db.socketTickets ++ [new] } }) ∨
      ∃ pid f locks, Continues env s pid f ∧
        step env ttlSeconds s a = { s.set pid f with locks := locks })) := by
  cases a with
  | create now user deviceId d =>
      refine Or.inr ⟨trivial, ?_⟩
      simp only [step]
      rcases createSocketTicket_cases env ttlSeconds now user deviceId d s.db with
        he | ⟨new, hnew, he⟩
      · rw [he]
        exact Or.inl rfl
      · rw [he]
        exact Or.inr (Or.inl ⟨new, hnew, rfl⟩)
  | find pid c =>
      refine Or.inr ⟨trivial, ?_⟩
      simp only [step]
      split
      · split
        · exact Or.inl rfl
        · rename_i t hf
          refine Or.inr (Or.inr ⟨pid, .found c t, s.locks, ?_, rfl⟩)
          intro c' t' he
          obtain ⟨rfl, rfl⟩ := Prod.mk.inj (Option.some.inj he)
          exact Or.inr (findTicket_ok hf)
      · exact Or.inl rfl
  | session pid =>
      refine Or.inr ⟨trivial, ?_⟩
      simp only [step]
      split
      · rename_i c t hp
        split
        · exact Or.inr (Or.inr ⟨pid, .idle, s.locks, continues_idle env s pid, rfl⟩)
        · exact Or.inr (Or.inr ⟨pid, .active c t, s.locks, .of_holds env (by rw [hp]; rfl), rfl⟩)
      · exact Or.inl rfl
  | device pid =>
      refine Or.inr ⟨trivial, ?_⟩
      simp only [step]
      split
      · rename_i c t hp
        split
        · exact Or.inr (Or.inr ⟨pid, .idle, s.locks, continues_idle env s pid, rfl⟩)
        · exact Or.inr (Or.inr ⟨pid, .ready c t _, s.locks, .of_holds env (by rw [hp]; rfl), rfl⟩)
      · exact Or.inl rfl
  | mark pid =>
      refine Or.inr ⟨trivial, ?_⟩
      simp only [step]
      split
      · rename_i c t deviceId hp
        split
        · exact Or.inl rfl
        · exact Or.inr (Or.inr ⟨pid, .marked c t deviceId, _, .of_holds env (by rw [hp]; rfl), rfl⟩)
      · exact Or.inl rfl
  | commit pid =>
      simp only [step, StillUnconsumed]
      split
      · rename_i c t deviceId hp
        exact Or.inl ⟨pid, c, t, deviceId, rfl, hp, rfl⟩
      · exact Or.inr ⟨trivial, Or.inl rfl⟩
  | fail pid =>
      exact Or.inr ⟨trivial, Or.inr (Or.inr ⟨pid, .idle, _, continues_idle env s pid, rfl⟩)⟩

theorem step_wf (env : AuthEnv) (ttlSeconds : Option Int) (s : State) (a : Act) (h : Wf env s) :
    Wf env (step env ttlSeconds s a) := by
  rcases step_cases env ttlSeconds s a with ⟨pid, c, t, deviceId, _, hp, he⟩ |
      ⟨_, he | ⟨new, hnew, he⟩ | ⟨pid, f, locks, hf, he⟩⟩
  · rw [he]
    exact h.commit hp
  · rw [he]
    exact h
  · rw [he]
    exact h.create hnew
  · rw [he]
    apply h.set pid
    intro c t hholds
    rcases hf c t hholds with hold | ⟨hmem, hhash, hfree⟩
    · exact h.held pid c t hold
    · exact ⟨hhash, t, hmem, rfl, rfl, fun hc => absurd hfree hc⟩

/-- A ticket that a consumption has marked was used before exactly when its row says so. -/
theorem Wf.returned_iff {env : AuthEnv} {s : State} (h : Wf env s) {pid : Nat} {c : Consume}
    {t : SocketTicket} {deviceId : Id} (hp : s.flights pid = .marked c t deviceId) :
    env.sha256 c.ticket ∉ s.returned ↔
      ∀ x ∈ s.db.socketTickets, x.id = t.id → x.consumedAt = none := by
  obtain ⟨hhash, x, hx, hxid, hxhash, hxret⟩ := h.held pid c t (by rw [hp]; rfl)
  constructor
  · intro hnot y hy hyid
    obtain rfl := h.keys.ids.eq hy hx (hyid.trans hxid.symm)
    by_contra hcons
    apply hnot
    rw [← hhash, ← hxhash]
    exact hxret hcons
  · intro hfree hmem
    obtain ⟨y, hy, hyhash, hycons⟩ := h.returned _ hmem
    obtain rfl := h.keys.hashes.eq hy hx (hyhash.trans (hhash.symm.trans hxhash.symm))
    exact hycons (hfree y hx hxid)

/-- One step keeps every ticket at one use exactly when it does not commit on a consumed one. -/
theorem step_usedOnce_iff (env : AuthEnv) (ttlSeconds : Option Int) (s : State) (a : Act)
    (hw : Wf env s) (h : UsedOnce s) :
    UsedOnce (step env ttlSeconds s a) ↔ StillUnconsumed s a := by
  rcases step_cases env ttlSeconds s a with ⟨pid, c, t, deviceId, rfl, hp, he⟩ |
      ⟨hstill, he | ⟨new, _, he⟩ | ⟨pid, f, locks, _, he⟩⟩
  · have hstill : StillUnconsumed s (.commit pid) ↔
        ∀ x ∈ s.db.socketTickets, x.id = t.id → x.consumedAt = none := by
      simp only [StillUnconsumed, hp]
    rw [he, hstill, ← hw.returned_iff hp]
    unfold UsedOnce
    rw [List.nodup_append]
    constructor
    · rintro ⟨_, _, hne⟩ hmem
      exact hne _ hmem _ (List.mem_singleton_self _) rfl
    · intro hnot
      refine ⟨h, List.nodup_singleton _, ?_⟩
      intro x hx y hy hxy
      rw [hxy, List.mem_singleton.mp hy] at hx
      exact hnot hx
  · rw [he]
    exact iff_of_true h hstill
  · rw [he]
    exact iff_of_true h hstill
  · rw [he]
    exact iff_of_true h hstill

/-- In every interleaving of ticket creations and connection attempts, every ticket lets at
most one socket in exactly when no attempt commits on a ticket that was consumed since it
read it. -/
theorem tickets_used_once_iff (env : AuthEnv) (ttlSeconds : Option Int) (db : Db) (acts : List Act)
    (hk : TicketKeys db) :
    Always (step env ttlSeconds) UsedOnce (start db) acts ↔
      Along (step env ttlSeconds) StillUnconsumed (start db) acts :=
  always_iff_along (fun s a h => step_wf env ttlSeconds s a h)
    (fun s a hw h => step_usedOnce_iff env ttlSeconds s a hw h) acts (start db) (start_wf env hk)
    List.nodup_nil

/-- Alice with a device, a session and a ticket. -/
def sampleDb : Db :=
  { devices := [{ id := "d1", userId := "alice", platform := .ios, identityPublicKey := "k1"
                  createdAt := 0 }]
    refreshTokens := [{ id := "s1", userId := "alice", tokenHash := "h1", familyId := "f1"
                        expiresAt := 2592000000, createdAt := 0 }]
    socketTickets := [{ id := "t1", userId := "alice", deviceId := "d1", sessionId := "s1"
                        tokenHash := "sha256:ticket-1", expiresAt := 60000, createdAt := 0 }] }

def attempt (socketId : String) : Consume := { ticket := "ticket-1", socketId, now := 1000 }

/-- The statements of one attempt up to the update of the ticket. -/
def reads (pid : Nat) (socketId : String) : List Act :=
  [.find pid (attempt socketId), .session pid, .device pid]

/-- Two attempts with one ticket that both read it before either of them commits. -/
def bothConnect : List Act :=
  reads 0 "socket-1" ++ reads 1 "socket-2" ++ [.mark 0, .commit 0, .mark 1, .commit 1]

/-- Both sockets are let in. -/
theorem ticket_used_twice :
    ¬ ∀ (env : AuthEnv) (ttlSeconds : Option Int) (db : Db) (acts : List Act), TicketKeys db →
      Always (step env ttlSeconds) UsedOnce (start db) acts := by
  intro h
  have hrun := h sampleEnv none sampleDb bothConnect ⟨by decide, by decide⟩
  have hlast := hrun bothConnect (List.prefix_refl _)
  revert hlast
  unfold UsedOnce
  decide

/-- The second attempt comes after the first has committed, and is rejected. -/
theorem attempts_in_turn_used_once :
    Always (step sampleEnv none) UsedOnce (start sampleDb)
      (reads 0 "socket-1" ++ [.mark 0, .commit 0] ++ reads 1 "socket-2" ++ [.mark 1, .commit 1]) := by
  rw [tickets_used_once_iff sampleEnv none sampleDb _ ⟨by decide, by decide⟩]
  simp only [reads, List.cons_append, List.nil_append, along_cons]
  refine ⟨trivial, trivial, trivial, trivial, ?_, trivial, trivial, trivial, trivial, trivial,
    along_nil _ _ _⟩
  intro x hx _
  revert x
  decide

end Tickets

end Birgap.Realtime
