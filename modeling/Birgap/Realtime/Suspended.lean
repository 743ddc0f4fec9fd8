import Birgap.Auth.Guard
import Birgap.Lib.Component
import Birgap.Realtime.Kicks

/-!
# The gateway among the sessions

The gateway, the creation of tickets behind its guard, and the logins, refreshes and suspensions
that write the sessions, in one system. What each of them does to the sessions and the tickets is
said once, by `Carried`.
-/
namespace Birgap.Realtime.Suspended

set_option autoImplicit false

open Birgap.Lib Birgap.Lib.Run Birgap.Common Birgap.Moderation Birgap.Auth Birgap.Auth.Guard

/-- The gateway, and the callers who have passed the guard of `POST realtime/token`. -/
structure State where
  gate : Gateway.State
  callers : Nat → Option AuthenticatedUser

/-- `issue` is the end of a login or a refresh that has passed its suspension check earlier, and
`rest` any write to tables that neither the guard nor the tickets read. -/
inductive Act where
  | gateway (a : Gateway.Act)
  | call (o : Guard.TimedOp)
  | issue (now : Time) (userId : Id) (sm : SessionMeta) (d : Draws) (familyId : Option String)
  | authorize (pid : Nat) (now : Time) (authorization : Option String)
  | create (pid : Nat) (now : Time) (deviceId : Id) (d : TicketDraws)
  | rest (db : Db)

def keepAccounts (db db' : Db) : Db :=
  { db' with
    users := db.users, userSuspensions := db.userSuspensions, refreshTokens := db.refreshTokens
    socketTickets := db.socketTickets }

section

variable (env : AuthEnv) (verifyAsync : String → Option AccessTokenPayload)
variable (ttlSeconds : Option Int)

/-- What an act other than one of the gateway does to the store and to the callers. -/
def serve (s : State) : Act → Db × (Nat → Option AuthenticatedUser)
  | .gateway _ => (s.gate.db, s.callers)
  | .call o => (Guard.step env s.gate.db o, s.callers)
  | .issue now userId sm d familyId =>
      ((issueTokenPair env now userId sm d familyId s.gate.db).2, s.callers)
  | .authorize pid now authorization =>
      match canActivate env verifyAsync now authorization s.gate.db with
      | .error _ => (s.gate.db, Function.update s.callers pid none)
      | .ok user => (s.gate.db, Function.update s.callers pid (some user))
  | .create pid now deviceId d =>
      match s.callers pid with
      | none => (s.gate.db, s.callers)
      | some user =>
          ((createSocketTicket env ttlSeconds now user deviceId d s.gate.db).2,
            Function.update s.callers pid none)
  | .rest db => (keepAccounts s.gate.db db, s.callers)

/-- The act as the gateway sees it; its own writes of the rest are the other acts here. -/
def gateAct (s : State) : Act → Gateway.Act
  | .gateway (.store _) => .store s.gate.db
  | .gateway a => a
  | a => .store (serve env verifyAsync ttlSeconds s a).1

def step (s : State) (a : Act) : State :=
  { gate := Gateway.step env s.gate (gateAct env verifyAsync ttlSeconds s a)
    callers := (serve env verifyAsync ttlSeconds s a).2 }

/-- The gateway within the system. -/
def gate : Component (step env verifyAsync ttlSeconds) (Gateway.step env) where
  view := State.gate
  act := gateAct env verifyAsync ttlSeconds
  view_step _ _ := rfl

end

def start (db : Db) : State := { gate := Gateway.start db, callers := fun _ => none }

variable {env : AuthEnv} {verifyAsync : String → Option AccessTokenPayload}
variable {ttlSeconds : Option Int}

theorem run_gate (acts : List Act) (s : State) :
    (run (step env verifyAsync ttlSeconds) s acts).gate =
      run (Gateway.step env) s.gate ((gate env verifyAsync ttlSeconds).acts s acts) :=
  (gate env verifyAsync ttlSeconds).view_run acts s

/-! ## Sessions and tickets -/

/-- `r'` is the row of `r`, still revoked if it was. -/
def Continues (r r' : RefreshToken) : Prop :=
  r'.id = r.id ∧ r'.userId = r.userId ∧ (r.revokedAt ≠ none → r'.revokedAt ≠ none)

theorem Continues.trans {a b c : RefreshToken} (h : Continues a b) (h' : Continues b c) :
    Continues a c :=
  ⟨h'.1.trans h.1, h'.2.1.trans h.2.1, fun hrev => h'.2.2 (h.2.2 hrev)⟩

/-- Sessions and tickets go back to earlier ones, new sessions with a drawn id aside. -/
structure Carried (draw : Id → Prop) (db db' : Db) : Prop where
  tokens : ∀ r' ∈ db'.refreshTokens, (∃ r ∈ db.refreshTokens, Continues r r') ∨ draw r'.id
  tickets : ∀ t' ∈ db'.socketTickets, ∃ t ∈ db.socketTickets,
    t'.userId = t.userId ∧ t'.sessionId = t.sessionId
  keys : Rows.Unique (·.id) db.refreshTokens → Rows.Unique (·.id) db'.refreshTokens

section

variable {draw : Id → Prop} {db db' db'' : Db}

theorem carried_of_eq (htokens : db'.refreshTokens = db.refreshTokens)
    (htickets : db'.socketTickets = db.socketTickets) : Carried draw db db' where
  tokens r hr := Or.inl ⟨r, htokens ▸ hr, rfl, rfl, id⟩
  tickets t ht := ⟨t, htickets ▸ ht, rfl, rfl⟩
  keys hk := by rw [htokens]; exact hk

theorem Carried.trans (h : Carried draw db db') (h' : Carried draw db' db'') :
    Carried draw db db'' where
  tokens r'' hr'' := by
    rcases h'.tokens r'' hr'' with ⟨r', hr', hc'⟩ | hnew
    · rcases h.tokens r' hr' with ⟨r, hr, hc⟩ | hnew
      · exact Or.inl ⟨r, hr, hc.trans hc'⟩
      · exact Or.inr (hc'.1 ▸ hnew)
    · exact Or.inr hnew
  tickets t'' ht'' := by
    obtain ⟨t', ht', hu', hs'⟩ := h'.tickets t'' ht''
    obtain ⟨t, ht, hu, hs⟩ := h.tickets t' ht'
    exact ⟨t, ht, hu'.trans hu, hs'.trans hs⟩
  keys hk := h'.keys (h.keys hk)

theorem revoke_carried {p : RefreshToken → Bool} {now : Time} (db : Db)
    (htokens : db'.refreshTokens =
      Rows.updateMany p (fun t => { t with revokedAt := some now }) db.refreshTokens)
    (htickets : db'.socketTickets = db.socketTickets) : Carried draw db db' where
  tokens r' hr' := by
    rw [htokens] at hr'
    obtain ⟨r, hr, rfl⟩ := Rows.mem_updateMany.mp hr'
    refine Or.inl ⟨r, hr, ?_⟩
    split
    · refine ⟨rfl, rfl, fun _ h => ?_⟩
      cases h
    · exact ⟨rfl, rfl, id⟩
  tickets t ht := ⟨t, htickets ▸ ht, rfl, rfl⟩
  keys hk := by
    rw [htokens]
    apply Rows.unique_updateMany _ hk
    intro r
    rfl

theorem revokeWhere_carried (p : RefreshToken → Bool) (now : Time) (db : Db) :
    Carried draw db (revokeWhere p now db) := revoke_carried db rfl rfl

theorem issueTokenPair_carried (env : AuthEnv) (now : Time) (userId : Id) (sm : SessionMeta)
    (d : Draws) (familyId : Option String) (db : Db) :
    Carried (· = d.sessionId) db (issueTokenPair env now userId sm d familyId db).2 := by
  unfold issueTokenPair
  split
  · exact carried_of_eq rfl rfl
  · rename_i hdrawn
    refine ⟨?_, fun t ht => ⟨t, ht, rfl, rfl⟩, ?_⟩
    · intro r hr
      rcases List.mem_append.mp hr with hr | hr
      · exact Or.inl ⟨r, hr, rfl, rfl, id⟩
      · rw [List.mem_singleton.mp hr]
        exact Or.inr rfl
    · intro hk
      refine Rows.unique_append hk ?_
      intro r hr hid
      exact hdrawn (List.any_eq_true.mpr ⟨r, hr, by simp [hid]⟩)

theorem issueUnlessSuspended_carried (env : AuthEnv) (now : Time) (userId : Id) (sm : SessionMeta)
    (d : Draws) (familyId : Option String) (db : Db) :
    Carried (· = d.sessionId) db (issueUnlessSuspended env now userId sm d familyId db).2 := by
  unfold issueUnlessSuspended
  split
  · exact carried_of_eq rfl rfl
  · exact issueTokenPair_carried env now userId sm d familyId db

theorem refresh_carried (env : AuthEnv) (now : Time) (t : String) (sm : SessionMeta) (d : Draws)
    (db : Db) : Carried (· = d.sessionId) db (refresh env now t sm d db).2 := by
  have hrotated : Carried (· = d.sessionId) db (revokeWhere (·.tokenHash == env.sha256 t) now db) :=
    revokeWhere_carried _ now db
  unfold refresh
  dsimp only
  split
  · split
    · exact hrotated
    · split
      · exact hrotated
      · split
        · exact hrotated
        · split
          · exact hrotated.trans (issueUnlessSuspended_carried env now _ sm d _ _)
          · unfold revokeTokenFamily
            split
            · exact hrotated
            · exact hrotated.trans (revokeWhere_carried _ now _)
  · split
    · exact hrotated
    · exact hrotated.trans (issueUnlessSuspended_carried env now _ sm d _ _)

theorem findOrCreateUser_carried (env : AuthEnv) (phone phoneHash : String) (d : Draws) (db : Db) :
    Carried draw db (findOrCreateUser env phone phoneHash d db).2 := by
  unfold findOrCreateUser
  split
  · exact carried_of_eq rfl rfl
  · split
    · exact carried_of_eq rfl rfl
    · split <;> exact carried_of_eq rfl rfl

theorem verifyOtp_carried (env : AuthEnv) (now : Time) (phone code : String) (sm : SessionMeta)
    (d : Draws) (db : Db) : Carried (· = d.sessionId) db (verifyOtp env now phone code sm d db).2 := by
  have hotp : Carried (· = d.sessionId) db (otpVerify env now (normalizePhone phone) code db).2 := by
    obtain ⟨otps, he⟩ := otpVerify_frame env now (normalizePhone phone) code db
    rw [he]
    exact carried_of_eq rfl rfl
  unfold verifyOtp
  dsimp only
  split
  · rename_i hv
    rw [hv] at hotp
    exact hotp
  · rename_i db₁ hv
    rw [hv] at hotp
    have huser : Carried (· = d.sessionId) db₁ (findOrCreateUser env (normalizePhone phone)
        (env.hmacSha256 (normalizePhone phone) env.phoneHashPepper) d db₁).2 :=
      findOrCreateUser_carried env _ _ d db₁
    split
    · rename_i hf
      rw [hf] at huser
      exact hotp.trans huser
    · rename_i hf
      rw [hf] at huser
      exact (hotp.trans huser).trans (issueUnlessSuspended_carried env now _ sm d none _)

theorem logout_carried (env : AuthEnv) (now : Time) (user : AuthenticatedUser) (t : Option String)
    (deviceId : Option Id) (db : Db) : Carried draw db (logout env now user t deviceId db) := by
  unfold logout
  dsimp only
  have hdevices : ∀ (db₁ : Db) (devices : List Device), Carried draw db db₁ →
      Carried draw db { db₁ with devices } :=
    fun db₁ devices h => h.trans (carried_of_eq rfl rfl)
  cases truthy t with
  | none =>
      dsimp only
      split
      · exact revokeWhere_carried _ now db
      · exact hdevices _ _ (revokeWhere_carried _ now db)
  | some token =>
      dsimp only
      split
      · exact revokeWhere_carried _ now db
      · exact hdevices _ _ (revokeWhere_carried _ now db)

theorem suspendTx_tickets {now : Time} {sid actor target : Id} {dto : SuspendUserDto}
    {r : SuspendResult} (h : suspendTx now sid actor target dto db = .ok (r, db')) :
    db'.socketTickets = db.socketTickets := by
  unfold suspendTx at h
  split at h
  · cases h
  · split at h
    · cases h
    · simp only [Except.ok.injEq, Prod.mk.injEq] at h
      obtain ⟨_, rfl⟩ := h
      unfold auditWrite
      dsimp only
      split <;> split <;> rfl

theorem suspendUser_carried (now : Time) (sid actor : Id) (role : UserRole) (target : Id)
    (dto : SuspendUserDto) (db : Db) :
    Carried draw db (suspendUser now sid actor role target dto db).2 := by
  unfold suspendUser
  split
  · exact carried_of_eq rfl rfl
  · split
    · exact carried_of_eq rfl rfl
    · rename_i htx
      exact revoke_carried db (suspendTx_tokens htx) (suspendTx_tickets htx)

theorem unsuspendUser_carried (now : Time) (actor : Id) (role : UserRole) (target : Id)
    (reason : Option String) (db : Db) :
    Carried draw db (unsuspendUser now actor role target reason db).2 := by
  unfold unsuspendUser
  split
  · exact carried_of_eq rfl rfl
  · split <;> exact carried_of_eq rfl rfl

theorem runReactivation_carried (now : Time) (fails : Id → Bool) (db : Db) :
    Carried draw db (runReactivation now fails db).2 := by
  have hloop : ∀ (rest : List UserSuspension) (acc : Nat × Db), Carried draw db acc.2 →
      Carried draw db (rest.foldl (fun (acc : Nat × Db) suspension =>
        if fails suspension.id then acc
        else (acc.1 + 1, reactivateOne suspension.id suspension.userId
          (suspension.expiresAt.getD now) now acc.2)) acc).2 := by
    intro rest
    induction rest with
    | nil => exact fun acc h => h
    | cons x rest ih =>
        intro acc h
        rw [List.foldl_cons]
        apply ih
        split
        · exact h
        · exact h.trans (carried_of_eq rfl rfl)
  exact hloop _ (0, db) (carried_of_eq rfl rfl)

theorem prune_carried (now : Time) (reports metrics : Int) (db : Db) :
    Carried draw db (prune now reports metrics db) where
  tokens r hr := Or.inl ⟨r, (List.mem_filter.mp hr).1, rfl, rfl, id⟩
  tickets t ht := ⟨t, (List.mem_filter.mp ht).1, rfl, rfl⟩
  keys hk := hk.filter _

end

/-- The session id a call draws. -/
def drawnBy : Guard.TimedOp → Option Id
  | ⟨_, .call (.verifyOtp _ _ _ d)⟩ => some d.sessionId
  | ⟨_, .call (.refresh _ _ d)⟩ => some d.sessionId
  | _ => none

theorem guard_step_carried (env : AuthEnv) (db : Db) (o : Guard.TimedOp) :
    Carried (fun id => drawnBy o = some id) db (Guard.step env db o) := by
  have hmono : ∀ {sessionId : Id} {db' : Db}, Carried (· = sessionId) db db' →
      Carried (fun id => some sessionId = some id) db db' := by
    intro sessionId db' h
    exact ⟨fun r hr => (h.tokens r hr).imp_right fun he => congrArg some he.symm, h.tickets, h.keys⟩
  obtain ⟨now, op⟩ := o
  cases op with
  | call op =>
      cases op with
      | verifyOtp phone code sm d => exact hmono (verifyOtp_carried env now phone code sm d db)
      | refresh t sm d => exact hmono (refresh_carried env now t sm d db)
      | logout user t deviceId => exact logout_carried env now user t deviceId db
      | suspendUser sid actor role target dto =>
          exact suspendUser_carried now sid actor role target dto db
      | unsuspendUser actor role target reason =>
          exact unsuspendUser_carried now actor role target reason db
      | prune reports metrics => exact prune_carried now reports metrics db
  | reactivateExpired fails => exact runReactivation_carried now fails db

theorem createSocketTicket_rows (env : AuthEnv) (ttlSeconds : Option Int)
    (now : Time) (user : AuthenticatedUser) (deviceId : Id) (d : TicketDraws) (db : Db) :
    (createSocketTicket env ttlSeconds now user deviceId d db).2.refreshTokens = db.refreshTokens ∧
      ∀ t ∈ (createSocketTicket env ttlSeconds now user deviceId d db).2.socketTickets,
        t ∈ db.socketTickets ∨ (t.userId = user.userId ∧ t.sessionId = user.sessionId) := by
  unfold createSocketTicket
  split
  · exact ⟨rfl, fun t ht => Or.inl ht⟩
  · split
    · exact ⟨rfl, fun t ht => Or.inl ht⟩
    · refine ⟨rfl, ?_⟩
      intro t ht
      rcases List.mem_append.mp ht with ht | ht
      · exact Or.inl ht
      · obtain rfl := List.mem_singleton.mp ht
        exact Or.inr ⟨rfl, rfl⟩

theorem consumeWrites_carried {draw : Id → Prop} (c : Consume) (ticketId deviceId : Id) (db : Db) :
    Carried draw db (consumeWrites c ticketId deviceId db) where
  tokens r hr := Or.inl ⟨r, hr, rfl, rfl, id⟩
  tickets t' ht' := by
    obtain ⟨t, ht, rfl⟩ := Rows.mem_updateMany.mp ht'
    refine ⟨t, ht, ?_⟩
    split
    · exact ⟨rfl, rfl⟩
    · exact ⟨rfl, rfl⟩
  keys hk := hk

/-- The gateway itself only marks tickets and devices. -/
theorem gateway_carried {draw : Id → Prop} (s : Gateway.State) (a : Gateway.Act)
    (hstore : ∀ db, a = .store db → Carried draw s.db db) :
    Carried draw s.db (Gateway.step env s a).db := by
  rcases Gateway.step_db env s a with hsame | ha | ⟨c, ticketId, deviceId, hconsumed⟩
  · rw [hsame]
    exact carried_of_eq rfl rfl
  · exact hstore _ ha
  · rw [hconsumed]
    exact consumeWrites_carried c ticketId deviceId s.db

/-- A ticket that a connection has found was found before or is stored. -/
theorem found_origin {s : Gateway.State} {a : Gateway.Act} {x : Gateway.Socket} {c : Consume}
    {t : SocketTicket} (hx : x ∈ (Gateway.step env s a).sockets) (hphase : x.phase = .found c t) :
    (∃ y ∈ s.sockets, y.phase = .found c t) ∨ t ∈ s.db.socketTickets := by
  generalize htarget : Gateway.step env s a = s' at hx
  have heff := Gateway.step_effect env s a
  rw [htarget] at heff
  cases heff with
  | emits frames hs hk hf hroom => exact Or.inl ⟨x, hs ▸ hx, hphase⟩
  | fetched k u ha hs hk hf => exact Or.inl ⟨x, hs ▸ hx, hphase⟩
  | arrives id authTicket queryTicket now frames ha hfresh hs hk hf hroom =>
      rw [hs] at hx
      rcases List.mem_append.mp hx with hx | hx
      · exact Or.inl ⟨x, hx, hphase⟩
      · obtain rfl := List.mem_singleton.mp hx
        unfold Gateway.arrive at hphase
        split at hphase <;> cases hphase
  | moves y y' frames hy hid hmove hs hk hf hroom =>
      rw [hs] at hx
      obtain ⟨z, hz, rfl⟩ := Rows.mem_updateMany.mp hx
      split at hphase
      · cases hmove with
        | left phase hp =>
            rcases hp with rfl | rfl
            · exact Or.inl ⟨y, hy, hphase⟩
            · cases hphase
        | found c' t' ha hy' ht =>
            cases hphase
            exact Or.inr (Tickets.findTicket_ok ht).1
        | active c' t' ha hy' ht => cases hphase
        | ready c' t' d ha hy' ht => cases hphase
        | consumed c' t' deviceId hy' => cases hphase
        | joined auth hy' =>
            rw [Gateway.join_phase] at hphase
            cases hphase
        | registered auth hy' =>
            rw [Gateway.join_phase] at hphase
            cases hphase
        | done auth hy' => cases hphase
      · exact Or.inl ⟨z, hz, hphase⟩
  | kicked k reason u ids ha hkick hs hk hf =>
      rw [hs] at hx
      obtain ⟨z, hz, rfl⟩ := Rows.mem_updateMany.mp hx
      split at hphase
      · exact Or.inl ⟨z, hz, hphase⟩
      · exact Or.inl ⟨z, hz, hphase⟩

end Birgap.Realtime.Suspended
