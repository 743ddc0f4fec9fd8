import Birgap.Realtime.Suspended

/-!
# What a suspension does to the sockets

A suspension revokes the sessions of a user and then has the sockets of the user kicked. As long
as the user stays suspended no connection passes the check of its session any more, so a kick
leaves only those that were past it.
-/
namespace Birgap.Realtime.Suspended

set_option autoImplicit false

open Birgap.Lib Birgap.Lib.Run Birgap.Common Birgap.Moderation Birgap.Auth Birgap.Auth.Guard
open Birgap.Realtime.Gateway (Past Racing Room)

variable {env : AuthEnv} {verifyAsync : String → Option AccessTokenPayload}
variable {ttlSeconds : Option Int}

/-! ## Claims of a user to a session -/

/-- A ticket, a connection that has found one, or a caller past the guard names the session. -/
inductive Holds (s : State) (userId sessionId : Id) : Prop where
  | ticket (t : SocketTicket) (ht : t ∈ s.gate.db.socketTickets) (huser : t.userId = userId)
      (hsession : t.sessionId = sessionId)
  | socket (x : Gateway.Socket) (c : Consume) (t : SocketTicket) (hx : x ∈ s.gate.sockets)
      (hphase : x.phase = .found c t) (huser : t.userId = userId) (hsession : t.sessionId = sessionId)
  | caller (pid : Nat) (user : AuthenticatedUser) (hcaller : s.callers pid = some user)
      (huser : user.userId = userId) (hsession : user.sessionId = sessionId)

/-- The session id an act draws. -/
def draws : Act → Option Id
  | .call o => drawnBy o
  | .issue _ _ _ d _ => some d.sessionId
  | _ => none

/-- A drawn session id is named by nothing yet. -/
def FreshDraw (s : State) (a : Act) : Prop :=
  ∀ sessionId, draws a = some sessionId → ∀ userId, ¬ Holds s userId sessionId

/-- Session ids are unique, and what names a stored session belongs to its user. -/
structure Owned (s : State) : Prop where
  keys : Rows.Unique (·.id) s.gate.db.refreshTokens
  owner : ∀ userId sessionId, Holds s userId sessionId →
    ∀ r ∈ s.gate.db.refreshTokens, r.id = sessionId → r.userId = userId

/-- The sessions a user has a claim to are revoked or gone. -/
def Dead (userId : Id) (s : State) : Prop :=
  ∀ sessionId, Holds s userId sessionId →
    ∀ r ∈ s.gate.db.refreshTokens, r.id = sessionId → r.revokedAt ≠ none

/-- The user is flagged as suspended. -/
def Flagged (userId : Id) (s : State) : Prop :=
  ∀ u ∈ s.gate.db.users, u.id = userId → u.status = .suspended

/-- Whom the guard lets through has a live session of their own and is not suspended. -/
theorem canActivate_ok {now : Time} {authorization : Option String} {db : Db}
    {user : AuthenticatedUser} (h : canActivate env verifyAsync now authorization db = .ok user) :
    (∃ r ∈ db.refreshTokens, r.id = user.sessionId ∧ r.userId = user.userId) ∧
      ∃ u ∈ db.users, u.id = user.userId ∧ u.status ≠ .suspended := by
  unfold canActivate at h
  split at h
  · cases h
  split at h
  · cases h
  split at h
  · cases h
  rename_i payload _ _ session hsession
  split at h
  · cases h
  rename_i u hu
  split at h
  · cases h
  rename_i hsound
  split at h
  · cases h
  rename_i hactive
  obtain rfl := Except.ok.inj h
  obtain ⟨hsub, _⟩ := not_or.mp hsound
  have hsub := not_not.mp hsub
  obtain ⟨hmem, hid⟩ := findUser_some hu
  refine ⟨⟨session, List.mem_of_find?_eq_some hsession, ?_, hsub⟩, u, hmem, hid.trans hsub, hactive⟩
  simpa using List.find?_some hsession

/-- The act is the guard letting a caller through. -/
def LetsIn (env : AuthEnv) (verifyAsync : String → Option AccessTokenPayload) (s : State) (a : Act)
    (userId sessionId : Id) : Prop :=
  ∃ pid now authorization user, a = .authorize pid now authorization ∧
    canActivate env verifyAsync now authorization s.gate.db = .ok user ∧
    user.userId = userId ∧ user.sessionId = sessionId

section

variable {s : State} {a : Act}

/-- The sessions go back to earlier ones or have the id the act draws, and their ids stay unique. -/
structure TokensFrom (s : State) (a : Act) (db : Db) : Prop where
  tokens : ∀ r' ∈ db.refreshTokens,
    (∃ r ∈ s.gate.db.refreshTokens, Continues r r') ∨ draws a = some r'.id
  keys : Rows.Unique (·.id) s.gate.db.refreshTokens → Rows.Unique (·.id) db.refreshTokens

theorem tokensFrom_of_carried {draw : Id → Prop} {db : Db} (h : Carried draw s.gate.db db)
    (hdraw : ∀ id, draw id → draws a = some id) : TokensFrom s a db :=
  ⟨fun r hr => (h.tokens r hr).imp_right (hdraw r.id), h.keys⟩

theorem serve_tokens (env : AuthEnv) (verifyAsync : String → Option AccessTokenPayload)
    (ttlSeconds : Option Int) (s : State) (a : Act) :
    TokensFrom s a (serve env verifyAsync ttlSeconds s a).1 := by
  have hsame : ∀ db : Db, db.refreshTokens = s.gate.db.refreshTokens → TokensFrom s a db := by
    intro db h
    exact ⟨fun r hr => Or.inl ⟨r, h ▸ hr, rfl, rfl, id⟩, fun hk => by rw [h]; exact hk⟩
  cases a with
  | gateway a => exact hsame _ rfl
  | call o => exact tokensFrom_of_carried (guard_step_carried env s.gate.db o) fun id h => h
  | issue now userId sm d familyId =>
      exact tokensFrom_of_carried (issueTokenPair_carried env now userId sm d familyId s.gate.db)
        fun id h => congrArg some h.symm
  | authorize pid now authorization =>
      simp only [serve]
      split
      · exact hsame _ rfl
      · exact hsame _ rfl
  | create pid now deviceId d =>
      simp only [serve]
      split
      · exact hsame _ rfl
      · exact hsame _ (createSocketTicket_rows env ttlSeconds now _ deviceId d s.gate.db).1
  | rest db => exact hsame _ rfl

/-- An act of the gateway other than `store` is its own. -/
theorem gateway_act_carried {draw : Id → Prop} (s : State) (b : Gateway.Act) :
    Carried draw s.gate.db (step env verifyAsync ttlSeconds s (.gateway b)).gate.db := by
  refine gateway_carried s.gate _ ?_
  intro db hdb
  cases b with
  | store db' =>
      cases hdb
      exact carried_of_eq rfl rfl
  | _ => cases hdb

theorem step_tokens (env : AuthEnv) (verifyAsync : String → Option AccessTokenPayload)
    (ttlSeconds : Option Int) (s : State) (a : Act) :
    TokensFrom s a (step env verifyAsync ttlSeconds s a).gate.db := by
  cases a with
  | gateway b =>
      have hcarried : Carried (fun _ => False) s.gate.db
        (step env verifyAsync ttlSeconds s (.gateway b)).gate.db := gateway_act_carried s b
      exact tokensFrom_of_carried hcarried fun _ h => h.elim
  | call o => exact serve_tokens env verifyAsync ttlSeconds s _
  | issue now userId sm d familyId => exact serve_tokens env verifyAsync ttlSeconds s _
  | authorize pid now authorization => exact serve_tokens env verifyAsync ttlSeconds s _
  | create pid now deviceId d => exact serve_tokens env verifyAsync ttlSeconds s _
  | rest db => exact serve_tokens env verifyAsync ttlSeconds s _

/-- Every ticket speaks for a claim there was before. -/
theorem step_tickets {t' : SocketTicket}
    (ht' : t' ∈ (step env verifyAsync ttlSeconds s a).gate.db.socketTickets) :
    Holds s t'.userId t'.sessionId := by
  have hcarried : ∀ {draw : Id → Prop} {db : Db}, Carried draw s.gate.db db →
      t' ∈ db.socketTickets → Holds s t'.userId t'.sessionId := by
    intro draw db h ht
    obtain ⟨t, ht, hu, hs⟩ := h.tickets t' ht
    exact .ticket t ht hu.symm hs.symm
  cases a with
  | gateway b =>
      have hgate : Carried (fun _ => False) s.gate.db
        (step env verifyAsync ttlSeconds s (.gateway b)).gate.db := gateway_act_carried s b
      exact hcarried hgate ht'
  | call o => exact hcarried (guard_step_carried env s.gate.db o) ht'
  | issue now userId sm d familyId =>
      exact hcarried (issueTokenPair_carried env now userId sm d familyId s.gate.db) ht'
  | authorize pid now authorization =>
      have ht : t' ∈ (serve env verifyAsync ttlSeconds s
        (.authorize pid now authorization)).1.socketTickets := ht'
      simp only [serve] at ht
      split at ht
      · exact .ticket t' ht rfl rfl
      · exact .ticket t' ht rfl rfl
  | create pid now deviceId d =>
      have ht : t' ∈ (serve env verifyAsync ttlSeconds s
        (.create pid now deviceId d)).1.socketTickets := ht'
      simp only [serve] at ht
      split at ht
      · exact .ticket t' ht rfl rfl
      · rename_i user hcaller
        rcases (createSocketTicket_rows env ttlSeconds now user deviceId d s.gate.db).2 t' ht with
          ht | ⟨hu, hs⟩
        · exact .ticket t' ht rfl rfl
        · exact .caller pid user hcaller hu.symm hs.symm
  | rest db => exact .ticket t' ht' rfl rfl

theorem serve_callers {pid : Nat} {user : AuthenticatedUser}
    (h : (serve env verifyAsync ttlSeconds s a).2 pid = some user) :
    s.callers pid = some user ∨ ∃ now authorization, a = .authorize pid now authorization ∧
      canActivate env verifyAsync now authorization s.gate.db = .ok user := by
  cases a with
  | authorize pid' now authorization =>
      simp only [serve] at h
      by_cases hpid : pid = pid'
      · subst hpid
        split at h
        · dsimp only at h
          rw [Function.update_self] at h
          cases h
        · rename_i user' hguard
          dsimp only at h
          rw [Function.update_self] at h
          exact Or.inr ⟨now, authorization, rfl, hguard.trans (congrArg Except.ok (Option.some.inj h))⟩
      · split at h <;> (dsimp only at h; rw [Function.update_of_ne hpid] at h; exact Or.inl h)
  | create pid' now deviceId d =>
      simp only [serve] at h
      split at h
      · exact Or.inl h
      · dsimp only at h
        by_cases hpid : pid = pid'
        · subst hpid
          rw [Function.update_self] at h
          cases h
        · rw [Function.update_of_ne hpid] at h
          exact Or.inl h
  | _ => exact Or.inl h

/-- Only the guard makes a new claim. -/
theorem step_holds {userId sessionId : Id}
    (h : Holds (step env verifyAsync ttlSeconds s a) userId sessionId) :
    Holds s userId sessionId ∨ LetsIn env verifyAsync s a userId sessionId := by
  cases h with
  | ticket t ht huser hsession =>
      subst huser hsession
      exact Or.inl (step_tickets ht)
  | socket x c t hx hphase huser hsession =>
      rcases found_origin hx hphase with ⟨y, hy, hy'⟩ | ht
      · exact Or.inl (.socket y c t hy hy' huser hsession)
      · exact Or.inl (.ticket t ht huser hsession)
  | caller pid user hcaller huser hsession =>
      rcases serve_callers hcaller with hcaller | ⟨now, authorization, ha, hguard⟩
      · exact Or.inl (.caller pid user hcaller huser hsession)
      · exact Or.inr ⟨pid, now, authorization, user, ha, hguard, huser, hsession⟩

/-! ## One step -/

theorem LetsIn.draws {userId sessionId : Id} (h : LetsIn env verifyAsync s a userId sessionId) :
    draws a = none := by
  obtain ⟨pid, now, authorization, user, rfl, _⟩ := h
  rfl

theorem step_owned (env : AuthEnv) (verifyAsync : String → Option AccessTokenPayload)
    (ttlSeconds : Option Int) (s : State) (a : Act) (h : Owned s) (hfresh : FreshDraw s a) :
    Owned (step env verifyAsync ttlSeconds s a) := by
  have htokens := step_tokens env verifyAsync ttlSeconds s a
  refine ⟨htokens.keys h.keys, ?_⟩
  intro userId sessionId hholds r' hr' hid
  rcases htokens.tokens r' hr' with ⟨r, hr, hcontinues⟩ | hdraw
  · have hrid : r.id = sessionId := hcontinues.1.symm.trans hid
    rw [hcontinues.2.1]
    rcases step_holds hholds with hholds | ⟨pid, now, authorization, user, _, hguard, rfl, rfl⟩
    · exact h.owner userId sessionId hholds r hr hrid
    · obtain ⟨⟨session, hsession, hsid, howner⟩, _⟩ := canActivate_ok hguard
      rw [h.keys.eq hr hsession (hrid.trans hsid.symm)]
      exact howner
  · rw [hid] at hdraw
    rcases step_holds hholds with hholds | hlets
    · exact absurd hholds (hfresh sessionId hdraw userId)
    · rw [hlets.draws] at hdraw
      cases hdraw

/-- A suspended user gets no claim to a live session. -/
theorem step_dead (env : AuthEnv) (verifyAsync : String → Option AccessTokenPayload)
    (ttlSeconds : Option Int) (s : State) (a : Act) {userId : Id} (h : Dead userId s)
    (hflag : Flagged userId s) (hfresh : FreshDraw s a) :
    Dead userId (step env verifyAsync ttlSeconds s a) := by
  intro sessionId hholds r' hr' hid
  have hbefore : Holds s userId sessionId := by
    rcases step_holds hholds with hholds | ⟨pid, now, authorization, user, _, hguard, rfl, rfl⟩
    · exact hholds
    · obtain ⟨_, u, hu, huid, hactive⟩ := canActivate_ok hguard
      exact absurd (hflag u hu huid) hactive
  rcases (step_tokens env verifyAsync ttlSeconds s a).tokens r' hr' with ⟨r, hr, hcontinues⟩ | hdraw
  · exact hcontinues.2.2 (h sessionId hbefore r hr (hcontinues.1.symm.trans hid))
  · rw [hid] at hdraw
    exact absurd hbefore (hfresh sessionId hdraw userId)

def suspension (now : Time) (sid actor : Id) (role : UserRole) (target : Id) (dto : SuspendUserDto) :
    Act :=
  .call ⟨now, .call (.suspendUser sid actor role target dto)⟩

/-- A suspension that goes through revokes whatever its user has a claim to. -/
theorem suspension_dead (env : AuthEnv) (verifyAsync : String → Option AccessTokenPayload)
    (ttlSeconds : Option Int) (s : State) (h : Owned s) {now : Time} {sid actor : Id}
    {role : UserRole} {target : Id} {dto : SuspendUserDto} {result : SuspendResult}
    (hok : (suspendUser now sid actor role target dto s.gate.db).1 = .ok result) :
    Dead target (step env verifyAsync ttlSeconds s (suspension now sid actor role target dto)) := by
  intro sessionId hholds r' hr' hid
  have hbefore : Holds s target sessionId := by
    rcases step_holds hholds with hholds | ⟨pid, now', authorization, user, ha, _⟩
    · exact hholds
    · cases ha
  have hr : r' ∈ (suspendUser now sid actor role target dto s.gate.db).2.refreshTokens := hr'
  unfold suspendUser at hok hr
  split at hr
  · rename_i hcheck
    rw [hcheck] at hok
    cases hok
  · rename_i hcheck
    split at hr
    · rename_i htx
      rw [hcheck] at hok
      simp only [htx] at hok
      cases hok
    · rename_i htx
      rw [suspendTx_tokens htx] at hr
      obtain ⟨r, hmem, rfl⟩ := Rows.mem_updateMany.mp hr
      split at hid
      · rename_i hmatch
        rw [if_pos hmatch]
        exact Option.some_ne_none now
      · rename_i hmatch
        rw [if_neg hmatch]
        intro hnone
        have howner := h.owner target sessionId hbefore r hmem hid
        exact hmatch (by simp [howner, hnone])

end

/-! ## Whole runs -/

section

variable {s : State} {acts : List Act} {userId : Id}

theorem run_owned (h : Owned s) (hfresh : Along (step env verifyAsync ttlSeconds) FreshDraw s acts) :
    Owned (run (step env verifyAsync ttlSeconds) s acts) :=
  always_of_along (fun s a h hf => step_owned env verifyAsync ttlSeconds s a h hf) acts s h hfresh acts
    (List.prefix_refl _)

theorem always_dead (h : Dead userId s)
    (hflag : Always (step env verifyAsync ttlSeconds) (Flagged userId) s acts)
    (hfresh : Along (step env verifyAsync ttlSeconds) FreshDraw s acts) :
    Always (step env verifyAsync ttlSeconds) (Dead userId) s acts := by
  have hboth : Along (step env verifyAsync ttlSeconds)
      (fun s a => Flagged userId s ∧ FreshDraw s a) s acts := by
    intro pre a hp
    exact ⟨hflag pre ((List.prefix_append pre [a]).trans hp), hfresh pre a hp⟩
  exact always_of_along
    (fun s a h hc => step_dead env verifyAsync ttlSeconds s a h hc.1 hc.2) acts s h hboth

theorem always_before {I : State → Prop} {bs : List Act}
    (h : Always (step env verifyAsync ttlSeconds) I s (acts ++ bs)) :
    Always (step env verifyAsync ttlSeconds) I s acts :=
  fun pre hp => h pre (hp.trans (List.prefix_append acts bs))

theorem always_after {I : State → Prop} {bs : List Act}
    (h : Always (step env verifyAsync ttlSeconds) I s (acts ++ bs)) :
    Always (step env verifyAsync ttlSeconds) I (run (step env verifyAsync ttlSeconds) s acts) bs := by
  intro pre hp
  rw [← run_append]
  exact h (acts ++ pre) ((List.prefix_append_right_inj acts).mpr hp)

/-- No connection passes the check of a session that is revoked. -/
theorem not_checkedSince (h : Always (step env verifyAsync ttlSeconds) (Dead userId) s acts)
    (id : Id) :
    ¬ Gateway.CheckedSince env s.gate ((gate env verifyAsync ttlSeconds).acts s acts) userId id := by
  intro hchecked
  obtain ⟨pre, rest, c, t, hacts, ⟨x, hx, hid, hphase⟩, huser, hlive⟩ := hchecked
  obtain ⟨p, a, q, rfl, rfl, _⟩ := (gate env verifyAsync ttlSeconds).acts_split acts s hacts
  rw [← run_gate] at hx hlive
  obtain ⟨session, hsession, hsid, hrevoked, _⟩ := hlive
  have hholds : Holds (run (step env verifyAsync ttlSeconds) s p) userId t.sessionId :=
    .socket x c t hx hphase huser rfl
  exact h p (List.prefix_append p _) t.sessionId hholds session hsession hsid hrevoked

/-- What the gateway sees of an act is that act, or a write. -/
theorem gateAct_cases (env : AuthEnv) (verifyAsync : String → Option AccessTokenPayload)
    (ttlSeconds : Option Int) (s : State) (a : Act) :
    (∃ db, gateAct env verifyAsync ttlSeconds s a = .store db) ∨
      a = .gateway (gateAct env verifyAsync ttlSeconds s a) := by
  cases a with
  | gateway b =>
      cases b with
      | store db => exact Or.inl ⟨_, rfl⟩
      | _ => exact Or.inr rfl
  | _ => exact Or.inl ⟨_, rfl⟩

theorem not_mem_acts {b : Gateway.Act} (hb : ∀ db, b ≠ .store db)
    (h : ∀ a ∈ acts, a ≠ .gateway b) (s : State) : b ∉ (gate env verifyAsync ttlSeconds).acts s acts := by
  intro hmem
  obtain ⟨t, a, ha, rfl⟩ := (gate env verifyAsync ttlSeconds).mem_acts hmem
  rcases gateAct_cases env verifyAsync ttlSeconds t a with ⟨db, hstore⟩ | hself
  · exact hb db hstore
  · exact h a ha hself

end

/-- A run with a suspension, a kick of the same user that fetches the sockets and then goes over
them, and whatever else happens before, between and after. -/
structure Course where
  before : List Act
  now : Time
  suspensionId : Id
  actor : Id
  role : UserRole
  target : Id
  dto : SuspendUserDto
  between : List Act
  kick : Nat
  during : List Act
  reason : Option String
  after : List Act

namespace Course

variable (c : Course)

def order : Act := suspension c.now c.suspensionId c.actor c.role c.target c.dto

/-- The run up to the suspension. -/
def suspended : List Act := c.before ++ [c.order]

/-- The run up to the kick. -/
def kicking : List Act := c.suspended ++ c.between

def kicked : List Act :=
  .gateway (.fetch c.kick c.target) :: c.during ++ .gateway (.kick c.kick c.reason) :: c.after

def all : List Act := c.suspended ++ (c.between ++ c.kicked)

end Course

/-- What the gateway sees of the kick. -/
theorem kicked_acts (s : State) (c : Course) :
    (gate env verifyAsync ttlSeconds).acts s c.kicked =
      .fetch c.kick c.target ::
        (gate env verifyAsync ttlSeconds).acts
          (step env verifyAsync ttlSeconds s (.gateway (.fetch c.kick c.target))) c.during ++
        .kick c.kick c.reason :: (gate env verifyAsync ttlSeconds).acts
          (step env verifyAsync ttlSeconds (run (step env verifyAsync ttlSeconds)
            (step env verifyAsync ttlSeconds s (.gateway (.fetch c.kick c.target))) c.during)
              (.gateway (.kick c.kick c.reason))) c.after := by
  rw [Course.kicked, List.cons_append, Component.acts_cons, Component.acts_append,
    Component.acts_cons, List.cons_append]
  rfl

theorem past_of_racing {userId : Id} {phase : Gateway.Phase} (h : Racing userId phase) :
    Past userId phase := by
  cases phase with
  | active c t => exact h
  | ready c t deviceId => exact h
  | consumed auth => exact h
  | _ => cases h

/-- In every run in which a user is suspended and then kicked, whatever happens before, between
and after: as long as the user stays suspended, a socket that is connected in the room of the user
had passed the check of its session before the suspension, and had not entered the room when the
kick fetched. -/
theorem suspended_stay_out (env : AuthEnv) (verifyAsync : String → Option AccessTokenPayload)
    (ttlSeconds : Option Int) (db : Db) (c : Course) (result : SuspendResult)
    (hkeys : Rows.Unique (·.id) db.refreshTokens)
    (howned : ∀ t ∈ db.socketTickets, ∀ r ∈ db.refreshTokens, r.id = t.sessionId → r.userId = t.userId)
    (hok : (suspendUser c.now c.suspensionId c.actor c.role c.target c.dto
      (run (step env verifyAsync ttlSeconds) (start db) c.before).gate.db).1 = .ok result)
    (hfetch : ∀ a ∈ c.during, ∀ u, a ≠ .gateway (.fetch c.kick u))
    (hkick : ∀ a ∈ c.during, ∀ r, a ≠ .gateway (.kick c.kick r))
    (hfresh : Along (step env verifyAsync ttlSeconds) FreshDraw (start db) c.all)
    (hflag : Always (step env verifyAsync ttlSeconds) (Flagged c.target)
      (run (step env verifyAsync ttlSeconds) (start db) c.suspended) (c.between ++ c.kicked)) :
    ∀ x ∈ (run (step env verifyAsync ttlSeconds) (start db) c.all).gate.sockets,
      x.connected = true → Room.user c.target ∈ x.rooms →
      (∃ y ∈ (run (step env verifyAsync ttlSeconds) (start db) c.suspended).gate.sockets,
        y.id = x.id ∧ Past c.target y.phase) ∧
      ∃ z ∈ (run (step env verifyAsync ttlSeconds) (start db) c.kicking).gate.sockets,
        z.id = x.id ∧ Racing c.target z.phase := by
  intro x hx hconnected hroom
  have hstart : Owned (start db) := by
    refine ⟨hkeys, ?_⟩
    intro userId sessionId hholds
    cases hholds with
    | ticket t ht huser hsession =>
        subst huser hsession
        exact howned t ht
    | socket y c t hy hphase huser hsession => cases hy
    | caller pid user hcaller huser hsession => cases hcaller
  unfold Course.all at hx hfresh
  obtain ⟨hfresh_before, hfresh_after⟩ := (along_append _ _ _ _ _).mp hfresh
  obtain ⟨hfresh_before, _⟩ := (along_append _ _ _ _ _).mp hfresh_before
  have hsuspended : run (step env verifyAsync ttlSeconds) (start db) c.suspended =
      step env verifyAsync ttlSeconds (run (step env verifyAsync ttlSeconds) (start db) c.before)
        c.order := run_concat _ _ _
  have hdead : Dead c.target (run (step env verifyAsync ttlSeconds) (start db) c.suspended) := by
    rw [hsuspended]
    exact suspension_dead env verifyAsync ttlSeconds _ (run_owned hstart hfresh_before) hok
  have hwf : Gateway.Wf (run (step env verifyAsync ttlSeconds) (start db) c.kicking).gate := by
    rw [run_gate]
    exact (Gateway.run_follows env (Gateway.start_wf db) _).1
  have halways := always_dead hdead hflag hfresh_after
  rw [run_append] at hx
  have hkicking : run (step env verifyAsync ttlSeconds) (start db) c.kicking =
      run (step env verifyAsync ttlSeconds)
        (run (step env verifyAsync ttlSeconds) (start db) c.suspended) c.between := run_append _ _ _ _
  rw [hkicking] at hwf ⊢
  generalize run (step env verifyAsync ttlSeconds) (start db) c.suspended = s₁ at hx halways hwf ⊢
  have hchecked₁ := not_checkedSince (always_before halways) x.id
  have hchecked₂ := not_checkedSince (always_after halways) x.id
  rw [run_append, run_gate, kicked_acts] at hx
  rw [kicked_acts] at hchecked₂
  have hnofetch : ∀ t, ∀ b ∈ (gate env verifyAsync ttlSeconds).acts t c.during,
      ∀ u, b ≠ .fetch c.kick u := by
    intro t b hb u heq
    rw [heq] at hb
    exact not_mem_acts (fun db h => by cases h) (fun a ha => hfetch a ha u) t hb
  have hnokick : ∀ t, ∀ b ∈ (gate env verifyAsync ttlSeconds).acts t c.during,
      ∀ r, b ≠ .kick c.kick r := by
    intro t b hb r heq
    rw [heq] at hb
    exact not_mem_acts (fun db h => by cases h) (fun a ha => hkick a ha r) t hb
  rcases Gateway.kick_leaves env hwf _ _ c.kick c.target c.reason (hnofetch _) (hnokick _) x hx
    hconnected hroom with ⟨z, hz, hid, hracing⟩ | hchecked
  · refine ⟨?_, z, hz, hid, hracing⟩
    rw [run_gate] at hz
    rcases Gateway.run_origin env s₁.gate c.target _ z hz (past_of_racing hracing) with
      ⟨y, hy, hyid, hpast⟩ | hchecked
    · exact ⟨y, hy, hyid.trans hid, hpast⟩
    · exact absurd (hid ▸ hchecked) hchecked₁
  · exact absurd hchecked hchecked₂

/-! ## A sample course -/

theorem fresh_of_no_draw {s : State} {acts : List Act} (h : ∀ a ∈ acts, draws a = none) :
    Along (step env verifyAsync ttlSeconds) FreshDraw s acts := by
  intro pre a hp sessionId hdraw
  rw [h a (hp.subset (by simp))] at hdraw
  cases hdraw

def sampleDb : Db :=
  { Tickets.sampleDb with
    users := [{ id := "root", phoneHash := "1", role := .admin }, { id := "alice", phoneHash := "2" }] }

/-- Alice is suspended and kicked while a connection of hers is past its session check. -/
def sampleCourse : Course where
  before := [.connect "a" (some "ticket-1") none 1000, .find "a", .session "a", .device "a"].map
    .gateway
  now := 2000
  suspensionId := "x1"
  actor := "root"
  role := .admin
  target := "alice"
  dto := {}
  between := []
  kick := 0
  during := [.gateway (.commit "a")]
  reason := none
  after := [.gateway (.enter "a")]

theorem racer_stays_in :
    ∃ x ∈ (run (step sampleEnv (fun _ => none) none) (start sampleDb) sampleCourse.all).gate.sockets,
      x.id = "a" ∧ x.connected = true ∧ Room.user "alice" ∈ x.rooms ∧
      (∃ y ∈ (run (step sampleEnv (fun _ => none) none) (start sampleDb)
          sampleCourse.suspended).gate.sockets, y.id = x.id ∧ Past "alice" y.phase) ∧
      ∃ z ∈ (run (step sampleEnv (fun _ => none) none) (start sampleDb)
          sampleCourse.kicking).gate.sockets, z.id = x.id ∧ Racing "alice" z.phase := by
  have hin : ∃ x ∈ (run (step sampleEnv (fun _ => none) none) (start sampleDb)
      sampleCourse.all).gate.sockets,
      x.id = "a" ∧ x.connected = true ∧ Room.user "alice" ∈ x.rooms := by decide
  obtain ⟨x, hx, hid, hconnected, hroom⟩ := hin
  refine ⟨x, hx, hid, hconnected, hroom, suspended_stay_out sampleEnv (fun _ => none) none sampleDb
    sampleCourse ⟨"x1", 0⟩ (by decide) (by decide) rfl ?_ ?_ (fresh_of_no_draw ?_) ?_ x hx hconnected
    hroom⟩
  · intro a ha u
    obtain rfl := List.mem_singleton.mp ha
    intro h
    cases h
  · intro a ha r
    obtain rfl := List.mem_singleton.mp ha
    intro h
    cases h
  · decide
  · simp only [sampleCourse, Course.kicked, List.nil_append, List.cons_append, always_cons, always_nil]
    unfold Flagged
    decide

end Birgap.Realtime.Suspended
