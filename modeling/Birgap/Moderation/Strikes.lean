import Birgap.Moderation.Agreement
import Birgap.Moderation.Audited

/-!
# The strike tally

`User.strikeCount` is a tally kept beside the table it counts: a suspension adds a row and a
strike, `resetStrikes` puts the tally back to zero, and nothing else touches it. Calls read
first and commit later, and any other call may commit in between.
-/
namespace Birgap.Moderation.Strikes

set_option autoImplicit false

open Birgap.Lib Birgap.Lib.Run Birgap.Moderation
open Birgap.Moderation.Agreement (Flight suspendTx_ok)
open Birgap.Moderation.Audited (resetCheck resetAudit)

/-- A call of `resetStrikes` past its check, with the tally it has read. -/
structure Resetting where
  actorUserId : Id
  targetUserId : Id
  reason : String
  previousCount : Nat

/-- `resetAt` remembers for each user how many suspensions were stored when the last reset of
the user was committed. -/
structure State where
  db : Db
  flights : Nat → Flight
  resets : Nat → Option Resetting
  resetAt : Id → Nat

inductive Act where
  | suspension (a : Agreement.Act)
  | resetRead (pid : Nat) (actorUserId : Id) (actorRole : UserRole) (targetUserId : Id)
      (reason : String)
  | resetCommit (pid : Nat)
  | resetFail (pid : Nat) (audited : Bool)

/-- The checks of `resetStrikes`. -/
def resetRead (actorUserId : Id) (actorRole : UserRole) (targetUserId : Id) (reason : String)
    (db : Db) : Except Err Resetting :=
  if actorRole ≠ .admin then .error (.forbidden "Admin role required to reset strikes")
  else
    match resetCheck targetUserId db with
    | .error e => .error e
    | .ok target => .ok { actorUserId, targetUserId, reason, previousCount := target.strikeCount }

def noStrikes (u : User) : User := { u with strikeCount := 0, lastStrikeAt := none }

/-- The transaction of `resetStrikes`. -/
def resetTx (r : Resetting) (db : Db) : Except Err Db :=
  if (findUser r.targetUserId db).isNone then .error (.failure "Record to update not found.")
  else
    .ok (auditWrite (resetAudit r.actorUserId r.targetUserId r.reason r.previousCount)
      (updateUser r.targetUserId noStrikes db))

def step (s : State) : Act → State
  | .suspension a =>
      let s' := Agreement.step { db := s.db, flights := s.flights } a
      { s with db := s'.db, flights := s'.flights }
  | .resetRead pid actor role target reason =>
      match s.resets pid, resetRead actor role target reason s.db with
      | none, .ok r => { s with resets := Function.update s.resets pid (some r) }
      | _, _ => s
  | .resetCommit pid =>
      match s.resets pid with
      | none => s
      | some r =>
          match resetTx r s.db with
          | .error _ => { s with resets := Function.update s.resets pid none }
          | .ok db =>
              { s with
                db
                resets := Function.update s.resets pid none
                resetAt := Function.update s.resetAt r.targetUserId db.userSuspensions.length }
  | .resetFail pid audited =>
      -- the audit row goes through the base client: a rollback does not take it back
      match s.resets pid with
      | none => s
      | some r =>
          let row := resetAudit r.actorUserId r.targetUserId r.reason r.previousCount
          { s with
            db := if audited then auditWrite row s.db else s.db
            resets := Function.update s.resets pid none }

/-- The suspensions of a user since the last reset, given how many rows are older. -/
def sinceReset (resetAt : Id → Nat) (userId : Id) (db : Db) : List UserSuspension :=
  (db.userSuspensions.drop (resetAt userId)).filter (·.userId == userId)

/-- The tally of every user is the number of suspensions since the last reset. -/
structure Tallied (resetAt : Id → Nat) (db : Db) : Prop where
  count : ∀ u ∈ db.users, u.strikeCount = (sinceReset resetAt u.id db).length
  last : ∀ u ∈ db.users, u.lastStrikeAt = none ↔ u.strikeCount = 0

structure Inv (s : State) : Prop where
  tallied : Tallied s.resetAt s.db
  stored : ∀ userId, s.resetAt userId ≤ s.db.userSuspensions.length

/-- Users without strikes, and no suspension yet. -/
def start (db : Db) : State :=
  { db := { db with users := db.users.map noStrikes, userSuspensions := [] }
    flights := fun _ => .idle, resets := fun _ => none, resetAt := fun _ => 0 }

/-! ## What a transaction does to the tally -/

/-- The history as far as the tally looks at it: whose suspensions there are, in order. -/
theorem sinceReset_length (resetAt : Id → Nat) (userId : Id) (db : Db) :
    (sinceReset resetAt userId db).length =
      ((db.userSuspensions.map (·.userId)).drop (resetAt userId)).count userId := by
  unfold sinceReset
  rw [← List.countP_eq_length_filter, List.count, ← List.map_drop, List.countP_map]
  rfl

/-- Users that keep their tally beside a history that keeps its owners. -/
theorem Tallied.keep {resetAt : Id → Nat} {db db' : Db} (h : Tallied resetAt db)
    (husers : ∀ v ∈ db'.users, ∃ u ∈ db.users, v.id = u.id ∧ v.strikeCount = u.strikeCount ∧
      v.lastStrikeAt = u.lastStrikeAt)
    (hrows : db'.userSuspensions.map (·.userId) = db.userSuspensions.map (·.userId)) :
    Tallied resetAt db' := by
  constructor
  · intro v hv
    obtain ⟨u, hu, hid, hcount, _⟩ := husers v hv
    rw [hcount, h.count u hu, hid, sinceReset_length, sinceReset_length, hrows]
  · intro v hv
    obtain ⟨u, hu, _, hcount, hlast⟩ := husers v hv
    rw [hcount, hlast]
    exact h.last u hu

/-- A suspension adds one row and one strike. -/
theorem Tallied.suspend {resetAt : Id → Nat} {now : Time} {sid actor target : Id}
    {dto : SuspendUserDto} {db db' : Db} {r : SuspendResult} (h : Tallied resetAt db)
    (hstored : ∀ userId, resetAt userId ≤ db.userSuspensions.length)
    (htx : suspendTx now sid actor target dto db = .ok (r, db')) : Tallied resetAt db' := by
  obtain ⟨_, _, husers, hrows⟩ := suspendTx_ok htx
  have hsince : ∀ userId, (sinceReset resetAt userId db').length =
      (sinceReset resetAt userId db).length + if target = userId then 1 else 0 := by
    intro userId
    have hdrop : (db.userSuspensions ++ [newSuspension now sid actor target dto]).drop
        (resetAt userId) =
          db.userSuspensions.drop (resetAt userId) ++ [newSuspension now sid actor target dto] :=
      List.drop_append_of_le_length (hstored userId)
    unfold sinceReset
    rw [hrows, hdrop, List.filter_append, List.length_append]
    by_cases he : target = userId <;> simp [newSuspension, he]
  constructor
  · intro v hv
    rw [husers] at hv
    obtain ⟨u, hu, rfl⟩ := Rows.mem_updateMany.mp hv
    by_cases he : u.id = target
    · simp [he, strike, hsince]
      rw [h.count u hu, he]
    · simp [he, hsince, h.count u hu, Ne.symm he]
  · intro v hv
    rw [husers] at hv
    obtain ⟨u, hu, rfl⟩ := Rows.mem_updateMany.mp hv
    by_cases he : u.id = target
    · simp [he, strike]
    · simpa [he] using h.last u hu

/-- After a reset nothing counts. -/
theorem Tallied.reset {resetAt : Id → Nat} {r : Resetting} {db db' : Db} (h : Tallied resetAt db)
    (htx : resetTx r db = .ok db') :
    Tallied (Function.update resetAt r.targetUserId db'.userSuspensions.length) db' ∧
      db'.userSuspensions = db.userSuspensions := by
  unfold resetTx at htx
  split at htx
  · cases htx
  · obtain rfl := Except.ok.inj htx
    refine ⟨⟨?_, ?_⟩, rfl⟩
    · intro v hv
      rcases mem_updateUser.mp hv with ⟨u, hu, hid, rfl⟩ | ⟨hv, hid⟩
      · show 0 = _
        unfold sinceReset
        rw [show (noStrikes u).id = r.targetUserId from hid, Function.update_self, List.drop_length]
        rfl
      · unfold sinceReset
        rw [Function.update_of_ne hid]
        exact h.count v hv
    · intro v hv
      rcases mem_updateUser.mp hv with ⟨u, hu, hid, rfl⟩ | ⟨hv, hid⟩
      · simp [noStrikes]
      · exact h.last v hv

theorem Tallied.lift {resetAt : Id → Nat} {db : Db} (h : Tallied resetAt db) (at_ : Time)
    (by_ : Option Id) (reason : Option String) (sid userId : Id) :
    Tallied resetAt (liftSuspension at_ by_ reason sid userId db) := by
  refine h.keep ?_ ?_
  · intro v hv
    rcases mem_updateUser.mp hv with ⟨u, hu, _, rfl⟩ | ⟨hv, _⟩
    · exact ⟨u, hu, rfl, rfl, rfl⟩
    · exact ⟨v, hv, rfl, rfl, rfl⟩
  · show (Rows.updateMany _ _ db.userSuspensions).map _ = _
    let lift := fun x : UserSuspension =>
      { x with revokedAt := some at_, revokedByUserId := by_, revokeReason := reason }
    exact Rows.map_updateMany (f := lift) (g := (·.userId)) (fun _ => rfl) db.userSuspensions

/-! ## Every run -/

/-- The steps of the suspension calls. -/
theorem suspension_tallied {resetAt : Id → Nat} {s : Agreement.State}
    (h : Tallied resetAt s.db) (hstored : ∀ userId, resetAt userId ≤ s.db.userSuspensions.length)
    (a : Agreement.Act) : Tallied resetAt (Agreement.step s a).db ∧
      s.db.userSuspensions.length ≤ (Agreement.step s a).db.userSuspensions.length := by
  have hlift : ∀ at_ by_ reason sid userId, s.db.userSuspensions.length ≤
      (liftSuspension at_ by_ reason sid userId s.db).userSuspensions.length := by
    intro at_ by_ reason sid userId
    show _ ≤ (Rows.updateMany _ _ _).length
    rw [Rows.updateMany, List.length_map]
  cases a with
  | suspendRead pid now actor role target dto =>
      simp only [Agreement.step]
      split <;> exact ⟨h, le_rfl⟩
  | suspendCommit pid now sid =>
      simp only [Agreement.step]
      split
      · split
        · rename_i db htx
          refine ⟨h.suspend hstored htx, ?_⟩
          show _ ≤ db.userSuspensions.length
          rw [(suspendTx_ok htx).2.2.2, List.length_append]
          omega
        · exact ⟨h, le_rfl⟩
      · exact ⟨h, le_rfl⟩
  | unsuspendRead pid actor role target reason =>
      simp only [Agreement.step]
      split <;> exact ⟨h, le_rfl⟩
  | unsuspendFind pid =>
      simp only [Agreement.step]
      split
      · split <;> exact ⟨h, le_rfl⟩
      · exact ⟨h, le_rfl⟩
  | unsuspendCommit pid now =>
      simp only [Agreement.step]
      split
      · rename_i actor target reason activeId _
        have hafter := h.lift now (some actor) reason activeId target
        exact ⟨⟨hafter.count, hafter.last⟩, hlift now (some actor) reason activeId target⟩
      · exact ⟨h, le_rfl⟩
  | cronRead pid now =>
      simp only [Agreement.step]
      split <;> exact ⟨h, le_rfl⟩
  | cronCommit pid =>
      simp only [Agreement.step]
      split
      · rename_i now x rest _
        have hafter := h.lift now none (some "auto: expired") x.id x.userId
        exact ⟨⟨hafter.count, hafter.last⟩, hlift now none (some "auto: expired") x.id x.userId⟩
      · exact ⟨h, le_rfl⟩
  | fail pid =>
      simp only [Agreement.step]
      split <;> exact ⟨h, le_rfl⟩

theorem step_inv (s : State) (a : Act) (h : Inv s) : Inv (step s a) := by
  cases a with
  | suspension a =>
      obtain ⟨htallied, hgrows⟩ := suspension_tallied (s := { db := s.db, flights := s.flights })
        h.tallied h.stored a
      exact ⟨htallied, fun userId => (h.stored userId).trans hgrows⟩
  | resetRead pid actor role target reason =>
      simp only [step]
      split
      · exact ⟨h.tallied, h.stored⟩
      · exact h
  | resetCommit pid =>
      simp only [step]
      split
      · exact h
      · split
        · exact ⟨h.tallied, h.stored⟩
        · rename_i r _ _ db htx
          obtain ⟨htallied, hrows⟩ := h.tallied.reset htx
          refine ⟨htallied, fun userId => ?_⟩
          show Function.update s.resetAt r.targetUserId _ userId ≤ _
          by_cases he : userId = r.targetUserId
          · rw [he, Function.update_self]
          · rw [Function.update_of_ne he]
            show _ ≤ db.userSuspensions.length
            rw [hrows]
            exact h.stored userId
  | resetFail pid audited =>
      simp only [step]
      split
      · exact h
      · cases audited
        · exact ⟨h.tallied, h.stored⟩
        · exact ⟨⟨h.tallied.count, h.tallied.last⟩, h.stored⟩

theorem start_inv (db : Db) : Inv (start db) := by
  refine ⟨⟨?_, ?_⟩, fun _ => Nat.zero_le _⟩
  · intro v hv
    obtain ⟨u, _, rfl⟩ := List.mem_map.mp hv
    rfl
  · intro v hv
    obtain ⟨u, _, rfl⟩ := List.mem_map.mp hv
    simp [noStrikes]

/-- In whatever order the transactions commit, every tally is the number of suspensions
since the last reset, and a user without strikes has no time of a last one. -/
theorem tally_counts_history (db : Db) (acts : List Act) :
    Always step (fun s => Tallied s.resetAt s.db) (start db) acts := by
  intro pre _
  exact (run_invariant step_inv pre (start db) (start_inv db)).tallied

end Birgap.Moderation.Strikes
