import Birgap.Groups.Members
import Birgap.Lib.Run
import Mathlib.Logic.Function.Basic

/-!
# The member cache and the broadcasts that read it

`group:<id>:member_ids` in Redis is filled by five handlers and deleted by `addMembers` and
`removeMember`. A handler that misses the cache queries the members, emits to them, and
starts a fill it does not wait for; the fill writes what the query returned, whenever it
lands. Calls, handlers, fills and invalidations interleave freely.
-/
namespace Birgap.Groups.MemberCache

set_option autoImplicit false

open Birgap.Lib Birgap.Lib.Run Birgap.Messages Birgap.Groups

/-- The handlers that fill the cache. -/
inductive Kind where
  | typingStart
  | typingStop
  | groupMessageDeleted
  | platformTombstone
  | reactionFanout
  deriving DecidableEq

/-- Where a call or a handler stands. -/
inductive Proc where
  | idle
  | adding (groupId : Id) (memberIds : List Id)
  | creating (groupId : Id) (newIds : List Id)
  | invalidating (groupId : Id)
  | removing (groupId target : Id)
  | removed (groupId target : Id) (additions : Nat)
  | querying (kind : Kind) (groupId actor : Id)
  | filling (groupId : Id) (memberIds : List Id)

/-- The members, the cached ids (an empty list where the key is absent) and the calls in
flight. Two fields follow the history: how often a user was added to a group, and whether a
removal of the user has returned with its invalidation executed and no addition since. -/
structure State where
  db : Db
  cache : Id → List Id
  procs : Nat → Proc
  additions : Id → Id → Nat
  gone : Id → Id → Bool

inductive Act where
  | addRead (pid : Nat) (userId groupId : Id) (memberIds : List Id)
  | addFind (pid : Nat)
  | addCreate (pid : Nat)
  | addInvalidate (pid : Nat)
  | removeRead (pid : Nat) (userId groupId target : Id)
  | removeDelete (pid : Nat)
  | removeInvalidate (pid : Nat)
  | broadcast (pid : Nat) (kind : Kind) (groupId actor : Id)
  | query (pid : Nat)
  | fill (pid : Nat)
  | expire (groupId : Id)

def State.set (s : State) (pid : Nat) (p : Proc) : State :=
  { s with procs := Function.update s.procs pid p }

/-- `setGroupMemberIds` with the ids, `invalidateGroupMemberIds` with none. -/
def State.put (s : State) (groupId : Id) (ids : List Id) : State :=
  { s with cache := Function.update s.cache groupId ids }

/-- The history after some users were added to a group. -/
def State.added (s : State) (groupId : Id) (ids : List Id) : State :=
  { s with
    additions := fun g u => if g = groupId ∧ u ∈ ids then s.additions g u + 1 else s.additions g u
    gone := fun g u => if g = groupId ∧ u ∈ ids then false else s.gone g u }

/-- The history after the invalidation of a removal, unless the user is back. -/
def State.left (s : State) (groupId target : Id) (additions : Nat) : State :=
  { s with
    gone := fun g u =>
      if g = groupId ∧ u = target ∧ s.additions g u = additions then true else s.gone g u }

def step (s : State) : Act → State
  | .addRead pid userId groupId memberIds =>
      match s.procs pid, assertGroupAdmin userId groupId s.db with
      | .idle, .ok () => s.set pid (.adding groupId memberIds)
      | _, _ => s
  | .addFind pid =>
      match s.procs pid with
      | .adding groupId memberIds =>
          if (newMemberIds groupId memberIds s.db).isEmpty then s.set pid .idle
          else s.set pid (.creating groupId (newMemberIds groupId memberIds s.db))
      | _ => s
  | .addCreate pid =>
      match s.procs pid with
      | .creating groupId ids =>
          match createMembers (membersOf groupId ids) s.db with
          | .ok db => ({ s with db := db }.added groupId ids).set pid (.invalidating groupId)
          | .error _ => s.set pid .idle
      | _ => s
  | .addInvalidate pid =>
      match s.procs pid with
      | .invalidating groupId => (s.put groupId []).set pid .idle
      | _ => s
  | .removeRead pid userId groupId target =>
      match s.procs pid, removeCheck userId groupId target s.db with
      | .idle, .ok () => s.set pid (.removing groupId target)
      | _, _ => s
  | .removeDelete pid =>
      match s.procs pid with
      | .removing groupId target =>
          match deleteMember groupId target s.db with
          | .ok db =>
              { s with db := db }.set pid (.removed groupId target (s.additions groupId target))
          | .error _ => s.set pid .idle
      | _ => s
  | .removeInvalidate pid =>
      match s.procs pid with
      | .removed groupId target additions =>
          ((s.put groupId []).left groupId target additions).set pid .idle
      | _ => s
  | .broadcast pid kind groupId actor =>
      match s.procs pid with
      | .idle => if (s.cache groupId).isEmpty then s.set pid (.querying kind groupId actor) else s
      | _ => s
  | .query pid =>
      match s.procs pid with
      | .querying _ groupId _ => s.set pid (.filling groupId (memberIdsOf groupId s.db))
      | _ => s
  | .fill pid =>
      match s.procs pid with
      | .filling groupId ids => (s.put groupId ids).set pid .idle
      | _ => s
  | .expire groupId => s.put groupId []

/-- An event of a handler for a group, to the room of one user. -/
structure Emission where
  kind : Kind
  groupId : Id
  target : Id
  deriving DecidableEq

/-- Every handler leaves out the user who caused the event. -/
def emit (kind : Kind) (groupId actor : Id) (memberIds : List Id) : List Emission :=
  (memberIds.filter (· != actor)).map fun target => { kind, groupId, target }

/-- What a step emits: a handler that starts with a filled cache emits to the cached ids,
one that missed it emits to what its query returns. -/
def emitted (s : State) : Act → List Emission
  | .broadcast pid kind groupId actor =>
      match s.procs pid with
      | .idle => emit kind groupId actor (s.cache groupId)
      | _ => []
  | .query pid =>
      match s.procs pid with
      | .querying kind groupId actor => emit kind groupId actor (memberIdsOf groupId s.db)
      | _ => []
  | _ => []

/-- No event goes to a user whose removal is complete. -/
def Silent (s : State) (a : Act) : Prop := ∀ e ∈ emitted s a, s.gone e.groupId e.target = false

/-- A fill writes no user whose removal is complete by then. -/
def FillsCurrent (s : State) : Act → Prop
  | .fill pid => ∀ groupId ids, s.procs pid = .filling groupId ids →
      ∀ u ∈ ids, s.gone groupId u = false
  | _ => True

/-- No cached id is one of a user whose removal is complete. -/
def Clean (s : State) : Prop := ∀ g, ∀ u ∈ s.cache g, s.gone g u = false

/-- What the history says about the rows. -/
structure Wf (s : State) : Prop where
  gone : ∀ g u, s.gone g u = true → isMember g u s.db = false
  counted : ∀ pid g u n, s.procs pid = .removed g u n → n ≤ s.additions g u
  removed : ∀ pid g u n, s.procs pid = .removed g u n → n = s.additions g u →
    isMember g u s.db = false

/-- Any members, any cache, no call in flight, nobody removed. -/
def start (db : Db) (cache : Id → List Id) : State :=
  { db, cache, procs := fun _ => .idle, additions := fun _ _ => 0, gone := fun _ _ => false }

theorem start_wf (db : Db) (cache : Id → List Id) : Wf (start db cache) := by
  refine ⟨?_, ?_, ?_⟩
  · intro g u h
    cases h
  · intro pid g u n h
    cases h
  · intro pid g u n h
    cases h

/-! ## One step -/

/-- What a step other than a fill can do. `move` leaves a call at a place that is not a removal
waiting for its invalidation. -/
inductive Effect (s : State) : State → Prop where
  | stay : Effect s s
  | move (pid : Nat) {p : Proc} (hp : ∀ g u n, p ≠ .removed g u n) : Effect s (s.set pid p)
  | add (pid : Nat) {groupId : Id} {ids : List Id} {db : Db}
      (hdb : createMembers (membersOf groupId ids) s.db = .ok db) :
      Effect s (({ s with db := db }.added groupId ids).set pid (.invalidating groupId))
  | delete (pid : Nat) {groupId target : Id} {db : Db}
      (hdb : deleteMember groupId target s.db = .ok db) :
      Effect s ({ s with db := db }.set pid (.removed groupId target (s.additions groupId target)))
  | clear (groupId : Id) : Effect s (s.put groupId [])
  | invalidate (pid : Nat) (groupId : Id) : Effect s ((s.put groupId []).set pid .idle)
  | leave {pid : Nat} {groupId target : Id} {n : Nat}
      (hp : s.procs pid = .removed groupId target n) :
      Effect s (((s.put groupId []).left groupId target n).set pid .idle)

/-- A step is the fill of a call, or has one of the effects above. -/
theorem step_cases (s : State) (a : Act) :
    (∃ pid groupId ids, a = .fill pid ∧ s.procs pid = .filling groupId ids ∧
      step s a = (s.put groupId ids).set pid .idle) ∨
    (FillsCurrent s a ∧ Effect s (step s a)) := by
  cases a with
  | addRead pid userId groupId memberIds =>
      refine Or.inr ⟨trivial, ?_⟩
      simp only [step]
      split
      · exact .move pid fun _ _ _ => Proc.noConfusion
      · exact .stay
  | addFind pid =>
      refine Or.inr ⟨trivial, ?_⟩
      simp only [step]
      split
      · split
        · exact .move pid fun _ _ _ => Proc.noConfusion
        · exact .move pid fun _ _ _ => Proc.noConfusion
      · exact .stay
  | addCreate pid =>
      refine Or.inr ⟨trivial, ?_⟩
      simp only [step]
      split
      · split
        · rename_i hdb
          exact .add pid hdb
        · exact .move pid fun _ _ _ => Proc.noConfusion
      · exact .stay
  | addInvalidate pid =>
      refine Or.inr ⟨trivial, ?_⟩
      simp only [step]
      split
      · exact .invalidate pid _
      · exact .stay
  | removeRead pid userId groupId target =>
      refine Or.inr ⟨trivial, ?_⟩
      simp only [step]
      split
      · exact .move pid fun _ _ _ => Proc.noConfusion
      · exact .stay
  | removeDelete pid =>
      refine Or.inr ⟨trivial, ?_⟩
      simp only [step]
      split
      · split
        · rename_i hdb
          exact .delete pid hdb
        · exact .move pid fun _ _ _ => Proc.noConfusion
      · exact .stay
  | removeInvalidate pid =>
      refine Or.inr ⟨trivial, ?_⟩
      simp only [step]
      split
      · rename_i hp
        exact .leave hp
      · exact .stay
  | broadcast pid kind groupId actor =>
      refine Or.inr ⟨trivial, ?_⟩
      simp only [step]
      split
      · split
        · exact .move pid fun _ _ _ => Proc.noConfusion
        · exact .stay
      · exact .stay
  | query pid =>
      refine Or.inr ⟨trivial, ?_⟩
      simp only [step]
      split
      · exact .move pid fun _ _ _ => Proc.noConfusion
      · exact .stay
  | fill pid =>
      simp only [step]
      split
      · rename_i groupId ids hp
        exact Or.inl ⟨pid, groupId, ids, rfl, hp, rfl⟩
      · rename_i hp
        exact Or.inr ⟨fun groupId ids hp' => absurd hp' (hp groupId ids), .stay⟩
  | expire groupId => exact Or.inr ⟨trivial, .clear groupId⟩

theorem Effect.frame {s s' : State} (heff : Effect s s') :
    ∃ members, s'.db = { s.db with groupMembers := members } := by
  have hsame : ∃ members, s.db = { s.db with groupMembers := members } := ⟨s.db.groupMembers, rfl⟩
  cases heff with
  | stay => exact hsame
  | move pid hp => exact hsame
  | add pid hdb => exact ⟨_, createMembers_ok hdb⟩
  | delete pid hdb => exact ⟨_, deleteMember_ok hdb⟩
  | clear groupId => exact hsame
  | invalidate pid groupId => exact hsame
  | leave hp => exact hsame

/-- A step writes no table but the members. -/
theorem step_frame (s : State) (a : Act) :
    ∃ members, (step s a).db = { s.db with groupMembers := members } := by
  rcases step_cases s a with ⟨pid, groupId, ids, _, _, he⟩ | ⟨_, heff⟩
  · rw [he]
    exact ⟨s.db.groupMembers, rfl⟩
  · exact heff.frame

/-- A step that only moves a call to a place that is not a removal waiting for its
invalidation. -/
theorem Wf.set {s : State} (h : Wf s) (pid : Nat) {p : Proc} (hp : ∀ g u n, p ≠ .removed g u n) :
    Wf (s.set pid p) := by
  refine ⟨h.gone, ?_, ?_⟩
  · intro q g u n hq
    simp only [State.set, Function.update_apply] at hq
    split at hq
    · exact absurd hq (hp g u n)
    · exact h.counted q g u n hq
  · intro q g u n hq hn
    simp only [State.set, Function.update_apply] at hq
    split at hq
    · exact absurd hq (hp g u n)
    · exact h.removed q g u n hq hn

theorem Wf.put {s : State} (h : Wf s) (groupId : Id) (ids : List Id) : Wf (s.put groupId ids) :=
  ⟨h.gone, h.counted, h.removed⟩

/-- Added users are counted, so a removal from before no longer speaks about them. -/
theorem Wf.added {s : State} (h : Wf s) {groupId : Id} {ids : List Id} {db : Db}
    (hdb : createMembers (membersOf groupId ids) s.db = .ok db) :
    Wf ({ s with db := db }.added groupId ids) := by
  have hmember : ∀ g u, isMember g u db = true →
      isMember g u s.db = true ∨ (g = groupId ∧ u ∈ ids) := by
    intro g u hm
    rcases (isMember_createMembers hdb).mp hm with hm | ⟨m, hm, hg, hu⟩
    · exact Or.inl hm
    · obtain ⟨id, hid, rfl⟩ := List.mem_map.mp hm
      exact Or.inr ⟨hg.symm, hu ▸ hid⟩
  have hstays : ∀ g u, isMember g u s.db = false → ¬ (g = groupId ∧ u ∈ ids) →
      isMember g u db = false := by
    intro g u hout hnew
    cases hm : isMember g u db with
    | false => rfl
    | true =>
        rcases hmember g u hm with hin | hin
        · rw [hout] at hin
          cases hin
        · exact absurd hin hnew
  refine ⟨?_, ?_, ?_⟩
  · intro g u hg
    simp only [State.added] at hg ⊢
    split at hg
    · cases hg
    · rename_i hnew
      exact hstays g u (h.gone g u hg) hnew
  · intro pid g u n hp
    have hn := h.counted pid g u n hp
    simp only [State.added]
    split
    · omega
    · exact hn
  · intro pid g u n hp hn
    have hle := h.counted pid g u n hp
    simp only [State.added] at hn ⊢
    split at hn
    · omega
    · rename_i hnew
      exact hstays g u (h.removed pid g u n hp hn) hnew

theorem Wf.deleted {s : State} (h : Wf s) {groupId target : Id} {db : Db}
    (hdb : deleteMember groupId target s.db = .ok db) (pid : Nat) :
    Wf ({ s with db := db }.set pid (.removed groupId target (s.additions groupId target))) := by
  have hstays : ∀ g u, isMember g u s.db = false → isMember g u db = false := by
    intro g u hout
    cases hm : isMember g u db with
    | false => rfl
    | true =>
        have hin := ((isMember_deleteMember hdb).mp hm).1
        rw [hout] at hin
        cases hin
  have htarget : isMember groupId target db = false := by
    cases hm : isMember groupId target db with
    | false => rfl
    | true => exact absurd ⟨rfl, rfl⟩ ((isMember_deleteMember hdb).mp hm).2
  refine ⟨fun g u hg => hstays g u (h.gone g u hg), ?_, ?_⟩
  · intro q g u n hq
    simp only [State.set, Function.update_apply] at hq ⊢
    split at hq
    · obtain ⟨rfl, rfl, rfl⟩ := Proc.removed.inj hq
      exact le_refl _
    · exact h.counted q g u n hq
  · intro q g u n hq hn
    simp only [State.set, Function.update_apply] at hq hn ⊢
    split at hq
    · obtain ⟨rfl, rfl, rfl⟩ := Proc.removed.inj hq
      exact htarget
    · exact hstays g u (h.removed q g u n hq hn)

theorem Wf.left {s : State} (h : Wf s) {groupId target : Id} {n : Nat} {pid : Nat}
    (hp : s.procs pid = .removed groupId target n) : Wf (s.left groupId target n) := by
  refine ⟨?_, h.counted, h.removed⟩
  intro g u hg
  simp only [State.left] at hg ⊢
  split at hg
  · rename_i hthis
    obtain ⟨rfl, rfl, hn⟩ := hthis
    exact h.removed pid g u n hp hn.symm
  · exact h.gone g u hg

theorem Effect.wf {s s' : State} (heff : Effect s s') (h : Wf s) : Wf s' := by
  cases heff with
  | stay => exact h
  | move pid hp => exact h.set pid hp
  | add pid hdb => exact (h.added hdb).set pid fun _ _ _ => Proc.noConfusion
  | delete pid hdb => exact h.deleted hdb pid
  | clear groupId => exact h.put groupId []
  | invalidate pid groupId => exact (h.put groupId []).set pid fun _ _ _ => Proc.noConfusion
  | leave hp => exact ((h.put _ []).left hp).set _ fun _ _ _ => Proc.noConfusion

theorem step_wf (s : State) (a : Act) (h : Wf s) : Wf (step s a) := by
  rcases step_cases s a with ⟨pid, groupId, ids, _, _, he⟩ | ⟨_, heff⟩
  · rw [he]
    exact (h.put groupId ids).set pid fun _ _ _ => Proc.noConfusion
  · exact heff.wf h

/-- Writing ids into the cache keeps it clean exactly when none of them is of a user whose
removal is complete. -/
theorem clean_put_iff {s : State} (h : Clean s) (groupId : Id) (ids : List Id) :
    Clean (s.put groupId ids) ↔ ∀ u ∈ ids, s.gone groupId u = false := by
  constructor
  · intro hc u hu
    exact hc groupId u (by simpa [State.put] using hu)
  · intro hids g u hu
    simp only [State.put, Function.update_apply] at hu
    split at hu
    · rename_i hg
      exact hg ▸ hids u hu
    · exact h g u hu

/-- The invalidation empties the entry before its user counts as gone. -/
theorem Clean.left {s : State} (h : Clean s) (groupId target : Id) (n : Nat) :
    Clean ((s.put groupId []).left groupId target n) := by
  intro g u hu
  have hgone : ((s.put groupId []).left groupId target n).gone g u =
      if g = groupId ∧ u = target ∧ s.additions g u = n then true else s.gone g u := rfl
  simp only [State.put, State.left, Function.update_apply] at hu
  split at hu
  · cases hu
  · rename_i hg
    rw [hgone, if_neg fun hthis => hg hthis.1]
    exact h g u hu

theorem Clean.added {s : State} (h : Clean s) (groupId : Id) (ids : List Id) (db : Db) :
    Clean ({ s with db := db }.added groupId ids) := by
  intro g u hu
  simp only [State.added]
  split
  · rfl
  · exact h g u hu

theorem Effect.clean {s s' : State} (heff : Effect s s') (h : Clean s) : Clean s' := by
  cases heff with
  | stay => exact h
  | move pid hp => exact h
  | add pid hdb => exact h.added _ _ _
  | delete pid hdb => exact h
  | clear groupId => exact (clean_put_iff h groupId []).mpr fun u hu => by cases hu
  | invalidate pid groupId => exact (clean_put_iff h groupId []).mpr fun u hu => by cases hu
  | leave hp => exact h.left _ _ _

theorem step_clean_iff (s : State) (a : Act) (h : Clean s) : Clean (step s a) ↔ FillsCurrent s a := by
  rcases step_cases s a with ⟨pid, groupId, ids, rfl, hp, he⟩ | ⟨hcurrent, heff⟩
  · rw [he]
    refine (clean_put_iff h groupId ids).trans ?_
    constructor
    · intro hids g ids' hp'
      obtain ⟨rfl, rfl⟩ := Proc.filling.inj (hp.symm.trans hp')
      exact hids
    · intro hids
      exact hids groupId ids hp
  · exact iff_of_true (heff.clean h) hcurrent

/-- The cache stays clean in every state of a run exactly when no fill writes a user whose
removal is complete. -/
theorem cache_clean_iff (db : Db) (cache : Id → List Id) (ls : List Act) :
    Always step Clean (start db cache) ls ↔ Along step FillsCurrent (start db cache) ls :=
  always_iff_along (J := fun _ => True) (fun _ _ _ => trivial) (fun s a _ h => step_clean_iff s a h)
    ls _ trivial fun _ _ _ => rfl

theorem mem_emit {kind : Kind} {groupId actor : Id} {memberIds : List Id} {e : Emission}
    (h : e ∈ emit kind groupId actor memberIds) : e.groupId = groupId ∧ e.target ∈ memberIds := by
  obtain ⟨u, hu, rfl⟩ := List.mem_map.mp h
  exact ⟨rfl, (List.mem_filter.mp hu).1⟩

/-- With a clean cache no handler reaches a user whose removal is complete. -/
theorem silent_of_clean {s : State} (hw : Wf s) (hc : Clean s) (a : Act) : Silent s a := by
  intro e he
  cases a with
  | broadcast pid kind groupId actor =>
      simp only [emitted] at he
      split at he
      · obtain ⟨hg, hu⟩ := mem_emit he
        rw [hg]
        exact hc groupId e.target hu
      · cases he
  | query pid =>
      simp only [emitted] at he
      split at he
      · rename_i kind groupId actor _
        obtain ⟨hg, hu⟩ := mem_emit he
        have hin := mem_memberIdsOf.mp hu
        cases hgone : s.gone e.groupId e.target with
        | false => rfl
        | true =>
            have hout := hw.gone _ _ hgone
            rw [hg, hin] at hout
            cases hout
      · cases he
  | _ => cases he

/-- A group of an admin and one more member. -/
def sampleDb : Db :=
  { users := [{ id := "alice", phoneHash := "h1" }, { id := "bob", phoneHash := "h2" }]
    groupMembers := [{ groupId := "g", userId := "alice", role := "ADMIN" },
                     { groupId := "g", userId := "bob" }] }

/-- A typing event queries the members before a removal, and its fill lands after the
invalidation; the next typing event finds it. -/
def lateFill : List Act :=
  [.broadcast 0 .typingStart "g" "alice", .query 0, .removeRead 1 "alice" "g" "bob",
   .removeDelete 1, .removeInvalidate 1, .fill 0]

end Birgap.Groups.MemberCache
