import Birgap.Reactions.Replay
import Mathlib.Logic.Function.Basic

/-!
# Cached reaction counts after a write

`toggle` and `remove` commit and then delete the cached counts of the message;
`getAggregated` reads the cache, on a miss queries the reactions and then writes what it
counted into the cache. All calls interleave between these steps. A reader that queried
before a commit may write after the invalidation that belongs to it.
-/
namespace Birgap.Reactions.Freshness

set_option autoImplicit false

open Birgap.Lib Birgap.Lib.Run Birgap.Messages Birgap.Reactions Birgap.Reactions.Replay

/-- A call that changes a reaction. -/
inductive Write where
  | toggle (now : Time) (reactionId userId messageId : Id) (emoji : String)
  | remove (userId messageId : Id)

def Write.userId : Write → Id
  | .toggle _ _ userId _ _ => userId
  | .remove userId _ => userId

def Write.messageId : Write → Id
  | .toggle _ _ _ messageId _ => messageId
  | .remove _ messageId => messageId

/-- The transaction of the call; `none` where the call ends without an invalidation, because
the transaction failed or there was no reaction to remove. -/
def Write.commit (w : Write) (db : Db) : Option Db :=
  match w with
  | .toggle now reactionId userId messageId emoji =>
      match toggleTx now reactionId userId messageId emoji db with
      | .ok (_, db') => some db'
      | .error _ => none
  | .remove userId messageId =>
      match removeTx userId messageId db with
      | (some _, db') => some db'
      | (none, _) => none

/-- Where a call stands. `mine` is the emoji of the reader's own reaction. -/
inductive Proc where
  | idle
  | writing (w : Write)
  | invalidating (messageId : Id)
  | reading (mine : Option String) (messageId : Id)
  | missed (mine : Option String) (messageId : Id)
  | filling (mine : Option String) (messageId : Id) (counts : Counts)

structure State where
  store : Store
  procs : Nat → Proc

inductive Act where
  | begin (pid : Nat) (w : Write)
  | commit (pid : Nat)
  | invalidate (pid : Nat)
  | read (pid : Nat) (userId messageId : Id)
  | look (pid : Nat)
  | query (pid : Nat)
  | fill (pid : Nat)
  | expire (messageId : Id)

def State.set (s : State) (pid : Nat) (p : Proc) : State :=
  { s with procs := Function.update s.procs pid p }

/-- `cacheReactions`. -/
def State.put (s : State) (messageId : Id) (counts : Counts) : State :=
  { s with store := { s.store with
      cache := fun m => if m = messageId then some counts else s.store.cache m } }

/-- `invalidateCache`, or the expiry of the entry. -/
def State.clear (s : State) (messageId : Id) : State :=
  { s with store := s.store.invalidate messageId }

def countsOf (messageId : Id) (db : Db) : Counts :=
  aggregate (db.messageReactions.filter (·.messageId == messageId))

def step (s : State) : Act → State
  | .begin pid w =>
      match s.procs pid, reactionAccess w.userId w.messageId s.store.db with
      | .idle, .ok _ => s.set pid (.writing w)
      | _, _ => s
  | .commit pid =>
      match s.procs pid with
      | .writing w =>
          match w.commit s.store.db with
          | some db =>
              { s with store := { s.store with db := db } }.set pid (.invalidating w.messageId)
          | none => s.set pid .idle
      | _ => s
  | .invalidate pid =>
      match s.procs pid with
      | .invalidating messageId => (s.clear messageId).set pid .idle
      | _ => s
  | .read pid userId messageId =>
      match s.procs pid, reactionAccess userId messageId s.store.db with
      | .idle, .ok _ =>
          s.set pid (.reading ((findReaction userId messageId s.store.db).map (·.emoji)) messageId)
      | _, _ => s
  | .look pid =>
      match s.procs pid with
      | .reading mine messageId =>
          match s.store.cache messageId with
          | some _ => s.set pid .idle
          | none => s.set pid (.missed mine messageId)
      | _ => s
  | .query pid =>
      match s.procs pid with
      | .missed mine messageId =>
          s.set pid (.filling mine messageId (countsOf messageId s.store.db))
      | _ => s
  | .fill pid =>
      match s.procs pid with
      | .filling _ messageId counts => (s.put messageId counts).set pid .idle
      | _ => s
  | .expire messageId => s.clear messageId

/-- What a reader returns. -/
structure Reply where
  pid : Nat
  messageId : Id
  answer : List ReactionCount

def answerOf (mine : Option String) (counts : Counts) : List ReactionCount :=
  counts.map fun c => { emoji := c.1, count := c.2, reacted := mine == some c.1 }

/-- The reply of a step: a reader returns when it finds the cache filled, or after it has
filled it. -/
def reply (s : State) : Act → Option Reply
  | .look pid =>
      match s.procs pid with
      | .reading mine messageId =>
          (s.store.cache messageId).map fun cached => ⟨pid, messageId, answerOf mine cached⟩
      | _ => none
  | .fill pid =>
      match s.procs pid with
      | .filling mine messageId counts => some ⟨pid, messageId, answerOf mine counts⟩
      | _ => none
  | _ => none

/-- The count of an emoji in an answer, zero where it has no entry. -/
def countIn (emoji : String) (answer : List ReactionCount) : Nat :=
  ((answer.find? (·.emoji == emoji)).map (·.count)).getD 0

/-- The counts are the numbers of stored rows. -/
def Current (messageId : Id) (counts : Counts) (db : Db) : Prop :=
  ∀ e, lookup e counts = stored messageId e db

/-- An invalidation of the message is still to come. -/
def Pending (messageId : Id) (s : State) : Prop := ∃ pid, s.procs pid = .invalidating messageId

/-- No toggle or remove on the message is in flight. -/
def Quiet (messageId : Id) (s : State) : Prop :=
  ¬ Pending messageId s ∧ ∀ pid w, s.procs pid = .writing w → w.messageId ≠ messageId

/-- The step starts a toggle or a remove on the message. -/
def Begins (messageId : Id) : Act → Prop
  | .begin _ w => w.messageId = messageId
  | _ => False

/-- What the step returns to a read of the message that started after `origin` are the numbers
of stored rows. -/
def Serves (messageId : Id) (origin s : State) (a : Act) : Prop :=
  ∀ r, reply s a = some r → r.messageId = messageId → origin.procs r.pid = .idle →
    ∀ e, countIn e r.answer = stored messageId e s.store.db

/-- Every read of the message that starts in the run returns the numbers of stored rows. -/
def ServesStored (messageId : Id) (s : State) (ls : List Act) : Prop :=
  Along step (Serves messageId s) s ls

/-- A fill writes the stored counts, or an invalidation is still to come. -/
def FillsCurrent (s : State) : Act → Prop
  | .fill pid => ∀ mine messageId counts, s.procs pid = .filling mine messageId counts →
      Pending messageId s ∨ Current messageId counts s.store.db
  | _ => True

/-- The cached counts of a message without a pending invalidation are the stored ones. -/
def Fresh (s : State) : Prop :=
  ∀ m counts, s.store.cache m = some counts → Pending m s ∨ Current m counts s.store.db

def start (store : Store) : State := { store, procs := fun _ => .idle }

/-! ## One step -/

/-- What a step other than a fill can do. -/
inductive Effect (s : State) (a : Act) : State → Prop where
  | stay : Effect s a s
  | move {pid : Nat} {p : Proc} (hold : ∀ m, s.procs pid ≠ .invalidating m)
      (hnew : ∀ m, p ≠ .invalidating m) (hfill : ∀ mine m counts, p ≠ .filling mine m counts)
      (hwrite : ∀ w, p = .writing w → Begins w.messageId a) : Effect s a (s.set pid p)
  | commit {pid : Nat} {w : Write} {db : Db} (hp : s.procs pid = .writing w)
      (hdb : w.commit s.store.db = some db) :
      Effect s a ({ s with store := { s.store with db := db } }.set pid (.invalidating w.messageId))
  | invalidate {pid : Nat} {messageId : Id} (hp : s.procs pid = .invalidating messageId) :
      Effect s a ((s.clear messageId).set pid .idle)
  | query {pid : Nat} {mine : Option String} {messageId : Id}
      (hp : s.procs pid = .missed mine messageId) :
      Effect s a (s.set pid (.filling mine messageId (countsOf messageId s.store.db)))
  | expire (messageId : Id) : Effect s a (s.clear messageId)

/-- A step is the fill of a reader, or has one of the effects above. -/
theorem step_cases (s : State) (a : Act) :
    (∃ pid mine messageId counts, a = .fill pid ∧ s.procs pid = .filling mine messageId counts ∧
      step s a = (s.put messageId counts).set pid .idle) ∨
    (FillsCurrent s a ∧ Effect s a (step s a)) := by
  cases a with
  | begin pid w =>
      refine Or.inr ⟨trivial, ?_⟩
      simp only [step]
      split
      · rename_i hp _
        refine .move ?_ (fun _ => Proc.noConfusion) (fun _ _ _ => Proc.noConfusion) ?_
        · intro m hm
          rw [hp] at hm
          cases hm
        · intro w' hw
          obtain rfl := Proc.writing.inj hw
          rfl
      · exact .stay
  | commit pid =>
      refine Or.inr ⟨trivial, ?_⟩
      simp only [step]
      split
      · rename_i w hp
        split
        · rename_i hdb
          exact .commit hp hdb
        · refine .move ?_ (fun _ => Proc.noConfusion) (fun _ _ _ => Proc.noConfusion)
            fun _ => Proc.noConfusion
          intro m hm
          rw [hp] at hm
          cases hm
      · exact .stay
  | invalidate pid =>
      refine Or.inr ⟨trivial, ?_⟩
      simp only [step]
      split
      · rename_i hp
        exact .invalidate hp
      · exact .stay
  | read pid userId messageId =>
      refine Or.inr ⟨trivial, ?_⟩
      simp only [step]
      split
      · rename_i hp _
        refine .move ?_ (fun _ => Proc.noConfusion) (fun _ _ _ => Proc.noConfusion)
          fun _ => Proc.noConfusion
        intro m hm
        rw [hp] at hm
        cases hm
      · exact .stay
  | look pid =>
      refine Or.inr ⟨trivial, ?_⟩
      simp only [step]
      split
      · rename_i hp
        have hold : ∀ m, s.procs pid ≠ .invalidating m := by
          intro m hm
          rw [hp] at hm
          cases hm
        split
        · exact .move hold (fun _ => Proc.noConfusion) (fun _ _ _ => Proc.noConfusion)
            fun _ => Proc.noConfusion
        · exact .move hold (fun _ => Proc.noConfusion) (fun _ _ _ => Proc.noConfusion)
            fun _ => Proc.noConfusion
      · exact .stay
  | query pid =>
      refine Or.inr ⟨trivial, ?_⟩
      simp only [step]
      split
      · rename_i hp
        exact .query hp
      · exact .stay
  | fill pid =>
      simp only [step]
      split
      · rename_i mine messageId counts hp
        exact Or.inl ⟨pid, mine, messageId, counts, rfl, hp, rfl⟩
      · rename_i hp
        refine Or.inr ⟨?_, .stay⟩
        intro mine messageId counts hp'
        exact absurd hp' (hp mine messageId counts)
  | expire messageId => exact Or.inr ⟨trivial, .expire messageId⟩

theorem commit_touches {w : Write} {db db' : Db} (hids : Rows.Unique (·.id) db.messageReactions)
    (hkeys : Rows.Unique reactionKey db.messageReactions) (h : w.commit db = some db') :
    Touches w.messageId db db' := by
  cases w with
  | toggle now reactionId userId messageId emoji =>
      simp only [Write.commit] at h
      split at h
      · rename_i htx
        obtain rfl := Option.some.inj h
        exact toggleTx_touches hids hkeys htx
      · cases h
  | remove userId messageId =>
      simp only [Write.commit, removeTx] at h
      cases hfind : findReaction userId messageId db with
      | none =>
          rw [hfind] at h
          cases h
      | some existing =>
          rw [hfind] at h
          obtain rfl := Option.some.inj h
          obtain ⟨hmem, _, hmessage⟩ := findReaction_some hfind
          have ht := touches_delete hids hmem
          rw [hmessage] at ht
          exact ht

/-- The unique indexes on the reactions. -/
structure Indexed (s : State) : Prop where
  ids : Rows.Unique (·.id) s.store.db.messageReactions
  keys : Rows.Unique reactionKey s.store.db.messageReactions

theorem Effect.indexed {s s' : State} {a : Act} (heff : Effect s a s') (h : Indexed s) :
    Indexed s' := by
  cases heff with
  | commit hp hdb =>
      have ht := commit_touches h.ids h.keys hdb
      exact ⟨ht.ids h.ids, ht.keys h.keys⟩
  | _ => exact ⟨h.ids, h.keys⟩

theorem step_indexed (s : State) (a : Act) (h : Indexed s) : Indexed (step s a) := by
  rcases step_cases s a with ⟨pid, mine, messageId, counts, _, _, he⟩ | ⟨_, heff⟩
  · rw [he]
    exact ⟨h.ids, h.keys⟩
  · exact heff.indexed h

theorem State.set_self (s : State) (pid : Nat) (p : Proc) : (s.set pid p).procs pid = p :=
  Function.update_self _ _ _

theorem State.set_of_ne (s : State) {pid q : Nat} (p : Proc) (h : q ≠ pid) :
    (s.set pid p).procs q = s.procs q := Function.update_of_ne h _ _

theorem pending_set {s : State} {pid : Nat} {p : Proc} {m : Id} (hold : s.procs pid ≠ .invalidating m)
    (hnew : p ≠ .invalidating m) : Pending m (s.set pid p) ↔ Pending m s := by
  constructor
  · rintro ⟨q, hq⟩
    simp only [State.set, Function.update_apply] at hq
    split at hq
    · exact absurd hq hnew
    · exact ⟨q, hq⟩
  · rintro ⟨q, hq⟩
    have hne : q ≠ pid := by
      rintro rfl
      exact hold hq
    exact ⟨q, (s.set_of_ne p hne).trans hq⟩

/-- A call that moves neither to nor from an invalidation. -/
theorem fresh_set {s : State} {pid : Nat} {p : Proc} (hold : ∀ m, s.procs pid ≠ .invalidating m)
    (hnew : ∀ m, p ≠ .invalidating m) : Fresh (s.set pid p) ↔ Fresh s := by
  constructor
  · intro h m counts hc
    exact (h m counts hc).imp_left (pending_set (hold m) (hnew m)).mp
  · intro h m counts hc
    exact (h m counts hc).imp_left (pending_set (hold m) (hnew m)).mpr

theorem Fresh.clear {s : State} (h : Fresh s) (messageId : Id) : Fresh (s.clear messageId) := by
  intro m counts hc
  simp only [State.clear, Store.invalidate] at hc
  split at hc
  · cases hc
  · exact h m counts hc

/-- The entry is gone before its invalidation stops being pending. -/
theorem Fresh.invalidate {s : State} (h : Fresh s) {pid : Nat} {messageId : Id}
    (hp : s.procs pid = .invalidating messageId) : Fresh ((s.clear messageId).set pid .idle) := by
  intro m counts hc
  have hne : m ≠ messageId := by
    rintro rfl
    simp [State.set, State.clear, Store.invalidate] at hc
  refine (h.clear messageId m counts hc).imp_left ?_
  refine (pending_set ?_ Proc.noConfusion).mpr
  intro hm
  exact hne (Proc.invalidating.inj (hm.symm.trans hp))

/-- A commit makes the entry of its message wait for the invalidation and moves no other
count. -/
theorem Fresh.commit {s : State} (h : Fresh s) {pid : Nat} {w : Write} {db : Db}
    (hp : s.procs pid = .writing w) (ht : Touches w.messageId s.store.db db) :
    Fresh ({ s with store := { s.store with db := db } }.set pid (.invalidating w.messageId)) := by
  intro m counts hc
  by_cases hm : m = w.messageId
  · exact Or.inl ⟨pid, by rw [hm, State.set_self]⟩
  · rcases h m counts hc with hpending | hcurrent
    · refine Or.inl ((pending_set ?_ ?_).mpr hpending)
      · intro hm'
        cases hp.symm.trans hm'
      · intro he
        exact hm (Proc.invalidating.inj he).symm
    · right
      intro e
      exact (hcurrent e).trans (ht.others m e hm).symm

theorem fresh_put_iff {s : State} (h : Fresh s) (messageId : Id) (counts : Counts) :
    Fresh (s.put messageId counts) ↔
      Pending messageId s ∨ Current messageId counts s.store.db := by
  constructor
  · intro hf
    exact hf messageId counts (by simp [State.put])
  · intro hthis m counts' hc
    simp only [State.put] at hc
    split at hc
    · rename_i hm
      obtain rfl := Option.some.inj hc
      obtain rfl := hm
      exact hthis
    · exact h m counts' hc

theorem Effect.fresh {s s' : State} {a : Act} (heff : Effect s a s') (hi : Indexed s)
    (h : Fresh s) : Fresh s' := by
  cases heff with
  | stay => exact h
  | move hold hnew hfill hwrite => exact (fresh_set hold hnew).mpr h
  | commit hp hdb => exact h.commit hp (commit_touches hi.ids hi.keys hdb)
  | invalidate hp => exact h.invalidate hp
  | query hp =>
      refine (fresh_set ?_ fun _ => Proc.noConfusion).mpr h
      intro m hm
      cases hp.symm.trans hm
  | expire messageId => exact h.clear messageId

theorem step_fresh_iff (s : State) (a : Act) (hi : Indexed s) (h : Fresh s) :
    Fresh (step s a) ↔ FillsCurrent s a := by
  rcases step_cases s a with ⟨pid, mine, messageId, counts, rfl, hp, he⟩ | ⟨hcurrent, heff⟩
  · have hold : ∀ m, (s.put messageId counts).procs pid ≠ .invalidating m := by
      intro m hm
      cases hp.symm.trans hm
    rw [he, fresh_set hold fun _ => Proc.noConfusion, fresh_put_iff h]
    constructor
    · intro hthis mine' m counts' hp'
      obtain ⟨rfl, rfl, rfl⟩ := Proc.filling.inj (hp.symm.trans hp')
      exact hthis
    · intro hthis
      exact hthis mine messageId counts hp
  · exact iff_of_true (heff.fresh hi h) hcurrent

theorem start_fresh {store : Store} (h : Coherent store) : Fresh (start store) :=
  fun m counts hc => Or.inr (h m counts hc)

/-- Every cached entry without a pending invalidation holds the stored counts, in every state
of a run, exactly when every fill writes the stored counts or is still to be invalidated. -/
theorem cache_fresh_iff {store : Store} (hi : Indexed (start store)) (hc : Coherent store)
    (ls : List Act) :
    Always step Fresh (start store) ls ↔ Along step FillsCurrent (start store) ls :=
  always_iff_along step_indexed (fun s a hi h => step_fresh_iff s a hi h) ls _ hi (start_fresh hc)

/-! ## Reads after the last write -/

theorem countIn_answerOf (e : String) (mine : Option String) (counts : Counts) :
    countIn e (answerOf mine counts) = lookup e counts := by
  unfold countIn answerOf lookup
  rw [List.find?_map, Option.map_map]
  rfl

theorem countsOf_current (m : Id) (db : Db) : Current m (countsOf m db) db :=
  fun e => lookup_aggregate_stored e m db

/-- From a state on, no call on the message is in flight, and what the readers that started
since have counted is still stored. -/
structure Settled (messageId : Id) (origin s : State) : Prop where
  quiet : Quiet messageId s
  counted : ∀ pid mine counts, origin.procs pid = .idle →
    s.procs pid = .filling mine messageId counts → Current messageId counts s.store.db

theorem Settled.refl {m : Id} {s : State} (h : Quiet m s) : Settled m s s := by
  refine ⟨h, ?_⟩
  intro pid mine counts hidle hp
  rw [hidle] at hp
  cases hp

theorem Settled.set {m : Id} {origin s : State} (h : Settled m origin s) {pid : Nat} {p : Proc}
    (hnew : p ≠ .invalidating m) (hwrite : ∀ w, p = .writing w → w.messageId ≠ m)
    (hfill : ∀ mine counts, p = .filling mine m counts → Current m counts s.store.db) :
    Settled m origin (s.set pid p) := by
  refine ⟨⟨?_, ?_⟩, ?_⟩
  · rintro ⟨q, hq⟩
    by_cases hqp : q = pid
    · rw [hqp, State.set_self] at hq
      exact hnew hq
    · rw [State.set_of_ne s p hqp] at hq
      exact h.quiet.1 ⟨q, hq⟩
  · intro q w hq
    by_cases hqp : q = pid
    · rw [hqp, State.set_self] at hq
      exact hwrite w hq
    · rw [State.set_of_ne s p hqp] at hq
      exact h.quiet.2 q w hq
  · intro q mine counts hidle hq
    by_cases hqp : q = pid
    · rw [hqp, State.set_self] at hq
      exact hfill mine counts hq
    · rw [State.set_of_ne s p hqp] at hq
      exact h.counted q mine counts hidle hq

theorem Settled.clear {m : Id} {origin s : State} (h : Settled m origin s) (messageId : Id) :
    Settled m origin (s.clear messageId) := ⟨h.quiet, h.counted⟩

/-- A commit on another message. -/
theorem Settled.touched {m messageId : Id} {origin s : State} (h : Settled m origin s) {db : Db}
    (ht : Touches messageId s.store.db db) (hne : messageId ≠ m) :
    Settled m origin { s with store := { s.store with db := db } } := by
  refine ⟨h.quiet, ?_⟩
  intro pid mine counts hidle hp e
  exact (h.counted pid mine counts hidle hp e).trans (ht.others m e hne.symm).symm

theorem Effect.settled {m : Id} {origin s s' : State} {a : Act} (heff : Effect s a s')
    (hi : Indexed s) (ha : ¬ Begins m a) (h : Settled m origin s) : Settled m origin s' := by
  cases heff with
  | stay => exact h
  | move hold hnew hfill hwrite =>
      refine h.set (hnew m) ?_ fun mine counts he => absurd he (hfill mine m counts)
      rintro w he rfl
      exact ha (hwrite w he)
  | commit hp hdb =>
      -- a commit on the message itself has no call it could belong to
      have hne := h.quiet.2 _ _ hp
      have ht := commit_touches hi.ids hi.keys hdb
      refine (h.touched ht hne).set ?_ (fun _ => Proc.noConfusion) fun _ _ => Proc.noConfusion
      intro he
      exact hne (Proc.invalidating.inj he)
  | invalidate hp =>
      exact (h.clear _).set Proc.noConfusion (fun _ => Proc.noConfusion) fun _ _ => Proc.noConfusion
  | query hp =>
      refine h.set Proc.noConfusion (fun _ => Proc.noConfusion) ?_
      intro mine counts he
      obtain ⟨_, rfl, rfl⟩ := Proc.filling.inj he
      exact countsOf_current _ _
  | expire messageId => exact h.clear messageId

theorem step_settled {m : Id} {origin s : State} {a : Act} (hi : Indexed s) (ha : ¬ Begins m a)
    (h : Settled m origin s) : Settled m origin (step s a) := by
  rcases step_cases s a with ⟨pid, mine, messageId, counts, _, _, he⟩ | ⟨_, heff⟩
  · rw [he]
    have hput : Settled m origin (s.put messageId counts) := ⟨h.quiet, h.counted⟩
    exact hput.set Proc.noConfusion (fun _ => Proc.noConfusion) fun _ _ => Proc.noConfusion
  · exact heff.settled hi ha h

/-- A reader that returns then returns the stored counts. -/
theorem serves_of_settled {m : Id} {origin s : State} (hf : Fresh s) (h : Settled m origin s)
    (a : Act) : Serves m origin s a := by
  intro r hr hm hidle e
  cases a with
  | look pid =>
      simp only [reply] at hr
      split at hr
      · obtain ⟨cached, hc, rfl⟩ := Option.map_eq_some_iff.mp hr
        obtain rfl := hm
        rcases hf _ cached hc with hpending | hcurrent
        · exact absurd hpending h.quiet.1
        · rw [countIn_answerOf]
          exact hcurrent e
      · cases hr
  | fill pid =>
      simp only [reply] at hr
      split at hr
      · rename_i hp
        obtain rfl := Option.some.inj hr
        obtain rfl := hm
        rw [countIn_answerOf]
        exact h.counted _ _ _ hidle hp e
      · cases hr
  | _ => cases hr

/-- A direct thread with one message. -/
def sampleStore : Store :=
  { db :=
      { users := [{ id := "alice", phoneHash := "h1" }, { id := "bob", phoneHash := "h2" }]
        directThreads := [{ id := "t", userAId := "alice", userBId := "bob" }]
        messages := [{ id := "m", threadId := some "t", senderUserId := "alice"
                       senderDeviceId := "d", idempotencyKey := "k", threadSequence := 1
                       createdAt := 0 }] }
    cache := fun _ => none }

def react : Write := .toggle 0 "r" "bob" "m" "👍"

/-- A read queries before a toggle, and its fill lands after the invalidation. -/
def lateFill : List Act :=
  [.read 1 "alice" "m", .look 1, .query 1, .begin 2 react, .commit 2, .invalidate 2, .fill 1]

end Birgap.Reactions.Freshness
