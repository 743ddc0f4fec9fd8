import Birgap.Common.Crypto
import Birgap.Lib.NullKeys
import Birgap.Lib.Run
import Mathlib.Algebra.BigOperators.Group.List.Defs
import Mathlib.Data.List.Dedup
import Mathlib.Logic.Function.Basic

/-!
# The daily metrics

`DailyMetricsRollupService` computes seven values for one UTC day and upserts a row for each,
under a unique key of date, kind and dimension. It passes NULL for the dimension of the key, which
the client refuses, so a rollup throws once it has computed its values and stores none.
-/
namespace Birgap.Moderation.Rollup

set_option autoImplicit false

open Birgap.Common Birgap.Lib Birgap.Lib.Run Birgap.Lib.NullKeys

/-- The store, with the `createdAt` of the users, a column that only the rollup reads. -/
structure Store where
  db : Db
  userCreatedAt : Id → Time

/-- Midnight of the calendar day; `Date.UTC` reads the years 0 to 99 in another way. -/
def utcDayStart (d : Time) : Time := d - d % 86400000

/-- `{ gte: dayStart, lt: dayEnd }`. -/
def inDay (dayStart t : Time) : Bool := decide (dayStart ≤ t) && decide (t < addDays dayStart 1)

/-! ## The seven values -/

def sentMessages (dayStart : Time) (db : Db) : List Message :=
  db.messages.filter fun m => inDay dayStart m.createdAt && m.deletedAt.isNone

/-- `groupBy` on the group, with the number of messages of each. -/
def messagesByChannel (dayStart : Time) (db : Db) : List (Option Id × Nat) :=
  let groups := (sentMessages dayStart db).map (·.groupId)
  groups.dedup.map fun groupId => (groupId, groups.count groupId)

def messagesDirect (dayStart : Time) (db : Db) : Nat :=
  (((messagesByChannel dayStart db).filter (·.1.isNone)).map (·.2)).sum

def messagesGroup (dayStart : Time) (db : Db) : Nat :=
  (((messagesByChannel dayStart db).filter (·.1.isSome)).map (·.2)).sum

/-- The distinct senders of the day. -/
def dau (dayStart : Time) (db : Db) : List Id :=
  ((sentMessages dayStart db).map (·.senderUserId)).dedup

def newUsers (dayStart : Time) (s : Store) : List User :=
  s.db.users.filter fun u => inDay dayStart (s.userCreatedAt u.id)

def reportsOpened (dayStart : Time) (db : Db) : List Report :=
  db.reports.filter fun r => inDay dayStart r.createdAt

def reportsResolved (dayStart : Time) (db : Db) : List Report :=
  db.reports.filter fun r => r.reviewedAt.any (inDay dayStart)

def usersSuspended (dayStart : Time) (db : Db) : List UserSuspension :=
  db.userSuspensions.filter fun x => inDay dayStart x.suspendedAt

def metricValue (dayStart : Time) (s : Store) : DailyMetricKind → Nat
  | .messagesSentDirect => messagesDirect dayStart s.db
  | .messagesSentGroup => messagesGroup dayStart s.db
  | .dau => (dau dayStart s.db).length
  | .newUsers => (newUsers dayStart s).length
  | .reportsOpened => (reportsOpened dayStart s.db).length
  | .reportsResolved => (reportsResolved dayStart s.db).length
  | .usersSuspended => (usersSuspended dayStart s.db).length

/-! ## Writing the rows -/

def kinds : List DailyMetricKind :=
  [.messagesSentDirect, .messagesSentGroup, .dau, .newUsers, .reportsOpened, .reportsResolved,
    .usersSuspended]

/-- The rows of a rollup; `ids` are the ids drawn for those it has to create. -/
def metricRows (dayStart : Time) (ids : DailyMetricKind → Id) (s : Store) : List DailyMetric :=
  kinds.map fun kind =>
    { id := ids kind, date := dayStart, kind, dimension := none, value := metricValue dayStart s kind }

/-- `@@unique([date, kind, dimension])`. -/
def metricKey (m : DailyMetric) : (Time × DailyMetricKind) × Option String :=
  ((m.date, m.kind), m.dimension)

structure RolledUp where
  date : Time
  written : Nat
  deriving DecidableEq

/-- The exception for a refused transaction. -/
def refusedWith : Refusal → Err
  | .nullInKey => .failure "Argument `dimension` must not be null."
  | .idTaken => .uniqueConstraint

def rollupDay (date : Time) (ids : DailyMetricKind → Id) (s : Store) : Except Err RolledUp × Store :=
  let dayStart := utcDayStart date
  let rows := metricRows dayStart ids s
  match upsertAll metricKey (·.id) (fun row m => { m with value := row.value }) rows
    s.db.dailyMetrics with
  | .error e => (.error (refusedWith e), s)
  | .ok metrics =>
      (.ok ⟨dayStart, rows.length⟩, { s with db := { s.db with dailyMetrics := metrics } })

def rollupYesterday (now : Time) (ids : DailyMetricKind → Id) (s : Store) :
    Except Err RolledUp × Store :=
  rollupDay (utcDayStart (addDays now (-1))) ids s

/-- Every rollup throws, and the store stays as it is. -/
theorem rollupDay_refused (date : Time) (ids : DailyMetricKind → Id) (s : Store) :
    rollupDay date ids s = (.error (refusedWith .nullInKey), s) := by
  have hmem : (⟨ids .dau, utcDayStart date, .dau, none, metricValue (utcDayStart date) s .dau⟩ :
      DailyMetric) ∈ metricRows (utcDayStart date) ids s :=
    List.mem_map_of_mem (by decide : DailyMetricKind.dau ∈ kinds)
  unfold rollupDay
  dsimp only
  rw [upsertAll_null hmem rfl]

/-! ## Runs of rollups -/

/-- The store, and what the last rollup of each day computed. -/
structure State where
  store : Store
  computed : Time → Option (DailyMetricKind → Nat)

/-- A manual or a scheduled rollup, or any statements that leave the metrics alone. -/
inductive Act where
  | rollupDay (date : Time) (ids : DailyMetricKind → Id)
  | rollupYesterday (now : Time) (ids : DailyMetricKind → Id)
  | write (db : Db) (userCreatedAt : Id → Time)

/-- The outcome of a rollup of the day `dayStart`. -/
def State.rolled (s : State) (dayStart : Time) (r : Except Err RolledUp × Store) : State :=
  { store := r.2
    computed := Function.update s.computed dayStart (some (metricValue dayStart s.store)) }

def step (s : State) : Act → State
  | .rollupDay date ids => s.rolled (utcDayStart date) (rollupDay date ids s.store)
  | .rollupYesterday now ids =>
      s.rolled (utcDayStart (addDays now (-1))) (rollupYesterday now ids s.store)
  | .write db userCreatedAt =>
      { s with store :=
          { db := { db with dailyMetrics := s.store.db.dailyMetrics }, userCreatedAt } }

def start (store : Store) : State := { store, computed := fun _ => none }

def metricsOf (dayStart : Time) (kind : DailyMetricKind) (db : Db) : List DailyMetric :=
  db.dailyMetrics.filter fun m => m.date == dayStart && m.kind == kind

def metricsOn (dayStart : Time) (db : Db) : List DailyMetric :=
  db.dailyMetrics.filter (·.date == dayStart)

/-- The days rolled up since `db` have one row a kind, with the value computed last, and the
other days have the rows they had. -/
structure Current (db : Db) (s : State) : Prop where
  rolled : ∀ day value, s.computed day = some value →
    ∀ kind, ∃ m, metricsOf day kind s.store.db = [m] ∧ m.value = value kind
  others : ∀ day, s.computed day = none → metricsOn day s.store.db = metricsOn day db

/-- The table has one row a kind for the day, each with the value the other tables give. -/
def InPlace (dayStart : Time) (s : Store) : Prop :=
  ∀ kind, ∃ m, metricsOf dayStart kind s.db = [m] ∧ m.value = metricValue dayStart s kind

/-- A rollup is of a day whose rows are in place before it. -/
def NothingToWrite (s : State) : Act → Prop
  | .rollupDay date _ => InPlace (utcDayStart date) s.store
  | .rollupYesterday now _ => InPlace (utcDayStart (addDays now (-1))) s.store
  | .write _ _ => True

def Act.isRollup : Act → Bool
  | .rollupDay _ _ => true
  | .rollupYesterday _ _ => true
  | .write _ _ => false

/-! ## One step -/

/-- A rollup only leaves the rows of its day right that it finds right. -/
theorem rolled_current_iff {db : Db} {s : State} (h : Current db s) (dayStart : Time) (e : Err) :
    Current db (s.rolled dayStart (.error e, s.store)) ↔ InPlace dayStart s.store := by
  unfold State.rolled
  constructor
  · intro hcurrent
    exact hcurrent.rolled dayStart _ (Function.update_self ..)
  · intro hplace
    constructor
    · intro day value hvalue
      dsimp only at hvalue ⊢
      by_cases hday : day = dayStart
      · subst hday
        rw [Function.update_self] at hvalue
        obtain rfl := Option.some.inj hvalue
        exact hplace
      · rw [Function.update_of_ne hday] at hvalue
        exact h.rolled day value hvalue
    · intro day hvalue
      dsimp only at hvalue ⊢
      have hday : day ≠ dayStart := by
        intro he
        rw [he, Function.update_self] at hvalue
        cases hvalue
      rw [Function.update_of_ne hday] at hvalue
      exact h.others day hvalue

theorem step_current_iff (db : Db) (s : State) (a : Act) (h : Current db s) :
    Current db (step s a) ↔ NothingToWrite s a := by
  cases a with
  | rollupDay date ids =>
      rw [step, rollupDay_refused]
      exact rolled_current_iff h _ _
  | rollupYesterday now ids =>
      rw [step, rollupYesterday, rollupDay_refused]
      exact rolled_current_iff h _ _
  | write db' userCreatedAt => exact iff_of_true ⟨h.rolled, h.others⟩ trivial

/-- No step writes a metric. -/
theorem step_metrics (s : State) (a : Act) :
    (step s a).store.db.dailyMetrics = s.store.db.dailyMetrics := by
  cases a with
  | rollupDay date ids =>
      rw [step, rollupDay_refused]
      rfl
  | rollupYesterday now ids =>
      rw [step, rollupYesterday, rollupDay_refused]
      rfl
  | write db' userCreatedAt => rfl

/-- In an empty table no rows are in place. -/
theorem nothingToWrite_empty_iff {s : State} (h : s.store.db.dailyMetrics = []) (a : Act) :
    NothingToWrite s a ↔ a.isRollup = false := by
  have hnone : ∀ day, ¬ InPlace day s.store := by
    intro day hplace
    obtain ⟨m, hm, _⟩ := hplace .dau
    rw [metricsOf, h] at hm
    cases hm
  cases a with
  | rollupDay date ids => exact iff_of_false (hnone _) Bool.noConfusion
  | rollupYesterday now ids => exact iff_of_false (hnone _) Bool.noConfusion
  | write db' userCreatedAt => exact iff_of_true trivial rfl

/-! ## Whole runs -/

theorem current_iff_along (store : Store) (acts : List Act) :
    Always step (Current store.db) (start store) acts ↔
      Along step NothingToWrite (start store) acts := by
  refine always_iff_along (J := fun _ => True) (fun _ _ h => h)
    (fun s a _ h => step_current_iff store.db s a h) acts (start store) trivial ?_
  constructor
  · intro day value hvalue
    cases hvalue
  · intro day _
    rfl

/-- From an empty table the rows of the rollups are never in place. -/
theorem along_empty_iff (acts : List Act) : ∀ s : State, s.store.db.dailyMetrics = [] →
    (Along step NothingToWrite s acts ↔ ∀ a ∈ acts, a.isRollup = false) := by
  induction acts with
  | nil =>
      intro s _
      exact iff_of_true (along_nil _ _ _) fun a ha => by cases ha
  | cons a acts ih =>
      intro s hs
      rw [along_cons, nothingToWrite_empty_iff hs, ih (step s a) ((step_metrics s a).trans hs),
        List.forall_mem_cons]

def idsNamed (name : String) : DailyMetricKind → Id
  | .messagesSentDirect => name ++ "1"
  | .messagesSentGroup => name ++ "2"
  | .dau => name ++ "3"
  | .newUsers => name ++ "4"
  | .reportsOpened => name ++ "5"
  | .reportsResolved => name ++ "6"
  | .usersSuspended => name ++ "7"

end Birgap.Moderation.Rollup
