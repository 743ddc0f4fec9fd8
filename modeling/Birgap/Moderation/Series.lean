import Birgap.Auth.Service
import Birgap.Lib.Paging
import Birgap.Moderation.Rollup

/-!
# The time series of the dashboard

`AnalyticsService.series` reads the table of the metrics. A rollup runs its queries one after the
other and is refused when it writes its rows, beside other rollups, prunes and the rest of the
program. So the table holds what it held at first, less what the prunes have dropped.
-/
namespace Birgap.Moderation.Series

set_option autoImplicit false

open Birgap.Common Birgap.Lib Birgap.Lib.Run Birgap.Lib.NullKeys Birgap.Lib.Paging
open Birgap.Moderation.Rollup (Store utcDayStart metricValue kinds metricKey refusedWith)

/-! ## The query -/

structure AnalyticsQueryDto where
  kind : DailyMetricKind
  from_ : Option Time := none
  to_ : Option Time := none
  dimension : Option String := none
  days : Option Int := none

structure SeriesPoint where
  date : Time
  value : Nat
  deriving DecidableEq

structure SeriesAnswer where
  kind : DailyMetricKind
  dimension : Option String
  fromDate : Time
  toDate : Time
  series : List SeriesPoint

def toDate (now : Time) (query : AnalyticsQueryDto) : Time := utcDayStart (query.to_.getD now)

def fromDate (now : Time) (query : AnalyticsQueryDto) : Time :=
  utcDayStart (query.from_.getD (addDays (query.to_.getD now) (-(query.days.getD 30 - 1))))

def inRange (now : Time) (query : AnalyticsQueryDto) (date : Time) : Bool :=
  decide (fromDate now query ≤ date) && decide (date ≤ toDate now query)

def isSelected (now : Time) (query : AnalyticsQueryDto) (m : DailyMetric) : Bool :=
  m.kind == query.kind && inRange now query m.date &&
    query.dimension.all fun dimension => m.dimension == some dimension

def seriesPoint (m : DailyMetric) : SeriesPoint := { date := m.date, value := m.value }

/-- `AnalyticsService.series`. -/
def series (order : OrderBy fun m : DailyMetric => m.date) (now : Time) (query : AnalyticsQueryDto)
    (db : Db) : SeriesAnswer :=
  { kind := query.kind, dimension := query.dimension
    fromDate := fromDate now query, toDate := toDate now query
    series := (order.arrange (db.dailyMetrics.filter (isSelected now query))).map seriesPoint }

/-! ## Rollups, query by query -/

/-- The queries of `rollupDay`, each with the values it brings. -/
def queries : List (List DailyMetricKind) :=
  [[.messagesSentDirect, .messagesSentGroup], [.dau], [.newUsers], [.reportsOpened],
    [.reportsResolved], [.usersSuspended]]

/-- A rollup: what it has counted, and the queries that are left. -/
structure Flight where
  dayStart : Time
  counted : DailyMetricKind → Nat
  left : List (List DailyMetricKind)

structure State where
  store : Store
  flights : Nat → Option Flight

/-- `rest` is any other write; no other code writes a metric. -/
inductive Act where
  | request (pid : Nat) (date : Time)
  | query (pid : Nat)
  | write (pid : Nat) (ids : DailyMetricKind → Id)
  | fail (pid : Nat)
  | prune (now : Time) (reportRetentionDays metricsRetentionDays : Int)
  | rest (db : Db) (userCreatedAt : Id → Time)

def valueRows (dayStart : Time) (ids : DailyMetricKind → Id) (value : DailyMetricKind → Nat) :
    List DailyMetric :=
  kinds.map fun kind => { id := ids kind, date := dayStart, kind, dimension := none, value := value kind }

/-- The transaction of `rollupDay`. -/
def upsertRows (rows : List DailyMetric) (s : Store) : Except Err Unit × Store :=
  match upsertAll metricKey (·.id) (fun row m => { m with value := row.value }) rows
    s.db.dailyMetrics with
  | .error e => (.error (refusedWith e), s)
  | .ok metrics => (.ok (), { s with db := { s.db with dailyMetrics := metrics } })

def Flight.count (f : Flight) (s : Store) (brought : List DailyMetricKind)
    (left : List (List DailyMetricKind)) : Flight :=
  { f with
    counted := fun kind => if kind ∈ brought then metricValue f.dayStart s kind else f.counted kind
    left }

def State.set (s : State) (pid : Nat) (f : Option Flight) : State :=
  { s with flights := Function.update s.flights pid f }

def step (s : State) : Act → State
  | .request pid date =>
      match s.flights pid with
      | some _ => s
      | none => s.set pid (some ⟨utcDayStart date, fun _ => 0, queries⟩)
  | .query pid =>
      match s.flights pid with
      | some ⟨dayStart, counted, brought :: left⟩ =>
          s.set pid (some (Flight.count ⟨dayStart, counted, brought :: left⟩ s.store brought left))
      | _ => s
  | .write pid ids =>
      match s.flights pid with
      | some ⟨dayStart, counted, []⟩ =>
          { s.set pid none with
            store := (upsertRows (valueRows dayStart ids counted) s.store).2 }
      | _ => s
  | .fail pid => s.set pid none
  | .prune now reports metrics =>
      { s with store := { s.store with db := Auth.prune now reports metrics s.store.db } }
  | .rest db userCreatedAt =>
      { s with store :=
          { db := { db with dailyMetrics := s.store.db.dailyMetrics }, userCreatedAt } }

def start (store : Store) : State := { store, flights := fun _ => none }

/-- Run alone, the statements are the rollup in one piece. -/
theorem uninterrupted_rollup (s : State) (pid : Nat) (hpid : s.flights pid = none) (date : Time)
    (ids : DailyMetricKind → Id) :
    (run step s (.request pid date :: List.replicate 6 (.query pid) ++ [.write pid ids])).store =
      (Rollup.rollupDay date ids s.store).2 := by
  have hcounted : (run step s (.request pid date :: List.replicate 6 (.query pid))) =
      s.set pid (some ⟨utcDayStart date, metricValue (utcDayStart date) s.store, []⟩) := by
    simp only [List.replicate, run_cons, run_nil, step, hpid, queries, Flight.count, State.set,
      Function.update_self, Function.update_idem]
    congr 4
    funext kind
    cases kind <;> rfl
  rw [run_append, hcounted, run_cons, run_nil]
  simp only [step, State.set, Function.update_self]
  have hrows : valueRows (utcDayStart date) ids (metricValue (utcDayStart date) s.store) =
      Rollup.metricRows (utcDayStart date) ids s.store := rfl
  unfold Rollup.rollupDay upsertRows
  rw [hrows]
  dsimp only
  generalize upsertAll metricKey (fun m : DailyMetric => m.id)
    (fun row m => { m with value := row.value })
    (Rollup.metricRows (utcDayStart date) ids s.store) s.store.db.dailyMetrics = outcome
  cases outcome with
  | error e => rfl
  | ok metrics => rfl

/-! ## What is on the dashboard -/

/-- Whatever a rollup has counted, its rows have no dimension and are refused. -/
theorem upsertRows_refused (dayStart : Time) (ids : DailyMetricKind → Id)
    (value : DailyMetricKind → Nat) (s : Store) :
    upsertRows (valueRows dayStart ids value) s = (.error (refusedWith .nullInKey), s) := by
  have hmem : (⟨ids .dau, dayStart, .dau, none, value .dau⟩ : DailyMetric) ∈
      valueRows dayStart ids value :=
    List.mem_map_of_mem (by decide : DailyMetricKind.dau ∈ kinds)
  unfold upsertRows
  rw [upsertAll_null hmem rfl]

/-- The act has the date behind its cutoff. -/
def Act.drops (date : Time) : Act → Bool
  | .prune now _ metrics => decide (date < addDays now (-metrics))
  | _ => false

/-- The rows that no prune of a run has behind its cutoff. -/
def spared (acts : List Act) (metrics : List DailyMetric) : List DailyMetric :=
  metrics.filter fun m => !acts.any (·.drops m.date)

/-- A step leaves the table as it is, less what it drops. -/
theorem step_metrics (s : State) (a : Act) :
    (step s a).store.db.dailyMetrics =
      s.store.db.dailyMetrics.filter fun m => !a.drops m.date := by
  have hkept : ∀ rows : List DailyMetric, rows.filter (fun _ => !false) = rows :=
    fun rows => List.filter_eq_self.mpr fun _ _ => rfl
  cases a with
  | prune now reports metrics => rfl
  | write pid ids =>
      refine Eq.trans ?_ (hkept _).symm
      simp only [step]
      split
      · rename_i dayStart counted _
        rw [upsertRows_refused]
      · rfl
  | request pid date =>
      refine Eq.trans ?_ (hkept _).symm
      simp only [step]
      split <;> rfl
  | query pid =>
      refine Eq.trans ?_ (hkept _).symm
      simp only [step]
      split <;> rfl
  | fail pid => exact (hkept _).symm
  | rest db userCreatedAt => exact (hkept _).symm

theorem run_metrics (acts : List Act) :
    ∀ s, (run step s acts).store.db.dailyMetrics = spared acts s.store.db.dailyMetrics := by
  induction acts with
  | nil =>
      intro s
      exact (List.filter_eq_self.mpr fun _ _ => rfl).symm
  | cons a acts ih =>
      intro s
      rw [run_cons, ih, step_metrics]
      unfold spared
      rw [List.filter_filter]
      congr 1
      funext m
      rw [List.any_cons, Bool.not_or, Bool.and_comm]

/-- A rollup during which a user joins leaves the dashboard empty. -/
example : (series (.stable _) 86400000 { kind := .newUsers }
    (run step (start { db := {}, userCreatedAt := fun _ => 0 })
      (.request 0 0 :: List.replicate 2 (.query 0) ++
        .rest { users := [{ id := "u1", phoneHash := "h1" }] } (fun _ => 1000) ::
          List.replicate 4 (.query 0) ++ [.write 0 (Rollup.idsNamed "a")])).store.db).series = [] := by
  decide

end Birgap.Moderation.Series
