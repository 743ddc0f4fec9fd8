import Birgap.Moderation.Closing
import Birgap.Moderation.Rollup
import Birgap.Lib.Evolution

/-!
# Counting the resolved reports

No rollup stores its count of the resolved reports, so none is counted wrongly. What its query
finds is another matter: it takes the reports whose `reviewedAt` lies in the day. That stamp is
written when a review starts and whenever a report is named with a tombstone, closed or not, so
a report can be found on a day on which nothing was resolved, and on several days.
-/
namespace Birgap.Moderation.Resolved

set_option autoImplicit false

open Birgap.Common Birgap.Lib Birgap.Lib.Run Birgap.Lib.Tx Birgap.Lib.Evolution
open Birgap.Moderation.Rollup (utcDayStart inDay reportsResolved)

/-! ## The operations, run alone -/

/-- `ReportsService.create`. -/
def create (limits : ReportLimits) (clientIp : Option String) (yyyymmdd yyyyMMddHHmm : String)
    (now : Time) (reportId reporterUserId : Id) (dto : CreateReportDto) (c : Counters) (db : Db) :
    Except Err Report × Counters × Db :=
  match createChecks reporterUserId dto db with
  | .error e => (.error e, c, db)
  | .ok reporter =>
      match createLimits limits clientIp yyyymmdd yyyyMMddHHmm reporter c with
      | (.error e, c) => (.error e, c, db)
      | (.ok (), c) =>
          match upsertReport now reportId reporterUserId dto db with
          | .error e => (.error e, c, db)
          | .ok (report, db) => (.ok report, c, db)

def markInReview (now : Time) (actorUserId reportId : Id) (db : Db) : Except Err Report × Db :=
  match reviewCheck reportId db with
  | .error e => (.error e, db)
  | .ok existing =>
      -- a report already in review is returned as it is
      if existing.status = .inReview then (.ok existing, db)
      else
        match updateReport reportId (inReview now actorUserId) db with
        | .error e => (.error e, db)
        | .ok (updated, db) => (.ok updated, auditWrite (reviewStartAudit actorUserId reportId) db)

def dismiss (now : Time) (actorUserId reportId : Id) (dto : DismissReportDto) (db : Db) :
    Except Err Report × Db :=
  match reviewCheck reportId db with
  | .error e => (.error e, db)
  | .ok _ =>
      match updateReport reportId (closedAs .dismissed now actorUserId) db with
      | .error e => (.error e, db)
      | .ok (updated, db) => (.ok updated, auditWrite (dismissAudit actorUserId reportId dto) db)

def tombstoneMessage (now : Time) (actorUserId : Id) (actorRole : UserRole) (messageId : Id)
    (dto : TombstoneMessageDto) (db : Db) : Except Err (Id × Time) × Db :=
  match tombstoneCheck actorRole messageId db with
  | .error e => (.error e, db)
  | .ok _ =>
      match tombstoneTx now actorUserId messageId dto db with
      | .error e => (.error e, db)
      | .ok db => (.ok (messageId, now), db)

/-! ## Runs -/

/-- The store, when each report became closed, the reports that rollups have found resolved on a
day, those of them in a count that was stored, and the days rolled up. -/
structure State where
  db : Db
  counters : Counters
  closings : List (Id × Time)
  found : List (Time × Id)
  counted : List (Time × Id)
  rolled : List Time

inductive Act where
  | create (limits : ReportLimits) (clientIp : Option String) (yyyymmdd yyyyMMddHHmm : String)
      (now : Time) (reportId reporterUserId : Id) (dto : CreateReportDto)
  | markInReview (now : Time) (actorUserId reportId : Id)
  | dismiss (now : Time) (actorUserId reportId : Id) (dto : DismissReportDto)
  | tombstoneMessage (now : Time) (actorUserId : Id) (actorRole : UserRole) (messageId : Id)
      (dto : TombstoneMessageDto)
  | suspendUser (now : Time) (suspensionId actorUserId : Id) (actorRole : UserRole)
      (targetUserId : Id) (dto : SuspendUserDto)
  | rollupYesterday (now : Time) (ids : DailyMetricKind → Id)
  | expire (key : String)

/-- The reports that are closed in `db'` and were not in `db`. -/
def newlyClosed (db db' : Db) : List Id :=
  (db'.reports.filter fun r => r.status == .closed &&
    !db.reports.any fun old => old.id == r.id && old.status == .closed).map (·.id)

def State.moved (s : State) (now : Time) (db : Db) : State :=
  { s with db, closings := s.closings ++ (newlyClosed s.db db).map fun id => (id, now) }

/-- The day `rollupYesterday` rolls up. -/
def yesterday (now : Time) : Time := utcDayStart (addDays now (-1))

def step (userCreatedAt : Id → Time) (s : State) : Act → State
  | .create limits ip day minute now reportId reporterUserId dto =>
      match create limits ip day minute now reportId reporterUserId dto s.counters s.db with
      | (_, counters, db) => { s with counters }.moved now db
  | .markInReview now actor reportId => s.moved now (markInReview now actor reportId s.db).2
  | .dismiss now actor reportId dto => s.moved now (dismiss now actor reportId dto s.db).2
  | .tombstoneMessage now actor role messageId dto =>
      s.moved now (tombstoneMessage now actor role messageId dto s.db).2
  | .suspendUser now sid actor role target dto =>
      s.moved now (suspendUser now sid actor role target dto s.db).2
  | .rollupYesterday now ids =>
      let found := (reportsResolved (yesterday now) s.db).map fun r => (yesterday now, r.id)
      match Rollup.rollupYesterday now ids { db := s.db, userCreatedAt } with
      | (.error _, store) =>
          { s with
            db := store.db, found := s.found ++ found, rolled := s.rolled ++ [yesterday now] }
      | (.ok _, store) =>
          { s with
            db := store.db, found := s.found ++ found, counted := s.counted ++ found
            rolled := s.rolled ++ [yesterday now] }
  | .expire key => { s with counters := Function.update s.counters key 0 }

def start (db : Db) : State :=
  { db, counters := fun _ => 0, closings := [], found := [], counted := [], rolled := [] }

/-- Every listed report was closed on the day it is listed for, and none is listed twice. -/
structure Once (listed : List (Time × Id)) (closings : List (Id × Time)) : Prop where
  closed : ∀ c ∈ listed, ∃ t, (c.2, t) ∈ closings ∧ utcDayStart t = c.1
  once : (listed.map (·.2)).Nodup

/-- The scheduled rollup runs once for each day. -/
def OncePerDay (s : State) : Act → Prop
  | .rollupYesterday now _ => yesterday now ∉ s.rolled
  | _ => True

/-- The day of the stamp of a report. -/
def stampDay (r : Report) : Option Time := r.reviewedAt.map utcDayStart

/-- A tombstone that goes ahead names no report that was closed on another day, and what a
rollup finds is closed. -/
def StampsTrue (s : State) : Act → Prop
  | .tombstoneMessage now _ role messageId dto =>
      (∀ m, tombstoneCheck role messageId s.db ≠ .ok m) ∨
        ∀ r ∈ s.db.reports, truthy dto.reportId = some r.id → r.status = .closed →
          stampDay r = some (utcDayStart now)
  | .rollupYesterday now _ => ∀ r ∈ reportsResolved (yesterday now) s.db, r.status = .closed
  | _ => True

/-! ## What an operation does to one report -/

structure Moves (now : Time) (r r' : Report) : Prop where
  key : r'.id = r.id
  closed : r.status = .closed → r'.status = .closed ∧ stampDay r' = stampDay r
  closing : r.status ≠ .closed → r'.status = .closed → stampDay r' = some (utcDayStart now)

/-- A report is closed today, if at all. -/
def ClosedToday (now : Time) (r : Report) : Prop :=
  r.status = .closed → stampDay r = some (utcDayStart now)

abbrev ReportsMove (now : Time) (rows rows' : List Report) : Prop :=
  Evolves (·.id) (Moves now) (ClosedToday now) rows rows'

section Moves

variable {now : Time} {actor : Id}

theorem Moves.refl (r : Report) : Moves now r r :=
  ⟨rfl, fun h => ⟨h, rfl⟩, fun h h' => absurd h' h⟩

theorem Moves.trans (a b c : Report) (h : Moves now a b) (h' : Moves now b c) : Moves now a c := by
  constructor
  · exact h'.key.trans h.key
  · intro ha
    obtain ⟨hb, hday⟩ := h.closed ha
    obtain ⟨hc, hday'⟩ := h'.closed hb
    exact ⟨hc, hday'.trans hday⟩
  · intro ha hc
    by_cases hb : b.status = .closed
    · exact (h'.closed hb).2.trans (h.closing ha hb)
    · exact h'.closing hb hc

/-- Closing a report stamps it, and one closed before is stamped on the same day. -/
theorem moves_closedAs {resolution : ReportResolution} {r : Report}
    (h : ClosedToday now r) : Moves now r (closedAs resolution now actor r) :=
  ⟨rfl, fun hr => ⟨rfl, (h hr).symm⟩, fun _ _ => rfl⟩

theorem moves_inReview {r : Report} (h : r.status ≠ .closed) : Moves now r (inReview now actor r) := by
  refine ⟨rfl, fun hr => absurd hr h, ?_⟩
  intro _ hclosed
  cases hclosed

theorem moves_signed {r : Report} (h : ClosedToday now r) :
    Moves now r { r with reviewedByUserId := some actor, reviewedAt := some now } :=
  ⟨rfl, fun hr => ⟨hr, (h hr).symm⟩, fun _ _ => rfl⟩

theorem reportsMove_refl (rows : List Report) : ReportsMove now rows rows :=
  Evolves.refl Moves.refl rows

theorem ReportsMove.trans {a b c : List Report} (h : ReportsMove now a b) (h' : ReportsMove now b c) :
    ReportsMove now a c := by
  refine Evolves.trans Moves.trans ?_ h h'
  intro r r' hr hmove hclosed'
  by_cases hclosed : r.status = .closed
  · exact (hmove.closed hclosed).2.trans (hr hclosed)
  · exact hmove.closing hclosed hclosed'

/-- The bulk updates stamp only what they close. -/
theorem reportsMove_close {p : Report → Bool} {resolution : ReportResolution} (rows : List Report) :
    ReportsMove now rows
      (Rows.updateMany (fun r => p r && isOpenOrInReview r) (closedAs resolution now actor) rows) := by
  refine Evolves.updateMany (f := closedAs resolution now actor) (fun _ => rfl) Moves.refl ?_
  intro r _ hp
  have hopen := Closing.closed_of_isOpenOrInReview (Bool.and_eq_true_iff.mp hp).2
  exact moves_closedAs fun hr => absurd hr hopen

theorem reportsMove_update {reportId : Id} {f : Report → Report} {db db' : Db} {updated : Report}
    (h : updateReport reportId f db = .ok (updated, db')) (hid : ∀ r, (f r).id = r.id)
    (hmove : ∀ r ∈ db.reports, r.id = reportId → Moves now r (f r)) :
    ReportsMove now db.reports db'.reports := by
  rw [Closing.updateReport_ok h]
  refine Evolves.updateMany hid Moves.refl ?_
  intro r hr hp
  exact hmove r hr (beq_iff_eq.mp hp)

theorem reportsMove_upsert {reportId reporterUserId : Id} {dto : CreateReportDto} {db db' : Db}
    {r : Report} (h : upsertReport now reportId reporterUserId dto db = .ok (r, db')) :
    ReportsMove now db.reports db'.reports := by
  unfold upsertReport at h
  split at h
  · obtain ⟨_, rfl⟩ := Prod.mk.inj (Except.ok.inj h)
    exact reportsMove_refl _
  · split at h
    · cases h
    · rename_i hid
      obtain ⟨_, rfl⟩ := Prod.mk.inj (Except.ok.inj h)
      refine Evolves.append Moves.refl (fun hclosed => by cases hclosed) ?_
      intro x hx he
      exact hid (List.any_eq_true.mpr ⟨x, hx, beq_iff_eq.mpr he⟩)

/-- A report is closed or reviewed by id only while it is not closed. -/
theorem reviewCheck_open {reportId : Id} {db : Db} {existing : Report}
    (hu : Rows.Unique (·.id) db.reports) (h : reviewCheck reportId db = .ok existing) :
    ∀ r ∈ db.reports, r.id = reportId → r.status ≠ .closed := by
  intro r hr hid
  unfold reviewCheck findReport at h
  rw [← hid, hu.find?_eq hr] at h
  dsimp only at h
  split at h
  · cases h
  · rename_i hopen
    exact hopen

theorem reportsMove_tombstone {messageId : Id} {dto : TombstoneMessageDto} {db db' : Db}
    (h : tombstoneTx now actor messageId dto db = .ok db')
    (hnamed : ∀ r ∈ db.reports, truthy dto.reportId = some r.id → ClosedToday now r) :
    ReportsMove now db.reports db'.reports := by
  have hbulk : ReportsMove now db.reports
      (closeReportsOf messageId .autoClosedTombstoned now actor db).reports :=
    reportsMove_close db.reports
  rw [Closing.tombstoneTx_reports h]
  refine ReportsMove.trans hbulk (Evolves.updateMany (fun _ => rfl) Moves.refl ?_)
  intro r' hr' hr'id
  -- what is signed was closed by the bulk update, or is the report the request names
  apply moves_signed
  intro hclosed'
  rcases hbulk.origin r' hr' with ⟨r, hr, hmove⟩ | hnew
  · by_cases hclosed : r.status = .closed
    · rw [(hmove.closed hclosed).2]
      have hid : r'.id = r.id := hmove.key
      exact hnamed r hr (hid ▸ beq_iff_eq.mp hr'id) hclosed
    · exact hmove.closing hclosed hclosed'
  · exact hnew hclosed'

theorem reportsMove_suspend {sid target : Id} {dto : SuspendUserDto} {db db' : Db} {r : SuspendResult}
    (h : suspendTx now sid actor target dto db = .ok (r, db')) :
    ReportsMove now db.reports db'.reports := by
  rw [Closing.suspendTx_reports h]
  exact ReportsMove.trans (reportsMove_close db.reports) (reportsMove_close _)

end Moves

/-! ## What an operation does to the table -/

section Operations

variable {now : Time} {actor : Id} {db : Db}

theorem create_moves (limits : ReportLimits) (ip : Option String) (day minute : String)
    (reportId reporterUserId : Id) (dto : CreateReportDto) (c : Counters) :
    ReportsMove now db.reports
      (create limits ip day minute now reportId reporterUserId dto c db).2.2.reports := by
  unfold create
  split
  · exact reportsMove_refl _
  · split
    · exact reportsMove_refl _
    · split
      · exact reportsMove_refl _
      · rename_i hup
        exact reportsMove_upsert hup

theorem markInReview_moves (hu : Rows.Unique (·.id) db.reports) (reportId : Id) :
    ReportsMove now db.reports (markInReview now actor reportId db).2.reports := by
  unfold markInReview
  split
  · exact reportsMove_refl _
  · rename_i hcheck
    split
    · exact reportsMove_refl _
    · split
      · exact reportsMove_refl _
      · rename_i updated db' hup
        show ReportsMove now db.reports db'.reports
        refine reportsMove_update hup (fun _ => rfl) ?_
        intro r hr hid
        exact moves_inReview (reviewCheck_open hu hcheck r hr hid)

theorem dismiss_moves (hu : Rows.Unique (·.id) db.reports) (reportId : Id) (dto : DismissReportDto) :
    ReportsMove now db.reports (dismiss now actor reportId dto db).2.reports := by
  unfold dismiss
  split
  · exact reportsMove_refl _
  · rename_i hcheck
    split
    · exact reportsMove_refl _
    · rename_i updated db' hup
      show ReportsMove now db.reports db'.reports
      refine reportsMove_update hup (fun _ => rfl) ?_
      intro r hr hid
      exact moves_closedAs fun hclosed => absurd hclosed (reviewCheck_open hu hcheck r hr hid)

theorem tombstoneMessage_moves {role : UserRole} {messageId : Id} {dto : TombstoneMessageDto}
    (h : (∀ m, tombstoneCheck role messageId db ≠ .ok m) ∨
      ∀ r ∈ db.reports, truthy dto.reportId = some r.id → ClosedToday now r) :
    ReportsMove now db.reports (tombstoneMessage now actor role messageId dto db).2.reports := by
  unfold tombstoneMessage
  split
  · exact reportsMove_refl _
  · rename_i m hcheck
    split
    · exact reportsMove_refl _
    · rename_i htx
      rcases h with hrejected | hnamed
      · exact absurd hcheck (hrejected m)
      · exact reportsMove_tombstone htx hnamed

theorem suspendUser_moves (sid : Id) (role : UserRole) (target : Id) (dto : SuspendUserDto) :
    ReportsMove now db.reports (suspendUser now sid actor role target dto db).2.reports := by
  unfold suspendUser
  split
  · exact reportsMove_refl _
  · split
    · exact reportsMove_refl _
    · rename_i htx
      exact reportsMove_suspend htx

end Operations

/-! ## One step -/

/-- The days of a run and its stamps agree with the closings. -/
structure Inv (s : State) : Prop where
  keys : Rows.Unique (·.id) s.db.reports
  stamped : ∀ r ∈ s.db.reports, r.status = .closed →
    ∃ t, (r.id, t) ∈ s.closings ∧ stampDay r = some (utcDayStart t)
  logged : ∀ c ∈ s.closings, ∃ r ∈ s.db.reports, r.id = c.1 ∧ r.status = .closed
  closedOnce : (s.closings.map (·.1)).Nodup
  found : ∀ c ∈ s.found, c.1 ∈ s.rolled ∧ ∃ t, (c.2, t) ∈ s.closings ∧ utcDayStart t = c.1
  foundOnce : (s.found.map (·.2)).Nodup

theorem Inv.findsOnce {s : State} (h : Inv s) : Once s.found s.closings :=
  ⟨fun c hc => (h.found c hc).2, h.foundOnce⟩

theorem mem_newlyClosed {db db' : Db} {id : Id} :
    id ∈ newlyClosed db db' ↔ (∃ r ∈ db'.reports, r.id = id ∧ r.status = .closed) ∧
      ∀ r ∈ db.reports, r.id = id → r.status ≠ .closed := by
  unfold newlyClosed
  rw [List.mem_map]
  constructor
  · intro h
    obtain ⟨r, hr, rfl⟩ := h
    obtain ⟨hr, hnew⟩ := List.mem_filter.mp hr
    obtain ⟨hclosed, hold⟩ := Bool.and_eq_true_iff.mp hnew
    refine ⟨⟨r, hr, rfl, beq_iff_eq.mp hclosed⟩, ?_⟩
    intro x hx hid hxclosed
    have hno := List.any_eq_false.mp ((Bool.not_eq_true' _).mp hold) x hx
    simp [hid, hxclosed] at hno
  · intro h
    obtain ⟨⟨r, hr, rfl, hclosed⟩, hold⟩ := h
    refine ⟨r, List.mem_filter.mpr ⟨hr, ?_⟩, rfl⟩
    rw [hclosed, beq_self_eq_true, Bool.true_and, Bool.not_eq_true', List.any_eq_false]
    intro x hx hxold
    obtain ⟨hid, hxclosed⟩ := Bool.and_eq_true_iff.mp hxold
    exact hold x hx (beq_iff_eq.mp hid) (beq_iff_eq.mp hxclosed)

theorem nodup_newlyClosed {db db' : Db} (h : Rows.Unique (·.id) db'.reports) :
    (newlyClosed db db').Nodup := h.filter _

/-- An operation that only moves the reports on keeps the invariant. -/
theorem inv_moved {s : State} (h : Inv s) {now : Time} {db : Db}
    (hmove : ReportsMove now s.db.reports db.reports) : Inv (s.moved now db) := by
  have hkeys := hmove.keys h.keys
  have hids : (((newlyClosed s.db db).map fun id => (id, now)).map (·.1)) = newlyClosed s.db db := by
    rw [List.map_map]
    exact List.map_id _
  unfold State.moved
  constructor
  · exact hkeys
  · intro r' hr' hclosed'
    dsimp only at hr' ⊢
    by_cases hold : ∃ r ∈ s.db.reports, r.id = r'.id ∧ r.status = .closed
    · obtain ⟨r, hr, hid, hclosed⟩ := hold
      obtain ⟨x, hx, hrx⟩ := hmove.kept r hr
      obtain rfl := hkeys.eq hx hr' (hrx.key.trans hid)
      obtain ⟨t, ht, hday⟩ := h.stamped r hr hclosed
      rw [hid] at ht
      exact ⟨t, List.mem_append_left _ ht, (hrx.closed hclosed).2.trans hday⟩
    · have hopen : ∀ r ∈ s.db.reports, r.id = r'.id → r.status ≠ .closed :=
        fun r hr hid hclosed => hold ⟨r, hr, hid, hclosed⟩
      refine ⟨now, List.mem_append_right _ (List.mem_map_of_mem ?_), ?_⟩
      · exact mem_newlyClosed.mpr ⟨⟨r', hr', rfl, hclosed'⟩, hopen⟩
      · rcases hmove.origin r' hr' with ⟨r, hr, hrr'⟩ | hnew
        · exact hrr'.closing (hopen r hr hrr'.key.symm) hclosed'
        · exact hnew hclosed'
  · intro c hc
    dsimp only at hc ⊢
    rcases List.mem_append.mp hc with hc | hc
    · obtain ⟨r, hr, hid, hclosed⟩ := h.logged c hc
      obtain ⟨r', hr', hrr'⟩ := hmove.kept r hr
      exact ⟨r', hr', hrr'.key.trans hid, (hrr'.closed hclosed).1⟩
    · obtain ⟨id, hid, rfl⟩ := List.mem_map.mp hc
      exact (mem_newlyClosed.mp hid).1
  · dsimp only
    rw [List.map_append, hids, List.nodup_append]
    refine ⟨h.closedOnce, nodup_newlyClosed hkeys, ?_⟩
    intro id hid id' hid' he
    obtain ⟨c, hc, rfl⟩ := List.mem_map.mp hid
    obtain ⟨r, hr, hrid, hclosed⟩ := h.logged c hc
    exact (mem_newlyClosed.mp hid').2 r hr (hrid.trans he) hclosed
  · intro c hc
    obtain ⟨hday, t, ht, he⟩ := h.found c hc
    exact ⟨hday, t, List.mem_append_left _ ht, he⟩
  · exact h.foundOnce

theorem inDay_iff (d t : Time) : inDay (utcDayStart d) t = true ↔ utcDayStart t = utcDayStart d := by
  have hint : ∀ d t : Int, d - d % 86400000 ≤ t ∧ t < d - d % 86400000 + 1 * 86400000 ↔
      t - t % 86400000 = d - d % 86400000 := by
    intro d t
    omega
  unfold inDay
  rw [Bool.and_eq_true, decide_eq_true_eq, decide_eq_true_eq]
  exact hint d t

theorem mem_reportsResolved {d : Time} {db : Db} {r : Report} :
    r ∈ reportsResolved (utcDayStart d) db ↔ r ∈ db.reports ∧ stampDay r = some (utcDayStart d) := by
  unfold reportsResolved stampDay
  rw [List.mem_filter, Option.any_eq_true, Option.map_eq_some_iff]
  simp only [inDay_iff]

/-- A rollup that finds closed reports only finds those closed on its day. -/
theorem inv_found {s : State} (h : Inv s) {now : Time} {db : Db} (hdb : db.reports = s.db.reports)
    (hday : yesterday now ∉ s.rolled)
    (hclosed : ∀ r ∈ reportsResolved (yesterday now) s.db, r.status = .closed) :
    Inv { s with
      db
      found := s.found ++ (reportsResolved (yesterday now) s.db).map fun r => (yesterday now, r.id)
      rolled := s.rolled ++ [yesterday now] } := by
  have hnew : ∀ r ∈ reportsResolved (yesterday now) s.db,
      ∃ t, (r.id, t) ∈ s.closings ∧ utcDayStart t = yesterday now := by
    intro r hr
    obtain ⟨hmem, hstamp⟩ := mem_reportsResolved.mp hr
    obtain ⟨t, ht, hstampt⟩ := h.stamped r hmem (hclosed r hr)
    rw [hstamp] at hstampt
    exact ⟨t, ht, (Option.some.inj hstampt).symm⟩
  constructor
  · rw [hdb]
    exact h.keys
  · rw [hdb]
    exact h.stamped
  · rw [hdb]
    exact h.logged
  · exact h.closedOnce
  · intro c hc
    rcases List.mem_append.mp hc with hc | hc
    · obtain ⟨hrolled, hclosing⟩ := h.found c hc
      exact ⟨List.mem_append_left _ hrolled, hclosing⟩
    · obtain ⟨r, hr, rfl⟩ := List.mem_map.mp hc
      exact ⟨List.mem_append_right _ List.mem_cons_self, hnew r hr⟩
  · have hids : ((reportsResolved (yesterday now) s.db).map fun r => (yesterday now, r.id)).map (·.2) =
        (reportsResolved (yesterday now) s.db).map (·.id) := by
      rw [List.map_map]
      rfl
    dsimp only
    rw [List.map_append, hids, List.nodup_append]
    refine ⟨h.foundOnce, h.keys.filter _, ?_⟩
    -- a report found before was closed on a day that has been rolled up
    intro id hid id' hid' he
    obtain ⟨c, hc, rfl⟩ := List.mem_map.mp hid
    obtain ⟨r, hr, rfl⟩ := List.mem_map.mp hid'
    obtain ⟨hrolled, t, ht, htday⟩ := h.found c hc
    obtain ⟨u, hu, huday⟩ := hnew r hr
    have hlog : Rows.Unique (fun c : Id × Time => c.1) s.closings := h.closedOnce
    obtain ⟨_, rfl⟩ := Prod.mk.inj (hlog.eq ht hu he)
    rw [← htday, huday] at hrolled
    exact hday hrolled

theorem step_inv (userCreatedAt : Id → Time) (s : State) (a : Act) (h : Inv s)
    (hc : OncePerDay s a ∧ StampsTrue s a) : Inv (step userCreatedAt s a) := by
  obtain ⟨hday, htrue⟩ := hc
  cases a with
  | create limits ip day minute now reportId reporterUserId dto =>
      have hcounters : Inv { s with counters :=
          (create limits ip day minute now reportId reporterUserId dto s.counters s.db).2.1 } :=
        ⟨h.keys, h.stamped, h.logged, h.closedOnce, h.found, h.foundOnce⟩
      exact inv_moved hcounters
        (create_moves limits ip day minute reportId reporterUserId dto s.counters)
  | markInReview now actor reportId => exact inv_moved h (markInReview_moves h.keys reportId)
  | dismiss now actor reportId dto => exact inv_moved h (dismiss_moves h.keys reportId dto)
  | tombstoneMessage now actor role messageId dto => exact inv_moved h (tombstoneMessage_moves htrue)
  | suspendUser now sid actor role target dto =>
      exact inv_moved h (suspendUser_moves sid role target dto)
  | rollupYesterday now ids =>
      simp only [step, Rollup.rollupYesterday, Rollup.rollupDay_refused]
      exact inv_found h rfl hday htrue
  | expire key => exact ⟨h.keys, h.stamped, h.logged, h.closedOnce, h.found, h.foundOnce⟩

/-! ## The metrics -/

section Metrics

variable {now : Time} {actor : Id} {db : Db}

theorem updateReport_metrics {reportId : Id} {f : Report → Report} {db' : Db} {updated : Report}
    (h : updateReport reportId f db = .ok (updated, db')) : db'.dailyMetrics = db.dailyMetrics := by
  rw [Closing.updateReport_ok h]

theorem upsertReport_metrics {reportId reporterUserId : Id} {dto : CreateReportDto} {db' : Db}
    {r : Report} (h : upsertReport now reportId reporterUserId dto db = .ok (r, db')) :
    db'.dailyMetrics = db.dailyMetrics := by
  unfold upsertReport at h
  split at h
  · obtain ⟨_, rfl⟩ := Prod.mk.inj (Except.ok.inj h)
    rfl
  · split at h
    · cases h
    · obtain ⟨_, rfl⟩ := Prod.mk.inj (Except.ok.inj h)
      rfl

theorem tombstoneTx_metrics {messageId : Id} {dto : TombstoneMessageDto} {db' : Db}
    (h : tombstoneTx now actor messageId dto db = .ok db') : db'.dailyMetrics = db.dailyMetrics := by
  obtain ⟨⟨m, marked⟩, hmark, hrest⟩ := bind_ok.mp h
  obtain ⟨closed, hclose, hend⟩ := bind_ok.mp hrest
  obtain rfl := Except.ok.inj hend
  have hmarked : marked.dailyMetrics = db.dailyMetrics := by
    unfold updateMessage at hmark
    dsimp only at hmark
    split at hmark
    · cases hmark
    · obtain ⟨_, rfl⟩ := Prod.mk.inj (Except.ok.inj hmark)
      rfl
  show closed.dailyMetrics = db.dailyMetrics
  rw [← hmarked]
  unfold closeReportsWith at hclose
  split at hclose
  · obtain ⟨⟨updated, signed⟩, hsign, hend⟩ := bind_ok.mp hclose
    obtain rfl := Except.ok.inj hend
    have hsigned := updateReport_metrics hsign
    exact hsigned
  · obtain rfl := Except.ok.inj hclose
    rfl

theorem suspendTx_metrics {sid target : Id} {dto : SuspendUserDto} {db' : Db} {r : SuspendResult}
    (h : suspendTx now sid actor target dto db = .ok (r, db')) :
    db'.dailyMetrics = db.dailyMetrics := by
  unfold suspendTx at h
  split at h
  · cases h
  · split at h
    · cases h
    · obtain ⟨_, rfl⟩ := Prod.mk.inj (Except.ok.inj h)
      unfold auditWrite
      dsimp only
      split <;> split <;> rfl

/-- No step writes a metric. -/
theorem step_metrics (userCreatedAt : Id → Time) (s : State) (a : Act) :
    (step userCreatedAt s a).db.dailyMetrics = s.db.dailyMetrics := by
  cases a with
  | create limits ip day minute now reportId reporterUserId dto =>
      show (create limits ip day minute now reportId reporterUserId dto s.counters s.db).2.2.dailyMetrics
        = s.db.dailyMetrics
      unfold create
      split
      · rfl
      · split
        · rfl
        · split
          · rfl
          · rename_i hup
            exact upsertReport_metrics hup
  | markInReview now actor reportId =>
      show (markInReview now actor reportId s.db).2.dailyMetrics = s.db.dailyMetrics
      unfold markInReview
      split
      · rfl
      · split
        · rfl
        · split
          · rfl
          · rename_i updated db' hup
            show db'.dailyMetrics = s.db.dailyMetrics
            exact updateReport_metrics hup
  | dismiss now actor reportId dto =>
      show (dismiss now actor reportId dto s.db).2.dailyMetrics = s.db.dailyMetrics
      unfold dismiss
      split
      · rfl
      · split
        · rfl
        · rename_i updated db' hup
          show db'.dailyMetrics = s.db.dailyMetrics
          exact updateReport_metrics hup
  | tombstoneMessage now actor role messageId dto =>
      show (tombstoneMessage now actor role messageId dto s.db).2.dailyMetrics = s.db.dailyMetrics
      unfold tombstoneMessage
      split
      · rfl
      · split
        · rfl
        · rename_i htx
          exact tombstoneTx_metrics htx
  | suspendUser now sid actor role target dto =>
      show (suspendUser now sid actor role target dto s.db).2.dailyMetrics = s.db.dailyMetrics
      unfold suspendUser
      split
      · rfl
      · split
        · rfl
        · rename_i htx
          exact suspendTx_metrics htx
  | rollupYesterday now ids =>
      simp only [step, Rollup.rollupYesterday, Rollup.rollupDay_refused]
  | expire key => rfl

/-- A rollup is refused with its count. -/
theorem step_counted (userCreatedAt : Id → Time) (s : State) (a : Act) :
    (step userCreatedAt s a).counted = s.counted := by
  cases a with
  | rollupYesterday now ids =>
      simp only [step, Rollup.rollupYesterday, Rollup.rollupDay_refused]
  | _ => rfl

end Metrics

/-! ## Whole runs -/

/-- A store in which no report has been reviewed. -/
structure Unreviewed (db : Db) : Prop where
  keys : Rows.Unique (·.id) db.reports
  open_ : ∀ r ∈ db.reports, r.status ≠ .closed

/-- With one rollup a day, the queries find resolved reports once and on the day they were closed
where no tombstone names a report closed on another day, and no report stamped on a day is
still open when the day is rolled up. -/
theorem resolved_found_once (userCreatedAt : Id → Time) (db : Db) (acts : List Act)
    (hstart : Unreviewed db) (hdays : Along (step userCreatedAt) OncePerDay (start db) acts)
    (htrue : Along (step userCreatedAt) StampsTrue (start db) acts) :
    Always (step userCreatedAt) (fun s => Once s.found s.closings) (start db) acts := by
  have hinv : Inv (start db) := by
    constructor
    · exact hstart.keys
    · intro r hr hclosed
      exact absurd hclosed (hstart.open_ r hr)
    · intro c hc
      cases hc
    · exact List.nodup_nil
    · intro c hc
      cases hc
    · exact List.nodup_nil
  have hall := always_of_along (C := fun s a => OncePerDay s a ∧ StampsTrue s a)
    (step_inv userCreatedAt) acts (start db) hinv fun pre a hp => ⟨hdays pre a hp, htrue pre a hp⟩
  exact hall.mono fun s h => h.findsOnce

def fileReport : Act :=
  .create {} none "19700101" "197001010000" 20 "r1" "alice" { messageId := "m1", reason := .spam }

/-- The query finds a report when its review starts, and again when it is dismissed the day
after. -/
example : (run (step fun _ => 0) (start Closing.reportableDb)
    [fileReport, .markInReview 1000 "mod1" "r1", .rollupYesterday 88200000 (Rollup.idsNamed "a"),
      .dismiss 90000000 "mod1" "r1" {}, .rollupYesterday 174600000 (Rollup.idsNamed "b")]).found =
    [(0, "r1"), (86400000, "r1")] := by decide

end Birgap.Moderation.Resolved
