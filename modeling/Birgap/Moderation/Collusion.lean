import Birgap.Lib.FixedWindow
import Birgap.Lib.Run
import Birgap.Moderation.Reports
import Mathlib.Data.Finset.Card

/-!
# The collusion counter

`ReportsService.create` beside the later life of the reports: reviews, closings, and the
expiry of the counter in Redis. Whether a call has created the report it returns is read off
the two instants of the row, and a report nobody has touched since it was filed still looks
new when its reporter files again.
-/
namespace Birgap.Moderation.Collusion

set_option autoImplicit false

open Birgap.Lib Birgap.Lib.Run Birgap.Lib.FixedWindow
open Birgap.Moderation

/-- A row of `Report` with the column Prisma keeps by itself. -/
structure ReportRow extends Report where
  updatedAt : Time
  deriving DecidableEq

/-- The columns an update of a report writes. -/
structure ReportUpdate where
  write : Time → Report → Report
  reporterUserId : ∀ now r, (write now r).reporterUserId = r.reporterUserId
  messageId : ∀ now r, (write now r).messageId = r.messageId

/-- The update of `markInReview`. -/
def markInReview (actorUserId : Id) : ReportUpdate where
  write now r := inReview now actorUserId r
  reporterUserId _ _ := rfl
  messageId _ _ := rfl

/-- The updates that close reports. -/
def close (resolution : ReportResolution) (actorUserId : Id) : ReportUpdate where
  write now r := closedAs resolution now actorUserId r
  reporterUserId _ _ := rfl
  messageId _ _ := rfl

/-- `update` and `updateMany` of Prisma, which also write `updatedAt`. -/
def updateRows (now : Time) (selected : Report → Bool) (u : ReportUpdate) :
    List ReportRow → List ReportRow :=
  Rows.updateMany (fun r => selected r.toReport)
    (fun r => { toReport := u.write now r.toReport, updatedAt := now })

def findRow (reporterUserId messageId : Id) (rows : List ReportRow) : Option ReportRow :=
  rows.find? fun r => r.reporterUserId == reporterUserId && r.messageId == messageId

/-- The row `create` inserts, with the same value for both instants. -/
def newRow (now : Time) (reportId reporterUserId : Id) (dto : CreateReportDto) : ReportRow :=
  { id := reportId, reporterUserId, messageId := dto.messageId, reason := dto.reason
    freeText := dto.freeText, createdAt := now, updatedAt := now }

theorem newRow_untouched (now : Time) (reportId reporterUserId : Id) (dto : CreateReportDto) :
    (newRow now reportId reporterUserId dto).createdAt =
      (newRow now reportId reporterUserId dto).updatedAt := rfl

/-- The upsert of `create`; its empty update leaves a row it finds alone. -/
def upsertRow (now : Time) (reportId reporterUserId : Id) (dto : CreateReportDto)
    (rows : List ReportRow) : Except Err (ReportRow × List ReportRow) :=
  match findRow reporterUserId dto.messageId rows with
  | some report => .ok (report, rows)
  | none =>
      if rows.any (·.id == reportId) then .error .uniqueConstraint
      else
        let report := newRow now reportId reporterUserId dto
        .ok (report, rows ++ [report])

/-- `REPORTS_COLLUSION_WINDOW_HOURS` and the limits on an ordinary user. -/
structure Config where
  limits : ReportLimits := {}
  windowHours : Nat := 1

/-- The clock, the reports, and the counters in Redis; `window` are, for each message, the
users who have filed their first report on it since its counter was opened. -/
structure State where
  now : Nat
  rows : List ReportRow
  counters : Moderation.Counters
  collusion : FixedWindow.Counters Id
  window : Id → List Id

/-- `trackCollusion`, on a counter by the id of its message. -/
def trackCollusion (windowHours now : Nat) (messageId : Id) (c : FixedWindow.Counters Id) :
    FixedWindow.Counters Id :=
  let counted := FixedWindow.incr messageId c
  if value counted messageId = 1 then expire messageId (now + windowHours * 60 * 60 * 1000) counted
  else counted

/-- A call of `create`: the rest of the database as it then is, the id drawn for a new row,
the request, and the texts of the day and the minute. -/
structure Filing where
  db : Db
  reportId : Id
  reporterUserId : Id
  dto : CreateReportDto
  clientIp : Option String := none
  yyyymmdd : String
  yyyyMMddHHmm : String

/-- `ReportsService.create`, with what it leaves of the reports, the limits and the collusion
counters. -/
def create (config : Config) (f : Filing) (s : State) : Except Err ReportRow × State :=
  match createChecks f.reporterUserId f.dto f.db with
  | .error e => (.error e, s)
  | .ok reporter =>
      match createLimits config.limits f.clientIp f.yyyymmdd f.yyyyMMddHHmm reporter s.counters with
      | (.error e, counters) => (.error e, { s with counters })
      | (.ok (), counters) =>
          match upsertRow s.now f.reportId f.reporterUserId f.dto s.rows with
          | .error e => (.error e, { s with counters })
          | .ok (report, rows) =>
              let collusion :=
                if report.createdAt = report.updatedAt then
                  trackCollusion config.windowHours s.now f.dto.messageId s.collusion
                else s.collusion
              (.ok report, { s with counters, rows, collusion })

/-- `drop` lets Redis take away a counter whose time is up; its window ends with it. -/
inductive Act where
  | tick (ms : Nat)
  | create (f : Filing)
  | update (selected : Report → Bool) (u : ReportUpdate)
  | drop (messageId : Id)

def State.filed (s : State) (messageId userId : Id) : State :=
  { s with window := Function.update s.window messageId (s.window messageId ++ [userId]) }

/-- One step; the window takes in the reporter of a report that was inserted. -/
def step (config : Config) (s : State) : Act → State
  | .tick ms => { s with now := s.now + ms }
  | .create f =>
      match create config f s with
      | (.error _, s') => s'
      | (.ok _, s') =>
          match findRow f.reporterUserId f.dto.messageId s.rows with
          | some _ => s'
          | none => s'.filed f.dto.messageId f.reporterUserId
  | .update selected u => { s with rows := updateRows s.now selected u s.rows }
  | .drop messageId =>
      let collusion := FixedWindow.drop s.now messageId s.collusion
      { s with
        collusion
        window :=
          if (collusion messageId).isNone then Function.update s.window messageId [] else s.window }

/-- Any reports, and no counter yet. -/
def start (now : Nat) (rows : List ReportRow) : State :=
  { now, rows, counters := fun _ => 0, collusion := fun _ => none, window := fun _ => [] }

/-! ## What is asked, and when it holds -/

/-- The counter of a message is the number of users who filed their first report on it in the
window. -/
def Counted (s : State) : Prop :=
  ∀ messageId, value s.collusion messageId = (s.window messageId).toFinset.card

/-- The call passes the checks and the limits. -/
def Admitted (config : Config) (s : State) (f : Filing) : Prop :=
  ∃ reporter counters, createChecks f.reporterUserId f.dto f.db = .ok reporter ∧
    createLimits config.limits f.clientIp f.yyyymmdd f.yyyyMMddHHmm reporter s.counters =
      (.ok (), counters)

/-- A user who files again finds a report that was updated at another instant than it was
filed. -/
def Touched (config : Config) (s : State) : Act → Prop
  | .create f => Admitted config s f →
      ∀ r, findRow f.reporterUserId f.dto.messageId s.rows = some r → r.updatedAt ≠ r.createdAt
  | _ => True

/-- Every user of a window has a report on its message, and is in it once. -/
structure Filed (s : State) : Prop where
  nodup : ∀ messageId, (s.window messageId).Nodup
  rows : ∀ messageId, ∀ userId ∈ s.window messageId,
    ∃ r ∈ s.rows, r.reporterUserId = userId ∧ r.messageId = messageId

/-! ## One call -/

/-- Refused, filed again, refused by the database, or filed for the first time. -/
theorem create_cases (config : Config) (f : Filing) (s : State) :
    (¬ Admitted config s f ∧ ∃ e counters, create config f s = (.error e, { s with counters })) ∨
    (Admitted config s f ∧ ∃ counters r,
      findRow f.reporterUserId f.dto.messageId s.rows = some r ∧
      create config f s = (.ok r, { s with
        counters
        collusion := if r.createdAt = r.updatedAt then
          trackCollusion config.windowHours s.now f.dto.messageId s.collusion else s.collusion })) ∨
    (findRow f.reporterUserId f.dto.messageId s.rows = none ∧
      ∃ e counters, create config f s = (.error e, { s with counters })) ∨
    (findRow f.reporterUserId f.dto.messageId s.rows = none ∧ ∃ counters,
      create config f s = (.ok (newRow s.now f.reportId f.reporterUserId f.dto), { s with
        counters
        rows := s.rows ++ [newRow s.now f.reportId f.reporterUserId f.dto]
        collusion := trackCollusion config.windowHours s.now f.dto.messageId s.collusion })) := by
  unfold create
  cases hchecks : createChecks f.reporterUserId f.dto f.db with
  | error e =>
      left
      refine ⟨?_, e, s.counters, rfl⟩
      intro h
      obtain ⟨reporter, _, hok, _⟩ := h
      rw [hchecks] at hok
      cases hok
  | ok reporter =>
      dsimp only
      rcases hlimits : createLimits config.limits f.clientIp f.yyyymmdd f.yyyyMMddHHmm reporter
        s.counters with ⟨_ | _, counters⟩
      · rename_i e
        left
        refine ⟨?_, e, counters, rfl⟩
        intro h
        obtain ⟨reporter', _, hok, hok'⟩ := h
        obtain rfl := Except.ok.inj (hchecks.symm.trans hok)
        rw [hlimits] at hok'
        cases hok'
      · right
        have hadmitted : Admitted config s f := ⟨reporter, counters, hchecks, hlimits⟩
        unfold upsertRow
        cases hfound : findRow f.reporterUserId f.dto.messageId s.rows with
        | some r => exact .inl ⟨hadmitted, counters, r, rfl, rfl⟩
        | none =>
            right
            dsimp only
            by_cases hclash : s.rows.any (·.id == f.reportId) = true
            · rw [if_pos hclash]
              exact .inl ⟨rfl, _, counters, rfl⟩
            · rw [if_neg hclash]
              refine .inr ⟨rfl, counters, ?_⟩
              dsimp only
              rw [if_pos (newRow_untouched s.now f.reportId f.reporterUserId f.dto)]

/-! ## The counter -/

theorem value_trackCollusion (windowHours now : Nat) (messageId : Id)
    (c : FixedWindow.Counters Id) :
    value (trackCollusion windowHours now messageId c) messageId = value c messageId + 1 := by
  unfold trackCollusion
  dsimp only
  split
  · rw [value_expire, value_incr]
  · exact value_incr messageId c

theorem value_trackCollusion_of_ne {k messageId : Id} (hne : k ≠ messageId) (windowHours now : Nat)
    (c : FixedWindow.Counters Id) :
    value (trackCollusion windowHours now messageId c) k = value c k := by
  unfold trackCollusion
  dsimp only
  split
  · rw [value_expire, value_incr_of_ne hne]
  · exact value_incr_of_ne hne c

/-! ## One step -/

section Steps

variable {config : Config} {s : State}

theorem findRow_some {reporterUserId messageId : Id} {rows : List ReportRow} {r : ReportRow}
    (hr : r ∈ rows) (huser : r.reporterUserId = reporterUserId) (hid : r.messageId = messageId) :
    findRow reporterUserId messageId rows ≠ none := by
  intro hnone
  have hno := List.find?_eq_none.mp hnone r hr
  simp [huser, hid] at hno

theorem updateRows_kept (now : Time) (selected : Report → Bool) (u : ReportUpdate)
    {rows : List ReportRow} {r : ReportRow} (hr : r ∈ rows) :
    ∃ r' ∈ updateRows now selected u rows,
      r'.reporterUserId = r.reporterUserId ∧ r'.messageId = r.messageId := by
  refine ⟨_, Rows.mem_updateMany.mpr ⟨r, hr, rfl⟩, ?_⟩
  split
  · exact ⟨u.reporterUserId now _, u.messageId now _⟩
  · exact ⟨rfl, rfl⟩

/-- A first report takes its user into the window. -/
theorem Filed.first (h : Filed s) {f : Filing} {counters : Moderation.Counters}
    {collusion : FixedWindow.Counters Id}
    (hnone : findRow f.reporterUserId f.dto.messageId s.rows = none) :
    Filed (State.filed { s with
      counters, collusion
      rows := s.rows ++ [newRow s.now f.reportId f.reporterUserId f.dto] }
      f.dto.messageId f.reporterUserId) := by
  have hnew : f.reporterUserId ∉ s.window f.dto.messageId := by
    intro hmem
    obtain ⟨r, hr, huser, hid⟩ := h.rows _ _ hmem
    exact findRow_some hr huser hid hnone
  have hold : ∀ messageId, ∀ userId ∈ s.window messageId,
      ∃ r ∈ s.rows ++ [newRow s.now f.reportId f.reporterUserId f.dto],
        r.reporterUserId = userId ∧ r.messageId = messageId := by
    intro messageId userId hin
    obtain ⟨r, hr, hboth⟩ := h.rows messageId userId hin
    exact ⟨r, List.mem_append_left _ hr, hboth⟩
  constructor
  · have hconcat := (h.nodup f.dto.messageId).concat hnew
    rw [List.concat_eq_append] at hconcat
    exact (Function.forall_update_iff s.window fun _ users => users.Nodup).mpr
      ⟨hconcat, fun messageId _ => h.nodup messageId⟩
  · refine (Function.forall_update_iff s.window fun messageId users => ∀ userId ∈ users,
      ∃ r ∈ s.rows ++ [newRow s.now f.reportId f.reporterUserId f.dto],
        r.reporterUserId = userId ∧ r.messageId = messageId).mpr
          ⟨?_, fun messageId _ => hold messageId⟩
    intro userId hmem
    rcases List.mem_append.mp hmem with hin | hin
    · exact hold f.dto.messageId userId hin
    · obtain rfl := List.mem_singleton.mp hin
      exact ⟨_, List.mem_append_right _ (List.mem_singleton_self _), rfl, rfl⟩

theorem step_filed (a : Act) (h : Filed s) : Filed (step config s a) := by
  cases a with
  | tick ms => exact ⟨h.nodup, h.rows⟩
  | create f =>
      simp only [step]
      rcases create_cases config f s with ⟨_, e, counters, he⟩ | ⟨_, counters, r, hfound, he⟩ |
        ⟨_, e, counters, he⟩ | ⟨hnone, counters, he⟩
      · rw [he]
        exact ⟨h.nodup, h.rows⟩
      · rw [he, hfound]
        exact ⟨h.nodup, h.rows⟩
      · rw [he]
        exact ⟨h.nodup, h.rows⟩
      · rw [he, hnone]
        exact h.first hnone
  | update selected u =>
      refine ⟨h.nodup, ?_⟩
      intro messageId userId hmem
      obtain ⟨r, hr, huser, hid⟩ := h.rows messageId userId hmem
      obtain ⟨r', hr', huser', hid'⟩ := updateRows_kept s.now selected u hr
      exact ⟨r', hr', huser'.trans huser, hid'.trans hid⟩
  | drop messageId =>
      simp only [step]
      split
      · constructor
        · exact (Function.forall_update_iff s.window fun _ users => users.Nodup).mpr
            ⟨List.nodup_nil, fun k _ => h.nodup k⟩
        · refine (Function.forall_update_iff s.window fun k users => ∀ userId ∈ users,
            ∃ r ∈ s.rows, r.reporterUserId = userId ∧ r.messageId = k).mpr
              ⟨?_, fun k _ => h.rows k⟩
          intro userId hmem
          cases hmem
      · exact ⟨h.nodup, h.rows⟩

theorem Filed.card (h : Filed s) (messageId : Id) :
    (s.window messageId).toFinset.card = (s.window messageId).length :=
  List.toFinset_card_of_nodup (h.nodup messageId)

/-- Counting a report that was there before takes the counter past the users. -/
theorem not_counted_again (h : Counted s) {counters : Moderation.Counters} (windowHours : Nat)
    (messageId : Id) :
    ¬ Counted { s with
      counters
      collusion := trackCollusion windowHours s.now messageId s.collusion } := by
  intro hcounted
  have hone : value (trackCollusion windowHours s.now messageId s.collusion) messageId =
    (s.window messageId).toFinset.card := hcounted messageId
  rw [value_trackCollusion, h messageId] at hone
  omega

/-- A first report is counted once. -/
theorem counted_first (hf : Filed s) (h : Counted s) {f : Filing} {counters : Moderation.Counters}
    (windowHours : Nat) (hnone : findRow f.reporterUserId f.dto.messageId s.rows = none) :
    Counted (State.filed { s with
      counters
      rows := s.rows ++ [newRow s.now f.reportId f.reporterUserId f.dto]
      collusion := trackCollusion windowHours s.now f.dto.messageId s.collusion }
      f.dto.messageId f.reporterUserId) := by
  intro messageId
  rw [Filed.card (hf.first hnone)]
  show value (trackCollusion windowHours s.now f.dto.messageId s.collusion) messageId =
    (Function.update s.window f.dto.messageId _ messageId).length
  by_cases heq : messageId = f.dto.messageId
  · rw [heq, value_trackCollusion, Function.update_self, List.length_append, h, hf.card]
    rfl
  · rw [value_trackCollusion_of_ne heq, Function.update_of_ne heq, h, hf.card]

theorem counted_drop (h : Counted s) (messageId : Id) :
    Counted (step config s (.drop messageId)) := by
  intro k
  simp only [step]
  by_cases heq : k = messageId
  · subst heq
    rcases drop_self s.now k s.collusion with hnone | hsame
    · rw [if_pos (by rw [hnone]; rfl), Function.update_self]
      unfold value
      rw [hnone]
      rfl
    · have hk := h k
      unfold value at hk ⊢
      rw [hsame]
      split
      · rename_i hgone
        rw [Option.isNone_iff_eq_none.mp hgone, Function.update_self]
        rfl
      · exact hk
  · have hk := h k
    unfold value at hk ⊢
    rw [drop_of_ne heq]
    split
    · rw [Function.update_of_ne heq]
      exact hk
    · exact hk

/-- One step keeps the count exactly when it counts no report twice. -/
theorem step_counted_iff (a : Act) (hf : Filed s) (h : Counted s) :
    Counted (step config s a) ↔ Touched config s a := by
  cases a with
  | tick ms => exact iff_of_true h trivial
  | update selected u => exact iff_of_true h trivial
  | drop messageId => exact iff_of_true (counted_drop h messageId) trivial
  | create f =>
      simp only [step]
      rcases create_cases config f s with ⟨hrefused, e, counters, he⟩ |
        ⟨hadmitted, counters, r, hfound, he⟩ | ⟨hnone, e, counters, he⟩ | ⟨hnone, counters, he⟩
      · rw [he]
        exact iff_of_true h fun hadmitted => absurd hadmitted hrefused
      · rw [he, hfound]
        dsimp only
        by_cases hnew : r.createdAt = r.updatedAt
        · rw [if_pos hnew]
          refine iff_of_false (not_counted_again h config.windowHours f.dto.messageId) ?_
          intro htouched
          exact htouched hadmitted r hfound hnew.symm
        · rw [if_neg hnew]
          refine iff_of_true h ?_
          intro _ r' hr'
          obtain rfl := Option.some.inj (hfound.symm.trans hr')
          exact Ne.symm hnew
      · rw [he]
        refine iff_of_true h ?_
        intro _ r hr
        rw [hnone] at hr
        cases hr
      · rw [he, hnone]
        refine iff_of_true (counted_first hf h config.windowHours hnone) ?_
        intro _ r hr
        rw [hnone] at hr
        cases hr

end Steps

theorem start_filed (now : Nat) (rows : List ReportRow) : Filed (start now rows) := by
  refine ⟨fun _ => List.nodup_nil, ?_⟩
  intro messageId userId hmem
  cases hmem

def reportedDb : Db :=
  { users := [{ id := "alice", phoneHash := "p" }]
    directThreads := [{ id := "t1", userAId := "alice", userBId := "bob", latestSequence := 1 }]
    messages := [{ id := "m1", threadId := some "t1", senderUserId := "bob", senderDeviceId := "d2"
                   idempotencyKey := "k", threadSequence := 1, createdAt := 0 }] }

/-- Alice reports a message of Bob. -/
def filing : Filing :=
  { db := reportedDb, reportId := "r1", reporterUserId := "alice"
    dto := { messageId := "m1", reason := .spam }, yyyymmdd := "20260101"
    yyyyMMddHHmm := "202601010000" }

/-- A review in between makes the second call harmless. -/
example : value (run (step {}) (start 0 []) [.create filing, .tick 1000,
    .update (·.id == "r1") (markInReview "moderator"), .create filing]).collusion "m1" = 1 := by
  decide

end Birgap.Moderation.Collusion
