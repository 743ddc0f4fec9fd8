import Birgap.Moderation.Closing

/-!
# Working through the report queue

An admin fetches the queue page by page while reports are reviewed, dismissed and closed
with their messages. The queue is sorted by status and continued behind the cursor row, so
a cursor row that was worked on in the meantime takes the walk to its new place. The
sibling list of the audit log is sorted by id, which nothing changes.
-/
namespace Birgap.Moderation.Queue

set_option autoImplicit false

open Birgap.Lib Birgap.Lib.Run Birgap.Lib.Tx Birgap.Lib.Paging Birgap.Common Birgap.Moderation
  Birgap.Moderation.Closing

/-- The moderation system and a walk through the queue beside it: the cursor of the next
request, whether the last page has come, and everything received. -/
structure State where
  moderation : Closing.State
  cursor : Option Id := none
  done : Bool := false
  received : List ListedReport := []

inductive Act where
  | moderate (a : Closing.Act)
  | fetch (order : OrderBy queueKey)

def State.db (s : State) : Db := s.moderation.db

def step (query : ListReportsQueryDto) (s : State) : Act → State
  | .moderate a => { s with moderation := Closing.step s.moderation a }
  | .fetch order =>
      if s.done then s
      else
        let page := list order { query with cursor := s.cursor } s.db
        { s with
          cursor := page.nextCursor
          done := page.nextCursor.isNone
          received := s.received ++ page.items }

/-- The steps of `markInReview`, `dismiss` and `tombstoneMessage`. -/
def reviews : Closing.Act → Bool
  | .markRead .. | .markUpdate .. | .markAudit .. => true
  | .dismissRead .. | .dismissUpdate .. | .dismissAudit .. => true
  | .tombstoneRead .. | .tombstoneCommit .. | .fail .. => true
  | _ => false

/-- Between page fetches only reviewing goes on. -/
def Reviewing : Act → Prop
  | .moderate a => reviews a = true
  | .fetch _ => True

def isFetch : Act → Bool
  | .moderate _ => false
  | .fetch _ => true

/-- The stored reports: ids are unique and not empty, and so are the times of filing. -/
structure Filed (rows : List Report) : Prop where
  ids : Rows.Unique (·.id) rows
  stamps : Rows.Unique (·.createdAt) rows
  named : ∀ r ∈ rows, r.id ≠ ""

/-- In the state a report is stored as it was, by status, and matches the filter. -/
def Waiting (query : ListReportsQueryDto) (r : Report) (s : State) : Prop :=
  ∃ r' ∈ s.db.reports, r'.id = r.id ∧ r'.status = r.status ∧ inQueue query r' = true

/-- A page is fetched while no other report that matches the filter lies between the place
at which the cursor row was received and its place now. -/
def KeepsPlace (query : ListReportsQueryDto) (s : State) : Act → Prop
  | .fetch _ => s.done = false → ∀ last, s.received.getLast? = some last →
      ∀ cur ∈ s.db.reports, cur.id = last.report.id →
      ∀ r ∈ s.db.reports, r.id ≠ cur.id → inQueue query r = true →
        (queueKey cur < queueKey r ↔ queueKey last.report < queueKey r)
  | .moderate _ => True

/-! ## What reviewing leaves alone -/

/-- What no step changes of a report. -/
def identity (r : Report) : Id × Time × ReportReason := (r.id, r.createdAt, r.reason)

theorem map_identity_update {p : Report → Bool} {f : Report → Report}
    (hf : ∀ r, identity (f r) = identity r) (rows : List Report) :
    (Rows.updateMany p f rows).map identity = rows.map identity :=
  Rows.map_updateMany hf rows

theorem closeReportsWith_identity {now : Time} {actor messageId : Id} {dto : TombstoneMessageDto}
    {db db' : Db} (h : closeReportsWith now actor messageId dto db = .ok db') :
    db'.reports.map identity = db.reports.map identity := by
  have hclosed : ∀ resolution : ReportResolution,
      (closeReportsOf messageId resolution now actor db).reports.map identity =
        db.reports.map identity := fun resolution =>
    map_identity_update (f := closedAs resolution now actor) (fun _ => rfl) db.reports
  unfold closeReportsWith at h
  split at h
  · unfold cascadeCloseReports at h
    obtain ⟨⟨r, signed⟩, hup, h⟩ := bind_ok.mp h
    obtain rfl := Except.ok.inj h
    rw [updateReport_ok hup]
    exact (map_identity_update
      (f := fun r : Report => { r with reviewedByUserId := some actor, reviewedAt := some now })
      (fun _ => rfl) _).trans (hclosed _)
  · obtain rfl := Except.ok.inj h
    exact hclosed _

theorem tombstoneTx_identity {now : Time} {actor messageId : Id} {dto : TombstoneMessageDto}
    {db db' : Db} (h : tombstoneTx now actor messageId dto db = .ok db') :
    db'.reports.map identity = db.reports.map identity := by
  unfold tombstoneTx at h
  obtain ⟨⟨m, marked⟩, hmark, h⟩ := bind_ok.mp h
  have hreports : marked.reports = db.reports := by rw [updateMessage_ok hmark]
  obtain ⟨closed, hclose, h⟩ := bind_ok.mp h
  obtain rfl := Except.ok.inj h
  have hkept := closeReportsWith_identity hclose
  rw [hreports] at hkept
  exact hkept

/-- Reviewing adds and removes no report, and leaves id, time of filing and reason alone. -/
theorem step_identity (s : Closing.State) {a : Closing.Act} (ha : reviews a = true) :
    (Closing.step s a).db.reports.map identity = s.db.reports.map identity := by
  cases Closing.step_writes s a with
  | same he => rw [he]
  | file hact _ =>
      subst hact
      cases ha
  | @review pid now actor reportId _ _ _ hup =>
      rw [updateReport_ok hup]
      exact map_identity_update (f := inReview now actor) (fun _ => rfl) _
  | @dismiss pid now actor reportId dto _ _ _ hup =>
      rw [updateReport_ok hup]
      exact map_identity_update (f := closedAs .dismissed now actor) (fun _ => rfl) _
  | tombstone htx => exact tombstoneTx_identity htx
  | suspend hact _ =>
      subst hact
      cases ha

section Identity

variable {rows rows' : List Report}

/-- A row of either table has its counterpart in the other. -/
theorem mem_of_identity (h : rows'.map identity = rows.map identity) {r : Report} (hr : r ∈ rows) :
    ∃ r' ∈ rows', identity r' = identity r := by
  have hmem : identity r ∈ rows'.map identity := by
    rw [h]
    exact List.mem_map_of_mem hr
  exact List.mem_map.mp hmem

theorem Filed.of_identity (hf : Filed rows) (h : rows'.map identity = rows.map identity) :
    Filed rows' := by
  have hids : rows'.map (·.id) = rows.map (·.id) := by
    have hmap := congrArg (List.map Prod.fst) h
    simp only [List.map_map] at hmap
    exact hmap
  have hstamps : rows'.map (·.createdAt) = rows.map (·.createdAt) := by
    have hmap := congrArg (List.map fun k => k.2.1) h
    simp only [List.map_map] at hmap
    exact hmap
  refine ⟨?_, ?_, ?_⟩
  · unfold Rows.Unique
    rw [hids]
    exact hf.ids
  · unfold Rows.Unique
    rw [hstamps]
    exact hf.stamps
  · intro r' hr'
    obtain ⟨r, hr, hid⟩ := mem_of_identity h.symm hr'
    have hsame : r.id = r'.id := congrArg Prod.fst hid
    rw [← hsame]
    exact hf.named r hr

end Identity

/-! ## One page -/

theorem queueKey_stamp {a b : Report} (h : queueKey a = queueKey b) : a.createdAt = b.createdAt :=
  congrArg (fun k => (ofLex k).2) h

theorem Filed.keys {rows : List Report} (hf : Filed rows) :
    rows.Pairwise fun a b => queueKey a ≠ queueKey b := by
  have hstamps : rows.Pairwise fun a b => a.createdAt ≠ b.createdAt := List.pairwise_map.mp hf.stamps
  exact hstamps.imp fun hne hkey => hne (queueKey_stamp hkey)

theorem listLimit_pos (query : ListReportsQueryDto) : 0 < listLimit query := by
  unfold listLimit
  omega

/-- The extra row asked for only says whether there are more. -/
theorem list_eq (order : OrderBy queueKey) (query : ListReportsQueryDto) (db : Db) :
    list order query db =
      { items := ((queueRows order query db).take (listLimit query)).map (listedReport db)
        nextCursor := if listLimit query < (queueRows order query db).length then
          ((queueRows order query db).take (listLimit query)).getLast?.map (·.id) else none } := by
  simp only [list]
  rw [overfetch_take, overfetch_more]
  simp only [decide_eq_true_eq]

section Page

variable {order : OrderBy queueKey} {query : ListReportsQueryDto} {db : Db}

/-- The rows of a query are stored, match the filter and ascend. -/
theorem queueRows_spec (hf : Filed db.reports) :
    (queueRows order query db).Pairwise (fun a b => queueKey a < queueKey b) ∧
      ∀ r ∈ queueRows order query db, r ∈ db.reports ∧ inQueue query r = true := by
  have hasc := order.ascending hf.keys
  have hsub : (queueRows order query db).Sublist (order.arrange db.reports) := by
    unfold queueRows
    cases truthy query.cursor with
    | none => exact List.filter_sublist
    | some cursor => exact List.filter_sublist.trans (afterRow_sublist _ _)
  refine ⟨hasc.sublist hsub, ?_⟩
  intro r hr
  exact ⟨order.mem_arrange.mp (hsub.subset hr), (List.mem_filter.mp hr).2⟩

/-- Without a cursor the query sees every matching report. -/
theorem mem_queueRows_first (hq : query.cursor = none) {r : Report} :
    r ∈ queueRows order query db ↔ r ∈ db.reports ∧ inQueue query r = true := by
  have hcursor : truthy query.cursor = none := by
    rw [hq]
    rfl
  unfold queueRows
  simp only [hcursor, List.mem_filter, order.mem_arrange]

/-- With one it sees those behind the place of the cursor row. -/
theorem mem_queueRows_after (hf : Filed db.reports) {cur : Report} (hcur : cur ∈ db.reports)
    (hq : query.cursor = some cur.id) {r : Report} :
    r ∈ queueRows order query db ↔
      r ∈ db.reports ∧ queueKey cur < queueKey r ∧ inQueue query r = true := by
  have hcursor : truthy query.cursor = some cur.id := by
    rw [hq]
    simp [truthy, hf.named cur hcur]
  have honly : ∀ r ∈ order.arrange db.reports, (r.id == cur.id) = true → r = cur := by
    intro r hr hid
    exact hf.ids.eq (order.mem_arrange.mp hr) hcur (by simpa using hid)
  unfold queueRows
  simp only [hcursor, List.mem_filter]
  rw [mem_afterRow (by simp) (order.ascending hf.keys) (order.mem_arrange.mpr hcur) honly,
    order.mem_arrange, and_assoc]

end Page

/-! ## The walk -/

/-- The rows the next request of the walk sees. -/
def rowsOf (query : ListReportsQueryDto) (order : OrderBy queueKey) (s : State) : List Report :=
  queueRows order { query with cursor := s.cursor } s.db

/-- What is received ascends by the places at which it was received, comes from stored
reports, and ends with the cursor row. -/
structure Walking (s : State) : Prop where
  filed : Filed s.db.reports
  ascending : s.received.Pairwise fun a b => queueKey a.report < queueKey b.report
  known : ∀ x ∈ s.received, ∃ r ∈ s.db.reports, identity r = identity x.report
  cursor : s.done = false → s.cursor = s.received.getLast?.map (·.report.id)

/-- A walk that has not begun, beside any state of the moderation system. -/
def start (moderation : Closing.State) : State := { moderation }

theorem start_walking {moderation : Closing.State} (hf : Filed moderation.db.reports) :
    Walking (start moderation) := by
  refine ⟨hf, List.Pairwise.nil, ?_, fun _ => rfl⟩
  intro x hx
  cases hx

section Fetch

variable {query : ListReportsQueryDto} {order : OrderBy queueKey} {s : State}

/-- A request brings a full page with a cursor, or all that is left. -/
theorem fetch_cases (query : ListReportsQueryDto) (order : OrderBy queueKey) (hd : s.done = false) :
    (∃ l, ((rowsOf query order s).take (listLimit query)).getLast? = some l ∧
      step query s (.fetch order) = { s with
        cursor := some l.id
        received := s.received ++
          ((rowsOf query order s).take (listLimit query)).map (listedReport s.db) }) ∨
    step query s (.fetch order) = { s with
      cursor := none
      done := true
      received := s.received ++ (rowsOf query order s).map (listedReport s.db) } := by
  have hlimit : listLimit { query with cursor := s.cursor } = listLimit query := rfl
  have hpos := listLimit_pos query
  simp only [step, hd, Bool.false_eq_true, ↓reduceIte, list_eq, hlimit]
  by_cases hmore : listLimit query < (rowsOf query order s).length
  · left
    cases hl : ((rowsOf query order s).take (listLimit query)).getLast? with
    | none =>
        have hlen := congrArg List.length (List.getLast?_eq_none_iff.mp hl)
        rw [List.length_take_of_le hmore.le, List.length_nil] at hlen
        omega
    | some l =>
        refine ⟨l, rfl, ?_⟩
        unfold rowsOf at hl hmore ⊢
        simp only [hmore, ↓reduceIte, hl, Option.map_some, Option.isNone_some]
  · right
    have hall : (rowsOf query order s).length ≤ listLimit query := by omega
    unfold rowsOf at hmore hall ⊢
    simp only [hmore, ↓reduceIte, Option.isNone_none, List.take_of_length_le hall]

theorem getLast?_append_page {page : List Report} {l : Report} (hl : page.getLast? = some l) :
    (s.received ++ page.map (listedReport s.db)).getLast? = some (listedReport s.db l) := by
  rw [List.getLast?_append, List.getLast?_map, hl]
  rfl

theorem known_append (h : Walking s) {page : List Report} (hp : page.Sublist (rowsOf query order s)) :
    ∀ x ∈ s.received ++ page.map (listedReport s.db),
      ∃ r ∈ s.db.reports, identity r = identity x.report := by
  intro x hx
  rcases List.mem_append.mp hx with hx | hx
  · exact h.known x hx
  · obtain ⟨r, hr, rfl⟩ := List.mem_map.mp hx
    exact ⟨r, ((queueRows_spec h.filed).2 r (hp.subset hr)).1, rfl⟩

variable (h : Walking s) (hk : KeepsPlace query s (.fetch order)) (hd : s.done = false)
include h hk hd

/-- The walk goes on behind everything received. -/
theorem rowsOf_after {last : ListedReport} (hl : s.received.getLast? = some last) {r : Report}
    (hr : r ∈ rowsOf query order s) : queueKey last.report < queueKey r := by
  obtain ⟨cur, hcur, hident⟩ := h.known last (List.mem_of_getLast? hl)
  have hid : cur.id = last.report.id := congrArg Prod.fst hident
  have hcursor : s.cursor = some cur.id := by
    rw [h.cursor hd, hl, hid]
    rfl
  obtain ⟨hm, hlt, hin⟩ := (mem_queueRows_after h.filed hcur hcursor).mp hr
  have hne : r.id ≠ cur.id := by
    intro he
    rw [h.filed.ids.eq hm hcur he] at hlt
    exact lt_irrefl _ hlt
  exact (hk hd last hl cur hcur hid r hm hne hin).mp hlt

/-- A matching report that is still due is among the rows. -/
theorem mem_rowsOf {r : Report} (hr : r ∈ s.db.reports) (hin : inQueue query r = true)
    (hnew : ∀ x ∈ s.received, x.report.id ≠ r.id)
    (hdue : ∀ last, s.received.getLast? = some last → queueKey last.report < queueKey r) :
    r ∈ rowsOf query order s := by
  cases hl : s.received.getLast? with
  | none =>
      have hcursor : s.cursor = none := by
        rw [h.cursor hd, hl]
        rfl
      exact (mem_queueRows_first hcursor).mpr ⟨hr, hin⟩
  | some last =>
      have hlast := List.mem_of_getLast? hl
      obtain ⟨cur, hcur, hident⟩ := h.known last hlast
      have hid : cur.id = last.report.id := congrArg Prod.fst hident
      have hcursor : s.cursor = some cur.id := by
        rw [h.cursor hd, hl, hid]
        rfl
      have hne : r.id ≠ cur.id := by
        intro he
        exact hnew last hlast (hid.symm.trans he.symm)
      have hlt := (hk hd last hl cur hcur hid r hr hne hin).mpr (hdue last hl)
      exact (mem_queueRows_after h.filed hcur hcursor).mpr ⟨hr, hlt, hin⟩

/-- Any part of the rows can follow what is received. -/
theorem ascending_append {page : List Report} (hp : page.Sublist (rowsOf query order s)) :
    (s.received ++ page.map (listedReport s.db)).Pairwise
      fun a b => queueKey a.report < queueKey b.report := by
  apply List.pairwise_append.mpr
  refine ⟨h.ascending, ?_, ?_⟩
  · apply List.pairwise_map.mpr
    exact (queueRows_spec h.filed).1.sublist hp
  · intro a ha b hb
    obtain ⟨r, hr, rfl⟩ := List.mem_map.mp hb
    have hne : s.received ≠ [] := List.ne_nil_of_mem ha
    have hl := List.getLast?_eq_some_getLast hne
    have hlt := rowsOf_after h hk hd hl (hp.subset hr)
    -- everything received comes before or with the last of it
    have hle : queueKey a.report ≤ queueKey (s.received.getLast hne).report := by
      have hs := h.ascending
      rw [← List.dropLast_append_getLast hne] at hs ha
      rcases List.mem_append.mp ha with ha | ha
      · exact ((List.pairwise_append.mp hs).2.2 a ha _ List.mem_cons_self).le
      · rw [List.mem_singleton.mp ha]
    exact hle.trans_lt hlt

end Fetch

section Steps

variable {query : ListReportsQueryDto} {s : State} {a : Act}

theorem step_walking (h : Walking s) (hr : Reviewing a) (hk : KeepsPlace query s a) :
    Walking (step query s a) := by
  cases a with
  | moderate a =>
      have hident := step_identity s.moderation hr
      refine ⟨h.filed.of_identity hident, h.ascending, ?_, h.cursor⟩
      intro x hx
      obtain ⟨r, hr, hrx⟩ := h.known x hx
      obtain ⟨r', hr', hrr⟩ := mem_of_identity hident hr
      exact ⟨r', hr', hrr.trans hrx⟩
  | fetch order =>
      cases hd : s.done with
      | true =>
          simp only [step, hd, ↓reduceIte]
          exact h
      | false =>
          rcases fetch_cases query order hd with ⟨l, hl, he⟩ | he
          · have hp : ((rowsOf query order s).take (listLimit query)).Sublist
              (rowsOf query order s) := List.take_sublist _ _
            rw [he]
            refine ⟨h.filed, ascending_append h hk hd hp, known_append h hp, ?_⟩
            intro _
            show some l.id = _
            rw [getLast?_append_page hl]
            rfl
          · have hp : (rowsOf query order s).Sublist (rowsOf query order s) := List.Sublist.refl _
            rw [he]
            refine ⟨h.filed, ascending_append h hk hd hp, known_append h hp, ?_⟩
            intro hdone
            cases hdone

/-- A page that is not the last one brings at least one report. -/
theorem step_progress (query : ListReportsQueryDto) (hd : s.done = false) (ha : isFetch a = true) :
    (step query s a).done = true ∨ s.received.length + 1 ≤ (step query s a).received.length := by
  cases a with
  | moderate a => cases ha
  | fetch order =>
      rcases fetch_cases query order hd with ⟨l, hl, he⟩ | he
      · right
        have hpage := List.length_pos_of_mem (List.mem_of_getLast? hl)
        rw [he, List.length_append, List.length_map]
        omega
      · left
        rw [he]

theorem step_length_le : s.received.length ≤ (step query s a).received.length := by
  cases a with
  | moderate a => exact le_refl _
  | fetch order =>
      simp only [step]
      split
      · exact le_refl _
      · rw [List.length_append]
        omega

theorem step_done (hd : s.done = true) : (step query s a).done = true := by
  cases a with
  | moderate a => exact hd
  | fetch order =>
      simp only [step, hd, ↓reduceIte]

end Steps

/-- Places ascend, and there are three for each report. -/
theorem Walking.length_le {s : State} (h : Walking s) :
    s.received.length ≤ 3 * s.db.reports.length := by
  let places : Report → List (Nat ×ₗ Time) := fun r =>
    [toLex (0, r.createdAt), toLex (1, r.createdAt), toLex (2, r.createdAt)]
  have hmem : ∀ r : Report, queueKey r ∈ places r := by
    intro r
    unfold queueKey
    cases r.status <;> simp [places, statusRank]
  have hnodup : (s.received.map fun x => queueKey x.report).Nodup := by
    apply List.pairwise_map.mpr
    exact h.ascending.imp fun hlt => hlt.ne
  have hsub : (s.received.map fun x => queueKey x.report) ⊆ s.db.reports.flatMap places := by
    intro k hk
    obtain ⟨x, hx, rfl⟩ := List.mem_map.mp hk
    obtain ⟨r, hr, hident⟩ := h.known x hx
    have hstamp : r.createdAt = x.report.createdAt := congrArg (fun k => k.2.1) hident
    have hplaces : places x.report = places r := by
      simp only [places, hstamp]
    apply List.mem_flatMap.mpr
    refine ⟨r, hr, ?_⟩
    rw [← hplaces]
    exact hmem x.report
  have hle := (hnodup.subperm hsub).length_le
  rw [List.length_map, List.length_flatMap] at hle
  have hsum : (s.db.reports.map fun r => (places r).length).sum = 3 * s.db.reports.length := by
    induction s.db.reports with
    | nil => rfl
    | cons r rows ih =>
        rw [List.map_cons, List.sum_cons, ih, List.length_cons]
        show 3 + 3 * rows.length = 3 * (rows.length + 1)
        omega
  omega

/-! ## One report -/

/-- A report of the start: wherever it was received, at its place of the start; and it was
received, or its place is still to come. -/
structure Tracks (r : Report) (s : State) : Prop where
  stamp : ∀ r' ∈ s.db.reports, r'.id = r.id → r'.createdAt = r.createdAt
  place : ∀ x ∈ s.received, x.report.id = r.id → queueKey x.report = queueKey r
  due : (∃ x ∈ s.received, x.report.id = r.id) ∨
    (s.done = false ∧ ∀ last, s.received.getLast? = some last → queueKey last.report < queueKey r)

theorem start_tracks {moderation : Closing.State} (hf : Filed moderation.db.reports) {r : Report}
    (hr : r ∈ moderation.db.reports) : Tracks r (start moderation) := by
  refine ⟨?_, ?_, Or.inr ⟨rfl, ?_⟩⟩
  · intro r' hr' hid
    rw [hf.ids.eq hr' hr hid]
  · intro x hx
    cases hx
  · intro last hl
    cases hl

section Report

variable {query : ListReportsQueryDto} {order : OrderBy queueKey} {s : State} {r : Report}

/-- A report with the status it had is at the place it had. -/
theorem Tracks.key_eq (ht : Tracks r s) {r' : Report} (hr' : r' ∈ s.db.reports) (hid : r'.id = r.id)
    (hstatus : r'.status = r.status) : queueKey r' = queueKey r := by
  unfold queueKey
  rw [hstatus, ht.stamp r' hr' hid]

/-- Receiving rows of the table keeps the places. -/
theorem Tracks.place_append (h : Walking s) (ht : Tracks r s) (hw : Waiting query r s)
    {page : List Report} (hp : page.Sublist (rowsOf query order s)) :
    ∀ x ∈ s.received ++ page.map (listedReport s.db), x.report.id = r.id →
      queueKey x.report = queueKey r := by
  intro x hx hid
  rcases List.mem_append.mp hx with hx | hx
  · exact ht.place x hx hid
  · obtain ⟨y, hy, rfl⟩ := List.mem_map.mp hx
    obtain ⟨r', hr', hid', hstatus, _⟩ := hw
    have hym := ((queueRows_spec h.filed).2 y (hp.subset hy)).1
    have hsame : y = r' := h.filed.ids.eq hym hr' (hid.trans hid'.symm)
    rw [hsame] at hym ⊢
    exact ht.key_eq hym hid' hstatus

theorem fetch_tracks (h : Walking s) (hk : KeepsPlace query s (.fetch order))
    (hw : Waiting query r s) (ht : Tracks r s) (hd : s.done = false) :
    Tracks r (step query s (.fetch order)) := by
  -- a report that is due is on this page, or behind its last row
  have hrow : (∃ x ∈ s.received, x.report.id = r.id) ∨
      ∃ r' ∈ rowsOf query order s, r'.id = r.id ∧ queueKey r' = queueKey r := by
    by_cases hseen : ∃ x ∈ s.received, x.report.id = r.id
    · exact Or.inl hseen
    · obtain ⟨r', hr', hid, hstatus, hin⟩ := hw
      have hkey := ht.key_eq hr' hid hstatus
      rcases ht.due with hdue | ⟨_, hdue⟩
      · exact Or.inl hdue
      · refine Or.inr ⟨r', mem_rowsOf h hk hd hr' hin ?_ ?_, hid, hkey⟩
        · intro x hx he
          exact hseen ⟨x, hx, he.trans hid⟩
        · intro last hl
          rw [hkey]
          exact hdue last hl
  rcases fetch_cases query order hd with ⟨l, hl, he⟩ | he
  · rw [he]
    refine ⟨ht.stamp, ht.place_append h hw (List.take_sublist _ _), ?_⟩
    rcases hrow with ⟨x, hx, hid⟩ | ⟨r', hr', hid, hkey⟩
    · exact Or.inl ⟨x, List.mem_append_left _ hx, hid⟩
    · by_cases hpage : r' ∈ (rowsOf query order s).take (listLimit query)
      · exact Or.inl ⟨_, List.mem_append_right _ (List.mem_map_of_mem hpage), hid⟩
      · refine Or.inr ⟨hd, ?_⟩
        intro last hlast
        rw [getLast?_append_page hl] at hlast
        obtain rfl := Option.some.inj hlast
        rw [← hkey]
        exact last_lt_of_notMem_take (queueRows_spec h.filed).1 hl hr' hpage
  · rw [he]
    refine ⟨ht.stamp, ht.place_append h hw (List.Sublist.refl _), Or.inl ?_⟩
    rcases hrow with ⟨x, hx, hid⟩ | ⟨r', hr', hid, _⟩
    · exact ⟨x, List.mem_append_left _ hx, hid⟩
    · exact ⟨_, List.mem_append_right _ (List.mem_map_of_mem hr'), hid⟩

theorem step_tracks {a : Act} (h : Walking s) (hr : Reviewing a) (hk : KeepsPlace query s a)
    (hw : Waiting query r s) (ht : Tracks r s) : Tracks r (step query s a) := by
  cases a with
  | moderate a =>
      refine ⟨?_, ht.place, ht.due⟩
      intro r' hr' hid
      obtain ⟨r₀, hr₀, hident⟩ := mem_of_identity (step_identity s.moderation hr).symm hr'
      have hsame : r₀.id = r'.id := congrArg Prod.fst hident
      have hstamp : r₀.createdAt = r'.createdAt := congrArg (fun k => k.2.1) hident
      rw [← hstamp]
      exact ht.stamp r₀ hr₀ (hsame.trans hid)
  | fetch order =>
      cases hd : s.done with
      | true =>
          simp only [step, hd, ↓reduceIte]
          exact ht
      | false => exact fetch_tracks h hk hw ht hd

/-- Two receptions of one report would be at one place. -/
theorem Tracks.received_once (h : Walking s) (ht : Tracks r s) :
    (s.received.filter (·.report.id == r.id)).length ≤ 1 := by
  have hasc := h.ascending.sublist (List.filter_sublist (p := (·.report.id == r.id)))
  have hplace : ∀ x ∈ s.received.filter (·.report.id == r.id), queueKey x.report = queueKey r := by
    intro x hx
    obtain ⟨hx, hid⟩ := List.mem_filter.mp hx
    exact ht.place x hx (by simpa using hid)
  revert hasc hplace
  generalize s.received.filter (·.report.id == r.id) = xs
  intro hasc hplace
  match xs with
  | [] => simp
  | [x] => simp
  | a :: b :: xs =>
      have hlt := (List.pairwise_cons.mp hasc).1 b (by simp)
      rw [hplace a (by simp), hplace b (by simp)] at hlt
      exact absurd hlt (lt_irrefl _)

/-- Once the walk is over, the report was received, and nowhere twice. -/
theorem Tracks.count_eq (h : Walking s) (ht : Tracks r s) (hd : s.done = true) :
    (s.received.filter (·.report.id == r.id)).length = 1 := by
  have hle := ht.received_once h
  rcases ht.due with ⟨x, hx, hid⟩ | ⟨hnot, _⟩
  · have hpos := List.length_pos_of_mem
      (List.mem_filter.mpr ⟨hx, beq_iff_eq.mpr hid⟩ : x ∈ s.received.filter (·.report.id == r.id))
    omega
  · rw [hd] at hnot
    cases hnot

end Report

/-! ## Whole walks -/

section Walks

variable (query : ListReportsQueryDto)

theorem run_done {s : State} (hd : s.done = true) (acts : List Act) :
    (run (step query) s acts).done = true :=
  run_invariant (I := fun s => s.done = true) (fun _ _ h => step_done h) acts s hd

/-- Every request that is not the last one has brought a report. -/
theorem run_progress (acts : List Act) : ∀ s : State,
    (run (step query) s acts).done = true ∨
      s.received.length + acts.countP isFetch ≤ (run (step query) s acts).received.length := by
  induction acts with
  | nil => intro s; right; simp
  | cons a acts ih =>
      intro s
      rw [run_cons, List.countP_cons]
      cases hd : (step query s a).done with
      | true => exact Or.inl (run_done query hd acts)
      | false =>
          refine (ih (step query s a)).imp_right ?_
          intro hlen
          have hmono : s.received.length ≤ (step query s a).received.length := step_length_le
          split
          · rename_i ha
            have hopen : s.done = false := by
              by_contra hdone
              rw [step_done (by simpa using hdone)] at hd
              cases hd
            rcases step_progress query hopen ha with hdone | hmore
            · rw [hd] at hdone
              cases hdone
            · omega
          · omega

/-- The report was received exactly once. -/
def ReceivedOnce (r : Report) (s : State) : Prop :=
  (s.received.filter (·.report.id == r.id)).length = 1

/-- In every walk whose cursor rows keep their place among the matching reports: the walk
ends with a bounded number of requests, and once it has ended every report that matched with
one status throughout has been received exactly once. -/
theorem queue_walk_complete (moderation : Closing.State) (acts : List Act)
    (hf : Filed moderation.db.reports) (hr : ∀ a ∈ acts, Reviewing a)
    (hk : Along (step query) (KeepsPlace query) (start moderation) acts) :
    (3 * moderation.db.reports.length < acts.countP isFetch →
      (run (step query) (start moderation) acts).done = true) ∧
    ((run (step query) (start moderation) acts).done = true → ∀ r ∈ moderation.db.reports,
      Always (step query) (Waiting query r) (start moderation) acts →
      ReceivedOnce r (run (step query) (start moderation) acts)) := by
  have hboth : Along (step query) (fun s a => Reviewing a ∧ KeepsPlace query s a)
      (start moderation) acts := by
    intro pre a hp
    exact ⟨hr a (hp.subset (by simp)), hk pre a hp⟩
  have hwalk : Always (step query)
      (fun s => Walking s ∧ s.db.reports.length = moderation.db.reports.length)
      (start moderation) acts := by
    refine always_of_along ?_ acts _ ⟨start_walking hf, rfl⟩ hboth
    rintro s a ⟨h, hlen⟩ ⟨hra, hka⟩
    refine ⟨step_walking h hra hka, ?_⟩
    cases a with
    | moderate a =>
        have hident := congrArg List.length (step_identity s.moderation hra)
        rw [List.length_map, List.length_map] at hident
        exact hident.trans hlen
    | fetch order =>
        simp only [step]
        split <;> exact hlen
  obtain ⟨hlast, hlen⟩ := hwalk acts (List.prefix_refl _)
  constructor
  · intro hfetches
    rcases run_progress query acts (start moderation) with hd | hmore
    · exact hd
    · have hle := hlast.length_le
      have hnone : (start moderation).received.length = 0 := rfl
      omega
  · intro hd r hm hsteady
    have htrack : Always (step query) (fun s => Walking s ∧ Tracks r s) (start moderation) acts := by
      refine always_of_along (C := fun s a => (Reviewing a ∧ KeepsPlace query s a) ∧ Waiting query r s)
        ?_ acts _ ⟨start_walking hf, start_tracks hf hm⟩ ?_
      · rintro s a ⟨h, ht⟩ ⟨⟨hra, hka⟩, hw⟩
        exact ⟨step_walking h hra hka, step_tracks h hra hka hw ht⟩
      · intro pre a hp
        exact ⟨hboth pre a hp, hsteady pre ((List.prefix_append _ _).trans hp)⟩
    obtain ⟨h, ht⟩ := htrack acts (List.prefix_refl _)
    exact ht.count_eq h hd

end Walks

def sampleReport (id : Id) (createdAt : Time) : Report :=
  { id, reporterUserId := "bob", messageId := "m-" ++ id, reason := .spam, createdAt }

/-- Three open reports, and nothing in flight. -/
def sampleModeration : Closing.State :=
  { db := { reports := [sampleReport "r1" 1, sampleReport "r2" 2, sampleReport "r3" 3] }
    counters := fun _ => 0, flights := fun _ => .idle }

/-- The open reports, one at a time. -/
def sampleQuery : ListReportsQueryDto := { status := some .open, limit := some 1 }

theorem sampleModeration_filed : Filed sampleModeration.db.reports :=
  ⟨by decide, by decide, by decide⟩

/-- The first page is worked on before the second is fetched. -/
def reviewedFirst : List Act :=
  [.fetch (.stable _), .moderate (.markRead 0 "mod" "r1"), .moderate (.markUpdate 0 10),
   .fetch (.stable _)]

/-- The second report is open throughout, and the walk ends without it: its place is before
that of the report just taken into review. -/
theorem reviewed_cursor_skips :
    ¬ ∀ (query : ListReportsQueryDto) (moderation : Closing.State) (acts : List Act),
      Filed moderation.db.reports → (∀ a ∈ acts, Reviewing a) →
      (run (step query) (start moderation) acts).done = true → ∀ r ∈ moderation.db.reports,
      Always (step query) (Waiting query r) (start moderation) acts →
      ReceivedOnce r (run (step query) (start moderation) acts) := by
  intro h
  have hacts : ∀ a ∈ reviewedFirst, Reviewing a := by
    intro a ha
    simp only [reviewedFirst, List.mem_cons, List.not_mem_nil, or_false] at ha
    rcases ha with rfl | rfl | rfl | rfl <;> trivial
  have hsteady : Always (step sampleQuery) (Waiting sampleQuery (sampleReport "r2" 2))
      (start sampleModeration) reviewedFirst := by
    simp only [reviewedFirst, always_cons, always_nil, Waiting]
    decide
  have honce := h sampleQuery sampleModeration reviewedFirst sampleModeration_filed hacts (by decide)
    (sampleReport "r2" 2) (by decide) hsteady
  revert honce
  unfold ReceivedOnce
  decide

/-- A report that is not the cursor row is worked on. -/
def reviewedOther : List Act :=
  [.fetch (.stable _), .moderate (.markRead 0 "mod" "r2"), .moderate (.markUpdate 0 10),
   .fetch (.stable _)]

theorem reviewed_other_complete :
    ReceivedOnce (sampleReport "r3" 3)
      (run (step sampleQuery) (start sampleModeration) reviewedOther) := by
  have hacts : ∀ a ∈ reviewedOther, Reviewing a := by
    intro a ha
    simp only [reviewedOther, List.mem_cons, List.not_mem_nil, or_false] at ha
    rcases ha with rfl | rfl | rfl | rfl <;> trivial
  have hkeeps : Along (step sampleQuery) (KeepsPlace sampleQuery) (start sampleModeration)
      reviewedOther := by
    simp only [reviewedOther, along_cons]
    refine ⟨?_, trivial, trivial, ?_, along_nil _ _ _⟩
    · intro _ last hl
      cases hl
    · intro _ last hl
      obtain rfl := Option.some.inj hl
      decide
  have hsteady : Always (step sampleQuery) (Waiting sampleQuery (sampleReport "r3" 3))
      (start sampleModeration) reviewedOther := by
    simp only [reviewedOther, always_cons, always_nil, Waiting]
    decide
  exact (queue_walk_complete sampleQuery sampleModeration reviewedOther sampleModeration_filed hacts
    hkeeps).2 (by decide) (sampleReport "r3" 3) (by decide) hsteady

end Birgap.Moderation.Queue
