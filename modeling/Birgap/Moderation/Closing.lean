import Birgap.Moderation.Reports
import Birgap.Lib.Run
import Mathlib.Logic.Function.Basic

/-!
# Closed reports

Reports are filed, reviewed, dismissed, and closed together with a message or a suspended
user, by any number of calls at once. What a call reads first and what it then writes are
separate steps. The updates of `markInReview` and `dismiss` name the report by its id
alone, so what they do to a closed report is decided by who wrote in between.
-/
namespace Birgap.Moderation.Closing

set_option autoImplicit false

open Birgap.Common (truthy)
open Birgap.Lib Birgap.Lib.Run Birgap.Lib.Tx Birgap.Moderation

/-- How far a call in flight has come. -/
inductive Flight where
  | idle
  | filing (reporterUserId : Id) (dto : CreateReportDto)
  | marking (actorUserId reportId : Id)
  | marked (actorUserId reportId : Id)
  | dismissing (actorUserId reportId : Id) (dto : DismissReportDto)
  | dismissed (actorUserId reportId : Id) (dto : DismissReportDto)
  | tombstoning (actorUserId messageId : Id) (dto : TombstoneMessageDto)
  | suspending (actorUserId targetUserId : Id) (dto : SuspendUserDto)

structure State where
  db : Db
  counters : Counters
  flights : Nat → Flight

/-- One step of the call with number `pid`, or the expiry of a counter. -/
inductive Act where
  | createRead (pid : Nat) (limits : ReportLimits) (clientIp : Option String)
      (yyyymmdd yyyyMMddHHmm : String) (reporterUserId : Id) (dto : CreateReportDto)
  | createUpsert (pid : Nat) (now : Time) (reportId : Id)
  | markRead (pid : Nat) (actorUserId reportId : Id)
  | markUpdate (pid : Nat) (now : Time)
  | markAudit (pid : Nat)
  | dismissRead (pid : Nat) (actorUserId reportId : Id) (dto : DismissReportDto)
  | dismissUpdate (pid : Nat) (now : Time)
  | dismissAudit (pid : Nat)
  | tombstoneRead (pid : Nat) (actorUserId : Id) (actorRole : UserRole) (messageId : Id)
      (dto : TombstoneMessageDto)
  | tombstoneCommit (pid : Nat) (now : Time)
  | suspendRead (pid : Nat) (now : Time) (actorUserId : Id) (actorRole : UserRole)
      (targetUserId : Id) (dto : SuspendUserDto)
  | suspendCommit (pid : Nat) (now : Time) (suspensionId : Id)
  | fail (pid : Nat)
  | expire (key : String)

def State.set (s : State) (pid : Nat) (f : Flight) (db : Db) : State :=
  { s with db := db, flights := Function.update s.flights pid f }

def step (s : State) : Act → State
  | .createRead pid limits ip day minute reporterUserId dto =>
      match s.flights pid, createChecks reporterUserId dto s.db with
      | .idle, .ok reporter =>
          match createLimits limits ip day minute reporter s.counters with
          | (.ok (), c) => { s.set pid (.filing reporterUserId dto) s.db with counters := c }
          | (.error _, c) => { s with counters := c }
      | _, _ => s
  | .createUpsert pid now reportId =>
      match s.flights pid with
      | .filing reporterUserId dto =>
          match upsertReport now reportId reporterUserId dto s.db with
          | .ok (_, db) => s.set pid .idle db
          | .error _ => s.set pid .idle s.db
      | _ => s
  | .markRead pid actor reportId =>
      match s.flights pid, reviewCheck reportId s.db with
      | .idle, .ok existing =>
          -- a report already in review is returned as it is
          if existing.status = .inReview then s else s.set pid (.marking actor reportId) s.db
      | _, _ => s
  | .markUpdate pid now =>
      match s.flights pid with
      | .marking actor reportId =>
          match updateReport reportId (inReview now actor) s.db with
          | .ok (_, db) => s.set pid (.marked actor reportId) db
          | .error _ => s.set pid .idle s.db
      | _ => s
  | .markAudit pid =>
      match s.flights pid with
      | .marked actor reportId => s.set pid .idle (auditWrite (reviewStartAudit actor reportId) s.db)
      | _ => s
  | .dismissRead pid actor reportId dto =>
      match s.flights pid, reviewCheck reportId s.db with
      | .idle, .ok _ => s.set pid (.dismissing actor reportId dto) s.db
      | _, _ => s
  | .dismissUpdate pid now =>
      match s.flights pid with
      | .dismissing actor reportId dto =>
          match updateReport reportId (closedAs .dismissed now actor) s.db with
          | .ok (_, db) => s.set pid (.dismissed actor reportId dto) db
          | .error _ => s.set pid .idle s.db
      | _ => s
  | .dismissAudit pid =>
      match s.flights pid with
      | .dismissed actor reportId dto =>
          s.set pid .idle (auditWrite (Moderation.dismissAudit actor reportId dto) s.db)
      | _ => s
  | .tombstoneRead pid actor role messageId dto =>
      match s.flights pid, tombstoneCheck role messageId s.db with
      | .idle, .ok _ => s.set pid (.tombstoning actor messageId dto) s.db
      | _, _ => s
  | .tombstoneCommit pid now =>
      match s.flights pid with
      | .tombstoning actor messageId dto =>
          match tombstoneTx now actor messageId dto s.db with
          | .ok db => s.set pid .idle db
          | .error _ => s.set pid .idle s.db
      | _ => s
  | .suspendRead pid now actor role target dto =>
      match s.flights pid, suspendCheck now actor role target dto s.db with
      | .idle, .ok () => s.set pid (.suspending actor target dto) s.db
      | _, _ => s
  | .suspendCommit pid now sid =>
      match s.flights pid with
      | .suspending actor target dto =>
          match suspendTx now sid actor target dto s.db with
          | .ok (_, db) => s.set pid .idle db
          | .error _ => s.set pid .idle s.db
      | _ => s
  | .fail pid => s.set pid .idle s.db
  | .expire key => { s with counters := Function.update s.counters key 0 }

/-! ## What is asked of the reports -/

/-- A report has a resolution exactly when it is closed. -/
def Resolved (s : State) : Prop :=
  ∀ r ∈ s.db.reports, r.resolution.isSome ↔ r.status = .closed

/-- Every report closed in `s` is closed in `s'`, with the resolution it had. -/
def KeepsClosed (s s' : State) : Prop :=
  ∀ r ∈ s.db.reports, r.status = .closed →
    ∃ r' ∈ s'.db.reports, r'.id = r.id ∧ r'.status = .closed ∧ r'.resolution = r.resolution

/-- The update of `markInReview` finds its report not closed; that of `dismiss` finds it
not closed, or closed as dismissed already. -/
def FindsOpen (s : State) : Act → Prop
  | .markUpdate pid _ => ∀ actor reportId, s.flights pid = .marking actor reportId →
      ∀ r ∈ s.db.reports, r.id = reportId → r.status ≠ .closed
  | .dismissUpdate pid _ => ∀ actor reportId dto, s.flights pid = .dismissing actor reportId dto →
      ∀ r ∈ s.db.reports, r.id = reportId → r.status = .closed → r.resolution = some .dismissed
  | _ => True

/-! ## One row -/

/-- What may become of one report. -/
structure Onward (r r' : Report) : Prop where
  key : r'.id = r.id
  closed : r.status = .closed → r'.status = .closed ∧ r'.resolution = r.resolution
  resolved : (r.resolution.isSome ↔ r.status = .closed) →
    (r'.resolution.isSome ↔ r'.status = .closed)

theorem Onward.refl (r : Report) : Onward r r := ⟨rfl, fun h => ⟨h, rfl⟩, fun h => h⟩

theorem Onward.trans {a b c : Report} (h : Onward a b) (k : Onward b c) : Onward a c where
  key := k.key.trans h.key
  closed := by
    intro ha
    obtain ⟨hb, hres⟩ := h.closed ha
    obtain ⟨hc, hres'⟩ := k.closed hb
    exact ⟨hc, hres'.trans hres⟩
  resolved := fun ha => k.resolved (h.resolved ha)

/-- Any resolution closes a report that is not closed; the one it has leaves it closed. -/
theorem onward_closedAs {resolution : ReportResolution} {now : Time} {actor : Id} {r : Report}
    (h : r.status = .closed → r.resolution = some resolution) :
    Onward r (closedAs resolution now actor r) where
  key := rfl
  closed := fun hr => ⟨rfl, (h hr).symm⟩
  resolved := fun _ => by simp [closedAs]

theorem onward_inReview {now : Time} {actor : Id} {r : Report} (h : r.status ≠ .closed) :
    Onward r (inReview now actor r) where
  key := rfl
  closed := fun hr => absurd hr h
  resolved := by
    intro hr
    simp [inReview, hr, h]

theorem closed_of_isOpenOrInReview {r : Report} (h : isOpenOrInReview r = true) :
    r.status ≠ .closed := by
  intro hc
  simp [isOpenOrInReview, hc] at h

/-! ## The table -/

/-- Every row moved on, and a row that is new has a resolution exactly when it is closed. -/
structure Advances (rows rows' : List Report) : Prop where
  kept : ∀ r ∈ rows, ∃ r' ∈ rows', Onward r r'
  origin : ∀ r' ∈ rows', (∃ r ∈ rows, Onward r r') ∨ (r'.resolution.isSome ↔ r'.status = .closed)
  keys : Rows.Unique (·.id) rows → Rows.Unique (·.id) rows'

theorem Advances.refl (rows : List Report) : Advances rows rows :=
  ⟨fun r hr => ⟨r, hr, Onward.refl r⟩, fun r hr => Or.inl ⟨r, hr, Onward.refl r⟩, fun h => h⟩

theorem Advances.trans {a b c : List Report} (h : Advances a b) (k : Advances b c) :
    Advances a c where
  kept := by
    intro r hr
    obtain ⟨r', hr', ho⟩ := h.kept r hr
    obtain ⟨r'', hr'', ho'⟩ := k.kept r' hr'
    exact ⟨r'', hr'', ho.trans ho'⟩
  origin := by
    intro r'' hr''
    rcases k.origin r'' hr'' with ⟨r', hr', ho'⟩ | hnew
    · rcases h.origin r' hr' with ⟨r, hr, ho⟩ | hnew
      · exact Or.inl ⟨r, hr, ho.trans ho'⟩
      · exact Or.inr (ho'.resolved hnew)
    · exact Or.inr hnew
  keys := fun hu => k.keys (h.keys hu)

theorem advances_updateMany {p : Report → Bool} {f : Report → Report} {rows : List Report}
    (hid : ∀ r, (f r).id = r.id) (h : ∀ r ∈ rows, p r = true → Onward r (f r)) :
    Advances rows (Rows.updateMany p f rows) := by
  have hrow : ∀ r ∈ rows, Onward r (if p r then f r else r) := by
    intro r hr
    split
    · rename_i hp
      exact h r hr hp
    · exact Onward.refl r
  refine ⟨?_, ?_, Rows.unique_updateMany (f := f) hid⟩
  · intro r hr
    exact ⟨_, Rows.mem_updateMany.mpr ⟨r, hr, rfl⟩, hrow r hr⟩
  · intro r' hr'
    obtain ⟨r, hr, rfl⟩ := Rows.mem_updateMany.mp hr'
    exact Or.inl ⟨r, hr, hrow r hr⟩

/-- The bulk updates close only reports that are not closed. -/
theorem advances_close {p : Report → Bool} {resolution : ReportResolution} {now : Time} {actor : Id}
    (rows : List Report) : Advances rows
      (Rows.updateMany (fun r => p r && isOpenOrInReview r) (closedAs resolution now actor) rows) := by
  apply advances_updateMany (f := closedAs resolution now actor) (fun _ => rfl)
  intro r _ hp
  have hopen := closed_of_isOpenOrInReview (Bool.and_eq_true_iff.mp hp).2
  exact onward_closedAs fun hc => absurd hc hopen

theorem updateReport_ok {reportId : Id} {f : Report → Report} {db db' : Db} {r : Report}
    (h : updateReport reportId f db = .ok (r, db')) :
    db' = { db with reports := Rows.updateMany (·.id == reportId) f db.reports } := by
  unfold updateReport at h
  dsimp only at h
  split at h
  · cases h
  · exact (Prod.mk.inj (Except.ok.inj h)).2.symm

theorem upsertReport_advances {now : Time} {reportId reporterUserId : Id} {dto : CreateReportDto}
    {db db' : Db} {r : Report} (h : upsertReport now reportId reporterUserId dto db = .ok (r, db')) :
    Advances db.reports db'.reports := by
  unfold upsertReport at h
  split at h
  · obtain ⟨_, rfl⟩ := Prod.mk.inj (Except.ok.inj h)
    exact Advances.refl _
  · split at h
    · cases h
    · rename_i hid
      obtain ⟨_, rfl⟩ := Prod.mk.inj (Except.ok.inj h)
      refine ⟨fun r hr => ⟨r, List.mem_append_left _ hr, Onward.refl r⟩, ?_, ?_⟩
      · intro r' hr'
        rcases List.mem_append.mp hr' with hr' | hr'
        · exact Or.inl ⟨r', hr', Onward.refl r'⟩
        · obtain rfl := List.mem_singleton.mp hr'
          simp
      · intro hu
        apply Rows.unique_append hu
        intro a ha he
        exact hid (List.any_eq_true.mpr ⟨a, ha, by simpa using he⟩)

theorem updateMessage_ok {messageId : Id} {f : Message → Message} {db db' : Db} {m : Message}
    (h : updateMessage messageId f db = .ok (m, db')) :
    db' = { db with messages := Rows.updateMany (·.id == messageId) f db.messages } := by
  unfold updateMessage at h
  dsimp only at h
  split at h
  · cases h
  · exact (Prod.mk.inj (Except.ok.inj h)).2.symm

theorem some_beq_id (reportId : Id) (r : Report) :
    (some reportId == some r.id) = (r.id == reportId) := by
  rw [Option.some_beq_some, Bool.beq_comm]

/-- A tombstone closes the reports on the message, and then signs the report that led to it. -/
theorem tombstoneTx_reports {now : Time} {actor messageId : Id} {dto : TombstoneMessageDto}
    {db db' : Db} (h : tombstoneTx now actor messageId dto db = .ok db') :
    db'.reports = Rows.updateMany (fun r => truthy dto.reportId == some r.id)
      (fun r => { r with reviewedByUserId := some actor, reviewedAt := some now })
      (closeReportsOf messageId .autoClosedTombstoned now actor db).reports := by
  unfold tombstoneTx at h
  obtain ⟨⟨m, marked⟩, hmark, h⟩ := bind_ok.mp h
  obtain rfl := updateMessage_ok hmark
  obtain ⟨closed, hclose, h⟩ := bind_ok.mp h
  obtain rfl := Except.ok.inj h
  show closed.reports = _
  unfold closeReportsWith at hclose
  cases hid : truthy dto.reportId with
  | none =>
      rw [hid] at hclose
      obtain rfl := Except.ok.inj hclose
      exact (Rows.updateMany_eq_self fun _ _ => rfl).symm
  | some reportId =>
      rw [hid] at hclose
      obtain ⟨⟨updated, signed⟩, hsign, hend⟩ := bind_ok.mp hclose
      obtain rfl := Except.ok.inj hend
      simp only [updateReport_ok hsign, some_beq_id]
      rfl

/-- A suspension closes the reports on the messages it tombstones, and then the report that led
to it. -/
theorem suspendTx_reports {now : Time} {sid actor target : Id} {dto : SuspendUserDto} {db db' : Db}
    {r : SuspendResult} (h : suspendTx now sid actor target dto db = .ok (r, db')) :
    db'.reports = Rows.updateMany (fun r => truthy dto.reportId == some r.id && isOpenOrInReview r)
      (closeReport actor now)
      (Rows.updateMany (fun r => ((db.messages.filter fun m =>
          m.senderUserId == target && m.deletedAt.isNone).map (·.id)).contains r.messageId &&
            isOpenOrInReview r)
        (closeReport actor now) db.reports) := by
  unfold suspendTx at h
  split at h
  · cases h
  · split at h
    · cases h
    · simp only [Except.ok.injEq, Prod.mk.injEq] at h
      obtain ⟨_, rfl⟩ := h
      have hmarked : ∀ (ids : List Id) (d : Db), d.reports = db.reports →
          (if ids.isEmpty then d else tombstoneAll now sid actor ids d).reports =
            Rows.updateMany (fun r => ids.contains r.messageId && isOpenOrInReview r)
              (closeReport actor now) db.reports := by
        intro ids d hd
        split
        · rename_i hempty
          rw [hd, List.isEmpty_iff.mp hempty]
          exact (Rows.updateMany_eq_self fun _ _ => rfl).symm
        · show Rows.updateMany _ _ d.reports = _
          rw [hd]
      unfold auditWrite
      dsimp only
      cases truthy dto.reportId with
      | none =>
          rw [Rows.updateMany_eq_self (p := fun r => none == some r.id && isOpenOrInReview r)
            fun _ _ => rfl]
          exact hmarked _ _ rfl
      | some reportId =>
          simp only [some_beq_id]
          exact congrArg (Rows.updateMany _ _) (hmarked _ _ rfl)

/-- Signing the report that led to the action leaves its status and resolution alone. -/
theorem tombstoneTx_advances {now : Time} {actor messageId : Id} {dto : TombstoneMessageDto}
    {db db' : Db} (h : tombstoneTx now actor messageId dto db = .ok db') :
    Advances db.reports db'.reports := by
  rw [tombstoneTx_reports h]
  refine (advances_close db.reports).trans (advances_updateMany (fun _ => rfl) ?_)
  intro r _ _
  exact ⟨rfl, fun hc => ⟨hc, rfl⟩, fun hres => hres⟩

theorem suspendTx_advances {now : Time} {sid actor target : Id} {dto : SuspendUserDto} {db db' : Db}
    {r : SuspendResult} (h : suspendTx now sid actor target dto db = .ok (r, db')) :
    Advances db.reports db'.reports := by
  rw [suspendTx_reports h]
  exact (advances_close db.reports).trans (advances_close _)

/-! ## One step -/

/-- What one step writes to the store, as far as the reports are concerned. -/
inductive Writes (s : State) (a : Act) (db' : Db) : Prop where
  | same (h : db'.reports = s.db.reports)
  | file {pid : Nat} {now : Time} {reportId reporterUserId : Id} {dto : CreateReportDto} {r : Report}
      (ha : a = .createUpsert pid now reportId)
      (h : upsertReport now reportId reporterUserId dto s.db = .ok (r, db'))
  | review {pid : Nat} {now : Time} {actor reportId : Id} {r : Report}
      (ha : a = .markUpdate pid now) (hf : s.flights pid = .marking actor reportId)
      (h : updateReport reportId (inReview now actor) s.db = .ok (r, db'))
  | dismiss {pid : Nat} {now : Time} {actor reportId : Id} {dto : DismissReportDto} {r : Report}
      (ha : a = .dismissUpdate pid now) (hf : s.flights pid = .dismissing actor reportId dto)
      (h : updateReport reportId (closedAs .dismissed now actor) s.db = .ok (r, db'))
  | tombstone {now : Time} {actor messageId : Id} {dto : TombstoneMessageDto}
      (h : tombstoneTx now actor messageId dto s.db = .ok db')
  | suspend {pid : Nat} {now : Time} {sid actor target : Id} {dto : SuspendUserDto}
      {r : SuspendResult} (ha : a = .suspendCommit pid now sid)
      (h : suspendTx now sid actor target dto s.db = .ok (r, db'))

theorem step_writes (s : State) (a : Act) : Writes s a (step s a).db := by
  cases a with
  | createRead pid limits ip day minute reporter dto =>
      simp only [step]
      split
      · split <;> exact .same rfl
      · exact .same rfl
  | createUpsert pid now reportId =>
      simp only [step]
      split
      · split
        · rename_i hup
          exact .file rfl hup
        · exact .same rfl
      · exact .same rfl
  | markRead pid actor reportId =>
      simp only [step]
      split
      · split <;> exact .same rfl
      · exact .same rfl
  | markUpdate pid now =>
      simp only [step]
      split
      · rename_i hf
        split
        · rename_i hup
          exact .review rfl hf hup
        · exact .same rfl
      · exact .same rfl
  | markAudit pid =>
      simp only [step]
      split <;> exact .same rfl
  | dismissRead pid actor reportId dto =>
      simp only [step]
      split <;> exact .same rfl
  | dismissUpdate pid now =>
      simp only [step]
      split
      · rename_i hf
        split
        · rename_i hup
          exact .dismiss rfl hf hup
        · exact .same rfl
      · exact .same rfl
  | dismissAudit pid =>
      simp only [step]
      split <;> exact .same rfl
  | tombstoneRead pid actor role messageId dto =>
      simp only [step]
      split <;> exact .same rfl
  | tombstoneCommit pid now =>
      simp only [step]
      split
      · split
        · rename_i htx
          exact .tombstone htx
        · exact .same rfl
      · exact .same rfl
  | suspendRead pid now actor role target dto =>
      simp only [step]
      split <;> exact .same rfl
  | suspendCommit pid now sid =>
      simp only [step]
      split
      · split
        · rename_i htx
          exact .suspend rfl htx
        · exact .same rfl
      · exact .same rfl
  | fail pid => exact .same rfl
  | expire key => exact .same rfl

/-- What one step does to the reports, given that the updates find them open. -/
theorem step_advances {s : State} {a : Act} (h : FindsOpen s a) :
    Advances s.db.reports (step s a).db.reports := by
  cases step_writes s a with
  | same he =>
      rw [he]
      exact Advances.refl _
  | file ha hup => exact upsertReport_advances hup
  | @review pid now actor reportId _ ha hf hup =>
      subst ha
      rw [updateReport_ok hup]
      apply advances_updateMany (f := inReview now actor) (fun _ => rfl)
      intro r hr hid
      exact onward_inReview (h actor reportId hf r hr (by simpa using hid))
  | @dismiss pid now actor reportId dto _ ha hf hup =>
      subst ha
      rw [updateReport_ok hup]
      apply advances_updateMany (f := closedAs .dismissed now actor) (fun _ => rfl)
      intro r hr hid
      exact onward_closedAs (h actor reportId dto hf r hr (by simpa using hid))
  | tombstone htx => exact tombstoneTx_advances htx
  | suspend ha htx => exact suspendTx_advances htx

/-- The two updates by id keep the key, whether or not they find the report open. -/
theorem step_keys {s : State} (a : Act) (hu : Rows.Unique (·.id) s.db.reports) :
    Rows.Unique (·.id) (step s a).db.reports := by
  cases step_writes s a with
  | same he =>
      rw [he]
      exact hu
  | file ha hup => exact (upsertReport_advances hup).keys hu
  | @review pid now actor reportId _ ha hf hup =>
      rw [updateReport_ok hup]
      exact Rows.unique_updateMany (f := inReview now actor) (fun _ => rfl) hu
  | @dismiss pid now actor reportId dto _ ha hf hup =>
      rw [updateReport_ok hup]
      exact Rows.unique_updateMany (f := closedAs .dismissed now actor) (fun _ => rfl) hu
  | tombstone htx => exact (tombstoneTx_advances htx).keys hu
  | suspend ha htx => exact (suspendTx_advances htx).keys hu

/-- An update by id of a stored report finds it, and stores what it makes of it. -/
theorem updateReport_stores {reportId : Id} {f : Report → Report} (hf : ∀ r, (f r).id = r.id)
    {db : Db} {r : Report} (hr : r ∈ db.reports) (hid : r.id = reportId) :
    ∃ r' db', updateReport reportId f db = .ok (r', db') ∧ f r ∈ db'.reports := by
  have hin : f r ∈ Rows.updateMany (·.id == reportId) f db.reports :=
    Rows.mem_updateMany.mpr ⟨r, hr, by simp [hid]⟩
  unfold updateReport
  dsimp only
  cases hfind : (Rows.updateMany (·.id == reportId) f db.reports).find? (·.id == reportId) with
  | none =>
      have hno := List.find?_eq_none.mp hfind _ hin
      simp [hf, hid] at hno
  | some r' => exact ⟨r', _, rfl, hin⟩

/-- A step that loses no closed report found what it updates open. -/
theorem findsOpen_of_keepsClosed {s : State} {a : Act} (hu : Rows.Unique (·.id) s.db.reports)
    (h : KeepsClosed s (step s a)) : FindsOpen s a := by
  have hu' := step_keys a hu
  cases a with
  | markUpdate pid now =>
      intro actor reportId hf r hr hid hclosed
      obtain ⟨r', hr', hkey, hclosed', _⟩ := h r hr hclosed
      obtain ⟨w, db', hup, hin⟩ :=
        updateReport_stores (f := inReview now actor) (fun _ => rfl) hr hid
      simp only [step, hf, hup] at hr' hu'
      have he : r' = inReview now actor r := hu'.eq hr' hin hkey
      rw [he] at hclosed'
      cases hclosed'
  | dismissUpdate pid now =>
      intro actor reportId dto hf r hr hid hclosed
      obtain ⟨r', hr', hkey, _, hres⟩ := h r hr hclosed
      obtain ⟨w, db', hup, hin⟩ :=
        updateReport_stores (f := closedAs .dismissed now actor) (fun _ => rfl) hr hid
      simp only [step, hf, hup] at hr' hu'
      have he : r' = closedAs .dismissed now actor r := hu'.eq hr' hin hkey
      rw [he] at hres
      exact hres.symm
  | _ => trivial

theorem Advances.keepsClosed {s s' : State} (h : Advances s.db.reports s'.db.reports) :
    KeepsClosed s s' := by
  intro r hr hclosed
  obtain ⟨r', hr', ho⟩ := h.kept r hr
  exact ⟨r', hr', ho.key, ho.closed hclosed⟩

theorem Advances.resolved {s s' : State} (h : Advances s.db.reports s'.db.reports)
    (hs : Resolved s) : Resolved s' := by
  intro r' hr'
  rcases h.origin r' hr' with ⟨r, hr, ho⟩ | hnew
  · exact ho.resolved (hs r hr)
  · exact hnew

theorem KeepsClosed.trans {a b c : State} (h : KeepsClosed a b) (k : KeepsClosed b c) :
    KeepsClosed a c := by
  intro r hr hclosed
  obtain ⟨r', hr', hid, hclosed', hres⟩ := h r hr hclosed
  obtain ⟨r'', hr'', hid', hclosed'', hres'⟩ := k r' hr' hclosed'
  exact ⟨r'', hr'', hid'.trans hid, hclosed'', hres'.trans hres⟩

/-! ## Whole runs -/

/-- In every state a report has a resolution exactly when it is closed, and a report once
closed stays closed with its resolution, exactly when every update of `markInReview` and
`dismiss` finds its report open (or, for `dismiss`, dismissed already). -/
theorem closed_reports_stay_closed (ls : List Act) (s : State)
    (hkeys : Rows.Unique (·.id) s.db.reports) (hresolved : Resolved s) :
    (Always step Resolved s ls ∧ Later step KeepsClosed s ls) ↔ Along step FindsOpen s ls := by
  rw [later_iff_along (fun _ r hr hc => ⟨r, hr, rfl, hc, rfl⟩) (fun _ _ _ h k => h.trans k)]
  constructor
  · rintro ⟨_, hkeeps⟩
    exact along_of_along (I := fun s => Rows.Unique (·.id) s.db.reports)
      (fun s a hu _ => step_keys a hu) (fun s a hu hk => findsOpen_of_keepsClosed hu hk) ls s hkeys
      hkeeps
  · intro hfinds
    refine ⟨?_, ?_⟩
    · exact always_of_along (fun s a hs ha => (step_advances ha).resolved hs) ls s hresolved hfinds
    · exact along_of_along (I := fun _ => True) (fun _ _ _ _ => trivial)
        (fun s a _ ha => (step_advances ha).keepsClosed) ls s trivial hfinds

/-- No call in flight and no report counted. -/
def start (db : Db) : State := { db, counters := fun _ => 0, flights := fun _ => .idle }

/-- A thread between two users, with one message that can be reported. -/
def reportableDb : Db :=
  { users := [{ id := "alice", phoneHash := "h1" }, { id := "mallory", phoneHash := "h2" }]
    directThreads := [{ id := "t1", userAId := "alice", userBId := "mallory", latestSequence := 1 }]
    messages := [{ id := "m1", threadId := some "t1", senderUserId := "mallory"
                   senderDeviceId := "d2", idempotencyKey := "k1", threadSequence := 1
                   createdAt := 10 }] }

def fileReport : List Act :=
  [.createRead 0 {} none "20260101" "202601010000" "alice" { messageId := "m1", reason := .spam },
    .createUpsert 0 20 "r1"]

/-- One moderator dismisses the report between another's read and update. -/
def overtakenReview : List Act :=
  fileReport ++ [.markRead 1 "mod1" "r1", .dismissRead 2 "mod2" "r1" {}, .dismissUpdate 2 30,
    .dismissAudit 2, .markUpdate 1 31]

theorem overtaken_review_reopens :
    ¬ ∀ db, Rows.Unique (·.id) db.reports → Resolved (start db) → ∀ ls,
      Always step Resolved (start db) ls ∧ Later step KeepsClosed (start db) ls := by
  intro h
  have hend := (h reportableDb (by decide) (by intro r hr; cases hr) overtakenReview).1
    overtakenReview (List.prefix_refl _)
  unfold Resolved at hend
  revert hend
  decide

/-- A report that one moderator takes and dismisses. -/
theorem single_review_closes :
    Always step Resolved (start reportableDb)
        (fileReport ++ [.dismissRead 2 "mod2" "r1" {}, .dismissUpdate 2 30]) ∧
      Later step KeepsClosed (start reportableDb)
        (fileReport ++ [.dismissRead 2 "mod2" "r1" {}, .dismissUpdate 2 30]) := by
  apply (closed_reports_stay_closed _ _ (by decide) (by intro r hr; cases hr)).mpr
  have hopen : ∀ r ∈ (run step (start reportableDb)
      (fileReport ++ [.dismissRead 2 "mod2" "r1" {}])).db.reports, r.status ≠ .closed := by decide
  simp only [fileReport, List.cons_append, List.nil_append, along_cons]
  exact ⟨trivial, trivial, trivial, fun _ _ _ _ r hr _ hclosed => absurd hclosed (hopen r hr),
    along_nil _ _ _⟩

end Birgap.Moderation.Closing
