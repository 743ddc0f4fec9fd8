import Birgap.Moderation.AuditLog

/-!
# The audit backfill

`backfill-admin-audit-log` copies the rows of `MessageAdminDeleteLog` into the audit log. It is
to go on batch after batch, but its raw query binds the cursor as a text, which the database does
not compare with a column of UUIDs: every run fails behind the first batch. Where a run stands is
kept in a local variable, so a run that is cut short leaves only its copies behind, and the next
one starts over and asks of every row whether it has been copied.
-/
namespace Birgap.Moderation.Backfill

set_option autoImplicit false

open Birgap.Lib Birgap.Lib.Run Birgap.Lib.Paging Birgap.Common Birgap.Moderation.AuditLog

structure LegacyRow where
  id : Uuid
  messageId : Id
  adminUserId : Id
  deletedAt : Time

def BATCH_SIZE : Nat := 500

/-- `metadata.originalId`. -/
def originalId : AuditMetadata → Option Id
  | .legacy id => some id
  | _ => none

def alreadyBackfilled (id : Id) (log : List AuditRow) : Bool :=
  log.any fun r => r.action == .messageTombstone && r.targetType == .message &&
    originalId r.metadata == some id

/-- The row that the script creates; `newId` is its drawn id. -/
def backfilled (newId : Uuid) (row : LegacyRow) : AuditRow :=
  { actorUserId := some row.adminUserId, action := .messageTombstone, targetType := .message
    targetId := row.messageId, metadata := .legacy row.id.text
    id := newId, createdAt := row.deletedAt }

def firstBatch (table : List LegacyRow) : List LegacyRow :=
  ((OrderBy.stable fun r : LegacyRow => r.id).arrange table).take BATCH_SIZE

def textCursor : Err := .failure "operator does not exist: uuid > text"

/-- The raw query; `"id" > ${cursor}` has no cast to a UUID. -/
def nextBatch (cursor : Option Uuid) (table : List LegacyRow) : Except Err (List LegacyRow) :=
  match cursor with
  | none => .ok (firstBatch table)
  | some _ => .error textCursor

/-- Where a run of `main` stands. `rest` are the rows of the batch still to be looked at, `last`
is the id of its last row. -/
inductive Stage where
  | fetching
  | handling (last : Uuid) (rest : List LegacyRow)
  | creating (last : Uuid) (row : LegacyRow) (rest : List LegacyRow)
  | done
  | failed (e : Err)

structure State where
  log : List AuditRow
  cursor : Option Uuid := none
  stage : Stage := .fetching

/-- The next statement of a run, with the id that an insert would draw. -/
def step (table : List LegacyRow) (s : State) (newId : Uuid) : State :=
  match s.stage with
  | .fetching =>
      match nextBatch s.cursor table with
      | .error e => { s with stage := .failed e }
      | .ok batch =>
          match batch.getLast? with
          | none => { s with stage := .done }
          | some last => { s with stage := .handling last.id batch }
  | .handling last [] => { s with cursor := some last, stage := .fetching }
  | .handling last (row :: rest) =>
      { s with
        stage := if alreadyBackfilled row.id.text s.log then .handling last rest
          else .creating last row rest }
  | .creating last row rest =>
      if s.log.any (fun r => decide (r.id = newId)) then { s with stage := .failed .uniqueConstraint }
      else { s with log := s.log ++ [backfilled newId row], stage := .handling last rest }
  | .done => s
  | .failed _ => s

/-- A run of the script on a log, as far as the drawn ids go. -/
def main (table : List LegacyRow) (log : List AuditRow) (newIds : List Uuid) : State :=
  run (step table) { log } newIds

/-- Runs one after the other, each cut short where its ids end. -/
def afterRuns (table : List LegacyRow) (log : List AuditRow) (runs : List (List Uuid)) :
    List AuditRow :=
  runs.foldl (fun log newIds => (main table log newIds).log) log

def Stage.ended : Stage → Bool
  | .done => true
  | .failed _ => true
  | _ => false

/-- A run that nothing cuts short: it comes to an end, and the ids it draws are new. -/
structure Complete (table : List LegacyRow) (log : List AuditRow) (newIds : List Uuid) : Prop where
  ended : (main table log newIds).stage.ended = true
  distinct : newIds.Nodup
  unused : ∀ x ∈ log, x.id ∉ newIds

/-- Each legacy row has exactly one copy in the log, with its id, message, admin and time, and the
log is otherwise what it was. -/
structure ExactlyOnce (table : List LegacyRow) (prior log : List AuditRow) : Prop where
  grown : ∃ extra, log = prior ++ extra ∧ ∀ x ∈ extra, ∃ r ∈ table, x = backfilled x.id r
  once : ∀ r ∈ table, ∃ newId,
    log.filter (fun x => originalId x.metadata == some r.id.text) = [backfilled newId r]

/-! ## What a run keeps -/

/-- The rows that runs have added to a log. -/
structure Copies (table : List LegacyRow) (extra : List AuditRow) : Prop where
  copied : ∀ x ∈ extra, ∃ r ∈ table, x = backfilled x.id r
  once : Rows.Unique (·.metadata) extra

def Present (log : List AuditRow) (r : LegacyRow) : Prop := ∃ newId, backfilled newId r ∈ log

/-- The rows of the first batch that a run has left behind it are copied. -/
def Followed (table : List LegacyRow) (log : List AuditRow) (cursor : Option Uuid) : Stage → Prop
  | .fetching => cursor.isSome → ∀ r ∈ firstBatch table, Present log r
  | .handling _ rest => rest ⊆ firstBatch table ∧ ∀ r ∈ firstBatch table, r ∉ rest → Present log r
  | .creating _ row rest =>
      row :: rest ⊆ firstBatch table ∧ (∀ r ∈ firstBatch table, r ∉ row :: rest → Present log r) ∧
        alreadyBackfilled row.id.text log = false
  | .done => ∀ r ∈ firstBatch table, Present log r
  | .failed e => e ≠ .uniqueConstraint → ∀ r ∈ firstBatch table, Present log r

structure Inv (table : List LegacyRow) (prior : List AuditRow) (s : State) : Prop where
  grown : ∃ extra, s.log = prior ++ extra ∧ Copies (firstBatch table) extra
  followed : Followed table s.log s.cursor s.stage

theorem firstBatch_subset {table : List LegacyRow} : firstBatch table ⊆ table := by
  intro r hr
  exact (OrderBy.mem_arrange _).mp (List.mem_of_mem_take hr)

theorem unique_firstBatch {table : List LegacyRow} (hids : Rows.Unique (·.id) table) :
    Rows.Unique (·.id) (firstBatch table) := by
  have hall : Rows.Unique (·.id) ((OrderBy.stable fun r : LegacyRow => r.id).arrange table) :=
    ((OrderBy.perm _ table).map _).nodup_iff.mpr hids
  exact hall.sublist ((List.take_sublist _ _).map _)

/-! ## Copies -/

section Copying

variable {table : List LegacyRow} {prior extra log : List AuditRow}

theorem Present.mono {log' : List AuditRow} {r : LegacyRow} (h : Present log r) (hsub : log ⊆ log') :
    Present log' r := by
  obtain ⟨newId, hmem⟩ := h
  exact ⟨newId, hsub hmem⟩

theorem originalId_eq {m : AuditMetadata} {id : Id} (h : originalId m = some id) :
    m = .legacy id := by
  cases m with
  | legacy id' =>
      obtain rfl := Option.some.inj h
      rfl
  | _ => cases h

/-- The existence check finds the copies, and nothing else. -/
theorem present_iff (hids : Rows.Unique (·.id) table)
    (hprior : ∀ x ∈ prior, ∀ r ∈ table, originalId x.metadata ≠ some r.id.text)
    (hcopies : Copies table extra) {r : LegacyRow} (hr : r ∈ table) :
    alreadyBackfilled r.id.text (prior ++ extra) = true ↔ ∃ newId, backfilled newId r ∈ extra := by
  unfold alreadyBackfilled
  rw [List.any_eq_true]
  constructor
  · intro h
    obtain ⟨x, hx, htest⟩ := h
    have hid : originalId x.metadata = some r.id.text := by
      simp only [Bool.and_eq_true, beq_iff_eq] at htest
      exact htest.2
    rcases List.mem_append.mp hx with hx | hx
    · exact absurd hid (hprior x hx r hr)
    · obtain ⟨r', hr', hcopy⟩ := hcopies.copied x hx
      rw [hcopy] at hid
      obtain rfl := hids.eq hr' hr (Uuid.text_injective (Option.some.inj hid))
      exact ⟨x.id, hcopy ▸ hx⟩
  · intro h
    obtain ⟨newId, hmem⟩ := h
    exact ⟨_, List.mem_append_right _ hmem, by simp [backfilled, originalId]⟩

/-- A row that the check did not find is copied once. -/
theorem Copies.append (hids : Rows.Unique (·.id) table) (hcopies : Copies table extra)
    {r : LegacyRow} (hr : r ∈ table) (newId : Uuid) (hnew : ¬ ∃ newId, backfilled newId r ∈ extra) :
    Copies table (extra ++ [backfilled newId r]) := by
  constructor
  · intro x hx
    rcases List.mem_append.mp hx with hx | hx
    · exact hcopies.copied x hx
    · obtain rfl := List.mem_singleton.mp hx
      exact ⟨r, hr, rfl⟩
  · apply Rows.unique_append hcopies.once
    intro x hx hsame
    obtain ⟨r', hr', hcopy⟩ := hcopies.copied x hx
    rw [hcopy] at hsame
    have hid : r'.id.text = r.id.text := Option.some.inj (congrArg originalId hsame)
    obtain rfl := hids.eq hr' hr (Uuid.text_injective hid)
    exact hnew ⟨x.id, hcopy ▸ hx⟩

end Copying

/-! ## One step -/

section Step

variable {table : List LegacyRow} {prior : List AuditRow} {s : State}

theorem inv_start {log extra : List AuditRow} (hlog : log = prior ++ extra)
    (hcopies : Copies (firstBatch table) extra) : Inv table prior { log } where
  grown := ⟨extra, hlog, hcopies⟩
  followed := fun hcursor => by cases hcursor

/-- The look-up of a batch starts the first one, or fails behind it. -/
theorem fetching_cases (table : List LegacyRow) (log : List AuditRow) (cursor : Option Uuid)
    (newId : Uuid) :
    (cursor.isSome ∧ step table ⟨log, cursor, .fetching⟩ newId = ⟨log, cursor, .failed textCursor⟩) ∨
    (cursor = none ∧ firstBatch table = [] ∧
      step table ⟨log, cursor, .fetching⟩ newId = ⟨log, cursor, .done⟩) ∨
    ∃ last, cursor = none ∧
      step table ⟨log, cursor, .fetching⟩ newId = ⟨log, cursor, .handling last (firstBatch table)⟩ := by
  cases cursor with
  | some c => exact Or.inl ⟨rfl, rfl⟩
  | none =>
      cases hlast : (firstBatch table).getLast? with
      | none =>
          refine Or.inr (Or.inl ⟨rfl, List.getLast?_eq_none_iff.mp hlast, ?_⟩)
          simp only [step, nextBatch, hlast]
      | some last =>
          refine Or.inr (Or.inr ⟨last.id, rfl, ?_⟩)
          simp only [step, nextBatch, hlast]

theorem step_inv (hids : Rows.Unique (·.id) table)
    (hprior : ∀ x ∈ prior, ∀ r ∈ table, originalId x.metadata ≠ some r.id.text)
    (h : Inv table prior s) (newId : Uuid) : Inv table prior (step table s newId) := by
  have hids' := unique_firstBatch hids
  have hprior' : ∀ x ∈ prior, ∀ r ∈ firstBatch table, originalId x.metadata ≠ some r.id.text :=
    fun x hx r hr => hprior x hx r (firstBatch_subset hr)
  obtain ⟨log, cursor, stage⟩ := s
  obtain ⟨extra, rfl, hcopies⟩ := h.grown
  have hf : Followed table (prior ++ extra) cursor stage := h.followed
  cases stage with
  | fetching =>
      rcases fetching_cases table (prior ++ extra) cursor newId with
        ⟨hbehind, hstep⟩ | ⟨_, hempty, hstep⟩ | ⟨last, _, hstep⟩
      · rw [hstep]
        exact ⟨⟨extra, rfl, hcopies⟩, fun _ => hf hbehind⟩
      · rw [hstep]
        refine ⟨⟨extra, rfl, hcopies⟩, ?_⟩
        intro r hr
        rw [hempty] at hr
        cases hr
      · rw [hstep]
        exact ⟨⟨extra, rfl, hcopies⟩, fun r hr => hr, fun r hr hnot => absurd hr hnot⟩
  | handling last rest =>
      obtain ⟨hsub, hdone⟩ := hf
      cases rest with
      | nil =>
          -- the whole batch has been looked at
          exact ⟨⟨extra, rfl, hcopies⟩, fun _ r hr => hdone r hr List.not_mem_nil⟩
      | cons row rest =>
          have hrow : row ∈ firstBatch table := hsub List.mem_cons_self
          refine ⟨⟨extra, rfl, hcopies⟩, ?_⟩
          show Followed table (prior ++ extra) cursor
            (if alreadyBackfilled row.id.text (prior ++ extra) then .handling last rest
              else .creating last row rest)
          split
          · rename_i hfound
            obtain ⟨copyId, hcopy⟩ := (present_iff hids' hprior' hcopies hrow).mp hfound
            refine ⟨fun r hr => hsub (List.mem_cons_of_mem _ hr), ?_⟩
            intro r hr hnot
            by_cases hself : r = row
            · exact ⟨copyId, hself ▸ List.mem_append_right _ hcopy⟩
            · exact hdone r hr (by simp [hself, hnot])
          · rename_i hnone
            exact ⟨hsub, hdone, Bool.eq_false_iff.mpr hnone⟩
  | creating last row rest =>
      obtain ⟨hsub, hdone, hnone⟩ := hf
      have hrow : row ∈ firstBatch table := hsub List.mem_cons_self
      show Inv table prior (if (prior ++ extra).any (fun r => decide (r.id = newId)) then _ else _)
      split
      · exact ⟨⟨extra, rfl, hcopies⟩, fun hother => absurd rfl hother⟩
      · have hnew : ¬ ∃ copyId, backfilled copyId row ∈ extra := by
          rw [← present_iff hids' hprior' hcopies hrow, hnone]
          decide
        have hgrows : prior ++ extra ⊆ prior ++ extra ++ [backfilled newId row] :=
          List.subset_append_left _ _
        refine ⟨⟨extra ++ [backfilled newId row], by rw [List.append_assoc],
          hcopies.append hids' hrow newId hnew⟩, ?_, ?_⟩
        · exact fun r hr => hsub (List.mem_cons_of_mem _ hr)
        · intro r hr hnot
          by_cases hself : r = row
          · exact ⟨newId, by rw [hself]; exact List.mem_append_right _ List.mem_cons_self⟩
          · exact (hdone r hr (by simp [hself, hnot])).mono hgrows
  | done => exact h
  | failed e => exact h

end Step

/-! ## Whole runs -/

section Runs

variable {table : List LegacyRow} {prior : List AuditRow}

theorem main_inv (hids : Rows.Unique (·.id) table)
    (hprior : ∀ x ∈ prior, ∀ r ∈ table, originalId x.metadata ≠ some r.id.text)
    {extra : List AuditRow} (hcopies : Copies (firstBatch table) extra) (newIds : List Uuid) :
    Inv table prior (main table (prior ++ extra) newIds) := by
  apply run_invariant
  · intro s newId h
    exact step_inv hids hprior h newId
  · exact inv_start rfl hcopies

/-- However often the script was cut short, there are only copies of the first batch, each row at
most once. -/
theorem afterRuns_copies (hids : Rows.Unique (·.id) table)
    (hprior : ∀ x ∈ prior, ∀ r ∈ table, originalId x.metadata ≠ some r.id.text)
    (runs : List (List Uuid)) :
    ∃ extra, afterRuns table prior runs = prior ++ extra ∧ Copies (firstBatch table) extra := by
  induction runs using List.reverseRecOn with
  | nil => exact ⟨[], (List.append_nil prior).symm, by simp, List.nodup_nil⟩
  | append_singleton runs newIds ih =>
      obtain ⟨extra, hlog, hcopies⟩ := ih
      unfold afterRuns at hlog ⊢
      rw [List.foldl_append, hlog]
      exact (main_inv hids hprior hcopies newIds).grown

/-! ## The end of a run -/

/-- How many statements a run has at most before it. -/
def ahead (table : List LegacyRow) (s : State) : Nat :=
  match s.stage with
  | .fetching => if s.cursor.isSome then 1 else 2 * (firstBatch table).length + 3
  | .handling _ rest => 2 * rest.length + 2
  | .creating _ _ rest => 2 * rest.length + 3
  | .done => 0
  | .failed _ => 0

theorem ahead_step {s : State} (hgoing : s.stage.ended = false) (newId : Uuid) :
    ahead table (step table s newId) < ahead table s := by
  obtain ⟨log, cursor, stage⟩ := s
  cases stage with
  | fetching =>
      rcases fetching_cases table log cursor newId with
        ⟨hbehind, hstep⟩ | ⟨rfl, _, hstep⟩ | ⟨last, rfl, hstep⟩
      · rw [hstep]
        show 0 < if cursor.isSome then 1 else _
        rw [if_pos hbehind]
        exact Nat.one_pos
      · rw [hstep]
        exact Nat.succ_pos _
      · rw [hstep]
        exact Nat.lt_succ_self _
  | handling last rest =>
      cases rest with
      | nil => exact Nat.one_lt_two
      | cons row rest =>
          show ahead table ⟨log, cursor, if alreadyBackfilled row.id.text log then
            .handling last rest else .creating last row rest⟩ < 2 * (rest.length + 1) + 2
          split
          · show 2 * rest.length + 2 < _
            omega
          · show 2 * rest.length + 3 < _
            omega
  | creating last row rest =>
      show ahead table (if log.any (fun r => decide (r.id = newId)) then _ else _) <
        2 * rest.length + 3
      split
      · exact Nat.succ_pos _
      · exact Nat.lt_succ_self _
  | done => cases hgoing
  | failed e => cases hgoing

theorem step_ended {s : State} (hended : s.stage.ended = true) (newId : Uuid) :
    step table s newId = s := by
  obtain ⟨log, cursor, stage⟩ := s
  cases stage with
  | done => rfl
  | failed e => rfl
  | _ => cases hended

theorem run_ended {s : State} (hended : s.stage.ended = true) (newIds : List Uuid) :
    run (step table) s newIds = s := by
  induction newIds with
  | nil => rfl
  | cons newId newIds ih => rw [run_cons, step_ended hended, ih]

/-- A run that nothing cuts short comes to an end. -/
theorem run_ends (newIds : List Uuid) :
    ∀ s : State, ahead table s ≤ newIds.length → (run (step table) s newIds).stage.ended = true := by
  induction newIds with
  | nil =>
      intro s hn
      by_contra hgoing
      have hless : ahead table (step table s ⟨"000000000000000000000000000000000000", rfl, rfl⟩) <
          ahead table s := ahead_step (Bool.eq_false_iff.mpr hgoing) _
      rw [List.length_nil] at hn
      omega
  | cons newId newIds ih =>
      intro s hn
      rw [run_cons]
      cases hended : s.stage.ended with
      | true =>
          rw [step_ended hended, run_ended hended]
          exact hended
      | false =>
          have hless : ahead table (step table s newId) < ahead table s := ahead_step hended newId
          rw [List.length_cons] at hn
          exact ih _ (by omega)

/-- An insert only fails where its drawn id is taken. -/
theorem step_inserts {s : State} {newId : Uuid} (hfree : ∀ x ∈ s.log, x.id ≠ newId)
    (hgoing : s.stage ≠ .failed .uniqueConstraint) :
    (step table s newId).stage ≠ .failed .uniqueConstraint ∧
      ∀ x ∈ (step table s newId).log, x ∈ s.log ∨ x.id = newId := by
  obtain ⟨log, cursor, stage⟩ := s
  cases stage with
  | fetching =>
      rcases fetching_cases table log cursor newId with
        ⟨_, hstep⟩ | ⟨_, _, hstep⟩ | ⟨last, _, hstep⟩
      · rw [hstep]
        exact ⟨fun h => (by cases h), fun x hx => .inl hx⟩
      · rw [hstep]
        exact ⟨fun h => (by cases h), fun x hx => .inl hx⟩
      · rw [hstep]
        exact ⟨fun h => (by cases h), fun x hx => .inl hx⟩
  | handling last rest =>
      cases rest with
      | nil => exact ⟨fun h => (by cases h), fun _ hx => .inl hx⟩
      | cons row rest =>
          refine ⟨?_, fun x hx => .inl hx⟩
          show (if alreadyBackfilled row.id.text log then Stage.handling last rest else _) ≠ _
          split
          · intro h; cases h
          · intro h; cases h
  | creating last row rest =>
      have hnone : log.any (fun r => decide (r.id = newId)) = false := by
        rw [List.any_eq_false]
        intro r hr hsame
        exact hfree r hr (of_decide_eq_true hsame)
      have hstep : step table ⟨log, cursor, .creating last row rest⟩ newId =
          ⟨log ++ [backfilled newId row], cursor, .handling last rest⟩ :=
        if_neg (Bool.eq_false_iff.mp hnone)
      rw [hstep]
      refine ⟨fun h => (by cases h), ?_⟩
      intro x hx
      rcases List.mem_append.mp hx with hx | hx
      · exact .inl hx
      · rw [List.mem_singleton.mp hx]
        exact .inr rfl
  | done => exact ⟨hgoing, fun x hx => .inl hx⟩
  | failed e => exact ⟨hgoing, fun x hx => .inl hx⟩

/-- In a run whose drawn ids are new no insert fails. -/
theorem run_inserts (newIds : List Uuid) :
    ∀ {s : State}, newIds.Nodup → (∀ x ∈ s.log, x.id ∉ newIds) →
      s.stage ≠ .failed .uniqueConstraint →
      (run (step table) s newIds).stage ≠ .failed .uniqueConstraint := by
  induction newIds with
  | nil => intro s _ _ hgoing; exact hgoing
  | cons newId newIds ih =>
      intro s hdistinct hunused hgoing
      obtain ⟨hnew, hdistinct⟩ := List.nodup_cons.mp hdistinct
      have hfree : ∀ x ∈ s.log, x.id ≠ newId := fun x hx hsame =>
        hunused x hx (hsame ▸ List.mem_cons_self)
      obtain ⟨hgoing', hlog⟩ : (step table s newId).stage ≠ .failed .uniqueConstraint ∧
          ∀ x ∈ (step table s newId).log, x ∈ s.log ∨ x.id = newId := step_inserts hfree hgoing
      rw [run_cons]
      apply ih hdistinct _ hgoing'
      intro x hx hmem
      rcases hlog x hx with hold | hself
      · exact hunused x hold (List.mem_cons_of_mem _ hmem)
      · exact hnew (hself ▸ hmem)

/-- A complete run has copied the first batch. -/
theorem complete_present {log : List AuditRow} {newIds : List Uuid} (h : Complete table log newIds)
    (hinv : Inv table prior (main table log newIds)) :
    ∀ r ∈ firstBatch table, Present (main table log newIds).log r := by
  have hgoing : (main table log newIds).stage ≠ .failed .uniqueConstraint :=
    run_inserts newIds h.distinct h.unused fun h => by cases h
  have hf := hinv.followed
  have hended := h.ended
  cases hstage : (main table log newIds).stage with
  | done =>
      rw [hstage] at hf
      exact hf
  | failed e =>
      rw [hstage] at hf hgoing
      exact hf fun he => hgoing (congrArg Stage.failed he)
  | _ =>
      rw [hstage] at hended
      cases hended

end Runs

/-- A row that is present is there once. -/
theorem one_copy {table : List LegacyRow} {prior extra : List AuditRow}
    (hprior : ∀ x ∈ prior, ∀ r ∈ table, originalId x.metadata ≠ some r.id.text)
    (hcopies : Copies table extra) {r : LegacyRow} (hr : r ∈ table)
    (hpresent : Present (prior ++ extra) r) :
    ∃ newId, (prior ++ extra).filter (fun x => originalId x.metadata == some r.id.text) =
      [backfilled newId r] := by
  obtain ⟨newId, hmem⟩ := hpresent
  have hcopy : backfilled newId r ∈ extra := by
    rcases List.mem_append.mp hmem with hold | hcopy
    · exact absurd rfl (hprior _ hold r hr)
    · exact hcopy
  have hnone : prior.filter (fun x => originalId x.metadata == some r.id.text) = [] := by
    rw [List.filter_eq_nil_iff]
    intro x hx hid
    exact hprior x hx r hr (beq_iff_eq.mp hid)
  have hmeta : extra.filter (fun x => originalId x.metadata == some r.id.text) =
      extra.filter (fun x => x.metadata == (backfilled newId r).metadata) := by
    apply List.filter_congr
    intro x _
    rw [Bool.eq_iff_iff, beq_iff_eq, beq_iff_eq]
    exact ⟨fun h => originalId_eq h, fun h => by rw [h]; rfl⟩
  refine ⟨newId, ?_⟩
  rw [List.filter_append, hnone, hmeta, hcopies.once.filter_eq hcopy, List.nil_append]

/-- The copies of the first batch are copies of the table exactly when the table has no more rows
than a batch. -/
theorem exactlyOnce_iff {table : List LegacyRow} {prior : List AuditRow}
    (hids : Rows.Unique (·.id) table)
    (hprior : ∀ x ∈ prior, ∀ r ∈ table, originalId x.metadata ≠ some r.id.text)
    (cut : List (List Uuid)) {newIds : List Uuid}
    (h : Complete table (afterRuns table prior cut) newIds) :
    ExactlyOnce table prior (main table (afterRuns table prior cut) newIds).log ↔
      table.length ≤ BATCH_SIZE := by
  obtain ⟨before, hbefore, hcut⟩ := afterRuns_copies hids hprior cut
  rw [hbefore] at h ⊢
  have hinv := main_inv hids hprior hcut newIds
  have hpresent := complete_present h hinv
  obtain ⟨extra, hlog, hcopies⟩ := hinv.grown
  rw [hlog] at hpresent ⊢
  constructor
  · intro honce
    have hbatch : table ⊆ firstBatch table := by
      intro r hr
      obtain ⟨newId, hcopy⟩ := honce.once r hr
      have hmem : backfilled newId r ∈ prior ++ extra :=
        List.mem_of_mem_filter (hcopy ▸ List.mem_singleton_self _)
      rcases List.mem_append.mp hmem with hold | hmem
      · exact absurd rfl (hprior _ hold r hr)
      · obtain ⟨r', hr', hsame⟩ := hcopies.copied _ hmem
        have hid : r.id.text = r'.id.text :=
          Option.some.inj (congrArg (fun x : AuditRow => originalId x.metadata) hsame)
        rw [hids.eq hr (firstBatch_subset hr') (Uuid.text_injective hid)]
        exact hr'
    have hrows : table.Nodup := List.Nodup.of_map _ hids
    have hle := (hrows.subperm hbatch).length_le
    exact hle.trans (List.length_take_le _ _)
  · intro hfits
    have hall : firstBatch table = (OrderBy.stable fun r : LegacyRow => r.id).arrange table :=
      List.take_of_length_le (by rw [OrderBy.length_arrange]; exact hfits)
    refine ⟨⟨extra, rfl, ?_⟩, ?_⟩
    · intro x hx
      obtain ⟨r, hr, hcopy⟩ := hcopies.copied x hx
      exact ⟨r, firstBatch_subset hr, hcopy⟩
    · intro r hr
      have hfirst : r ∈ firstBatch table := by
        rw [hall]
        exact (OrderBy.mem_arrange _).mpr hr
      have hprior' : ∀ x ∈ prior, ∀ r ∈ firstBatch table, originalId x.metadata ≠ some r.id.text :=
        fun x hx r hr => hprior x hx r (firstBatch_subset hr)
      exact one_copy hprior' hcopies hfirst (hpresent r hfirst)

/-- Every run ends that nothing cuts short. -/
theorem main_ends (table : List LegacyRow) (log : List AuditRow) (newIds : List Uuid)
    (hlong : 2 * table.length + 3 ≤ newIds.length) :
    (main table log newIds).stage.ended = true := by
  apply run_ends
  have hle : (firstBatch table).length ≤ table.length := by
    unfold firstBatch
    rw [List.length_take, OrderBy.length_arrange]
    exact Nat.min_le_right _ _
  show 2 * (firstBatch table).length + 3 ≤ newIds.length
  omega

/-- After any number of runs cut short, a complete run leaves exactly one copy of each legacy row
in the log, and the log otherwise as it was, exactly when the table has at most 500 rows; and every
run that nothing cuts short ends. -/
theorem backfill_exactly_once_iff {table : List LegacyRow} {prior : List AuditRow}
    (hids : Rows.Unique (·.id) table)
    (hprior : ∀ x ∈ prior, ∀ r ∈ table, originalId x.metadata ≠ some r.id.text) :
    (∀ (cut : List (List Uuid)) (newIds : List Uuid),
      Complete table (afterRuns table prior cut) newIds →
      (ExactlyOnce table prior (main table (afterRuns table prior cut) newIds).log ↔
        table.length ≤ BATCH_SIZE)) ∧
    ∀ (log : List AuditRow) (newIds : List Uuid), 2 * table.length + 3 ≤ newIds.length →
      (main table log newIds).stage.ended = true :=
  ⟨fun cut _ h => exactlyOnce_iff hids hprior cut h, main_ends table⟩

def exampleLegacy (id : Uuid) : LegacyRow :=
  { id, messageId := "m", adminUserId := "admin", deletedAt := 7 }

def exampleTable : List LegacyRow := [exampleLegacy firstId, exampleLegacy secondId]

/-- Ids with four digits that count. -/
def countedId (n : Nat) : Uuid where
  text := String.ofList ([n / 1000 % 10, n / 100 % 10, n / 10 % 10, n % 10].map Nat.digitChar ++
    List.replicate 32 '0')
  length_eq := by simp
  chars := by
    have hdigit : ∀ d, d < 10 → isUuidChar (Nat.digitChar d) = true := by decide
    have hzeros : (List.replicate 32 '0').all isUuidChar = true := by decide
    simp only [String.toList_ofList, List.map_cons, List.map_nil, List.all_append, List.all_cons,
      List.all_nil, hzeros]
    rw [hdigit _ (Nat.mod_lt _ (by decide)), hdigit _ (Nat.mod_lt _ (by decide)),
      hdigit _ (Nat.mod_lt _ (by decide)), hdigit _ (Nat.mod_lt _ (by decide))]
    rfl

theorem countedId_injective {m n : Nat} (hm : m < 10000) (hn : n < 10000)
    (h : countedId m = countedId n) : m = n := by
  have hdigit : ∀ d, d < 10 → ∀ e, e < 10 → Nat.digitChar d = Nat.digitChar e → d = e := by decide
  have htext := congrArg (fun u : Uuid => u.text.toList) h
  simp only [countedId, String.toList_ofList, List.map_cons, List.map_nil, List.cons_append,
    List.nil_append, List.cons.injEq, and_true] at htext
  obtain ⟨h3, h2, h1, h0⟩ := htext
  have e3 := hdigit _ (Nat.mod_lt _ (by decide)) _ (Nat.mod_lt _ (by decide)) h3
  have e2 := hdigit _ (Nat.mod_lt _ (by decide)) _ (Nat.mod_lt _ (by decide)) h2
  have e1 := hdigit _ (Nat.mod_lt _ (by decide)) _ (Nat.mod_lt _ (by decide)) h1
  have e0 := hdigit _ (Nat.mod_lt _ (by decide)) _ (Nat.mod_lt _ (by decide)) h0
  omega

theorem countedIds_nodup {ns : List Nat} (hns : ns.Nodup) (hlt : ∀ n ∈ ns, n < 10000) :
    (ns.map countedId).Nodup :=
  List.Nodup.map_on (fun m hm n hn h => countedId_injective (hlt m hm) (hlt n hn) h) hns

/-- One row more than a batch. -/
def largeTable : List LegacyRow := (List.range 501).map fun n => exampleLegacy (countedId n)

/-- A complete run over 501 rows does not copy them all. -/
theorem large_backfill_incomplete :
    ¬ ∀ (table : List LegacyRow) (prior : List AuditRow), Rows.Unique (·.id) table →
      (∀ x ∈ prior, ∀ r ∈ table, originalId x.metadata ≠ some r.id.text) →
      ∀ (cut : List (List Uuid)) (newIds : List Uuid),
        Complete table (afterRuns table prior cut) newIds →
        ExactlyOnce table prior (main table (afterRuns table prior cut) newIds).log := by
  intro h
  have hrange : ∀ k, k ≤ 10000 → ((List.range k).map countedId).Nodup := fun k hk =>
    countedIds_nodup List.nodup_range fun n hn => (List.mem_range.mp hn).trans_le hk
  have hids : Rows.Unique (·.id) largeTable := by
    unfold largeTable Rows.Unique
    rw [List.map_map]
    exact hrange 501 (by decide)
  have hlength : largeTable.length = 501 := by
    unfold largeTable
    rw [List.length_map, List.length_range]
  have hprior : ∀ x ∈ ([] : List AuditRow), ∀ r ∈ largeTable,
      originalId x.metadata ≠ some r.id.text := fun _ hx => absurd hx List.not_mem_nil
  have hcomplete : Complete largeTable (afterRuns largeTable [] []) ((List.range 1005).map countedId) :=
    { ended := main_ends _ _ _ (by rw [hlength, List.length_map, List.length_range])
      distinct := hrange 1005 (by decide)
      unused := fun _ hx => absurd hx List.not_mem_nil }
  have hfits := (exactlyOnce_iff hids hprior [] hcomplete).mp (h _ _ hids hprior [] _ hcomplete)
  rw [hlength] at hfits
  exact absurd hfits (by decide)

/-- A run is cut short after its first insert, and the next one is complete. -/
theorem backfill_sample :
    ExactlyOnce exampleTable []
      (main exampleTable (afterRuns exampleTable [] [[firstId, firstId, firstId]])
        ((List.range 7).map countedId)).log := by
  have hids : Rows.Unique (·.id) exampleTable := by decide
  have hprior : ∀ x ∈ ([] : List AuditRow), ∀ r ∈ exampleTable,
      originalId x.metadata ≠ some r.id.text := fun _ hx => absurd hx List.not_mem_nil
  have hcomplete : Complete exampleTable (afterRuns exampleTable [] [[firstId, firstId, firstId]])
      ((List.range 7).map countedId) := ⟨rfl, by decide, by decide⟩
  exact ((backfill_exactly_once_iff hids hprior).1 _ _ hcomplete).mpr (by decide)

end Birgap.Moderation.Backfill
