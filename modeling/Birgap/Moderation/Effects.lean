import Birgap.Moderation.Audited

/-!
# What a moderation action does to the store

`suspendUser` and `tombstoneMessage` as wholes: the store a completed call leaves, table by
table, and what it leaves alone. The transactions run statement by statement in `Audited`;
what they compute on a store of their own is written out here once.
-/
namespace Birgap.Moderation.Effects

set_option autoImplicit false

open Birgap.Lib Birgap.Lib.Clients Birgap.Common Birgap.Messages Birgap.Moderation
open Birgap.Moderation.Audited

/-! ## What the transactions compute -/

theorem eval_mutate (c : Client) (guard : Db → Except Err Unit) (effect : Db → Db) (db : Db) :
    (mutate c guard effect).eval db =
      match guard db with
      | .error e => .error e
      | .ok () => .ok (effect db, effect db) := by
  simp only [mutate, Prog.eval]
  cases guard db <;> rfl

theorem eval_audit (c : Client) (row : AdminAuditLog) (db : Db) :
    (audit c row).eval db = .ok ((), auditWrite row db) := rfl

theorem eval_fetch {α : Type} (c : Client) (f : Db → Except Err α) (db : Db) :
    (fetch c f : Program α).eval db =
      match f db with
      | .error e => .error e
      | .ok a => .ok (a, db) := by
  simp only [fetch, Prog.eval]
  cases f db <;> rfl

theorem via_mutate (c : Client) (guard : Db → Except Err Unit) (effect : Db → Db) :
    (mutate c guard effect).Via c := ⟨rfl, fun _ => trivial⟩

theorem via_audit (c : Client) (row : AdminAuditLog) : (audit c row).Via c :=
  ⟨rfl, fun _ => trivial⟩

/-- What naming a report does to it. -/
def namedClosed (now : Time) (actorUserId : Id) (reportId : Option Id) (db : Db) : Db :=
  match truthy reportId with
  | none => db
  | some id =>
      if (findReport id db).any isOpenOrInReview then
        { db with reports := Rows.updateMany (·.id == id) (closeReport actorUserId now) db.reports }
      else db

theorem foldl_auditWrite (rows : List AdminAuditLog) : ∀ db : Db,
    (rows.map Part.audit).foldl (fun db l => appendRow l db) db =
      { db with adminAuditLog := db.adminAuditLog ++ rows } := by
  induction rows with
  | nil => intro db; simp
  | cons row rows ih =>
      intro db
      rw [List.map_cons, List.foldl_cons, ih]
      simp [appendRow, auditWrite]

theorem eval_tombstoneRows (now : Time) (sid actor : Id) (ids : List Id) (db : Db) :
    (tombstoneRows now sid actor ids).eval db =
      .ok ((), if ids.isEmpty then db else tombstoneAll now sid actor ids db) := by
  unfold tombstoneRows
  by_cases hids : ids.isEmpty = true
  · rw [if_pos hids, if_pos hids]
    rfl
  · rw [if_neg hids, if_neg hids]
    have hrows : (ids.map fun id => Part.audit (cascadeAudit sid actor id)) =
        (ids.map (cascadeAudit sid actor)).map Part.audit := by
      rw [List.map_map]
      rfl
    simp only [eval_bind, eval_mutate, always, eval_writeAll, hrows, foldl_auditWrite]
    rfl

theorem eval_closeNamedReport (now : Time) (actor : Id) (reportId : Option Id) (db : Db) :
    (closeNamedReport now actor reportId).eval db = .ok ((), namedClosed now actor reportId db) := by
  unfold closeNamedReport namedClosed
  cases truthy reportId with
  | none => rfl
  | some id =>
      dsimp only
      rw [eval_bind, eval_fetch]
      dsimp only
      by_cases hopen : (findReport id db).any isOpenOrInReview = true
      · have hfound : db.reports.any (·.id == id) = true := by
          cases hfind : findReport id db with
          | none => simp [hfind] at hopen
          | some r =>
              have hmem := List.mem_of_find?_eq_some hfind
              have hid := List.find?_some hfind
              exact List.any_eq_true.mpr ⟨r, hmem, hid⟩
        rw [if_pos hopen, if_pos hopen, eval_bind]
        simp only [updateReportRow, eval_mutate, recordFound, hfound, if_true]
        rfl
      · rw [if_neg hopen, if_neg hopen]
        rfl

/-- The messages a suspension tombstones. -/
def remaining (target : Id) (db : Db) : List Message :=
  db.messages.filter fun m => m.senderUserId == target && m.deletedAt.isNone

/-- The store after the transaction of `suspendUser`. -/
def afterSuspension (now : Time) (sid actor target : Id) (dto : SuspendUserDto) (db : Db) : Db :=
  let ids := (remaining target db).map (·.id)
  let struck := revokeUserTokens target now (updateUser target (strike now)
    { db with userSuspensions := db.userSuspensions ++ [newSuspension now sid actor target dto] })
  auditWrite (suspensionAudit sid actor target dto ids.length)
    (namedClosed now actor dto.reportId
      (if ids.isEmpty then struck else tombstoneAll now sid actor ids struck))

theorem eval_suspendBody (now : Time) (sid actor target : Id) (dto : SuspendUserDto) (db : Db) :
    (suspendBody now sid actor target dto).eval db =
      if db.userSuspensions.any (·.id == sid) then .error .uniqueConstraint
      else if (findUser target db).isNone then .error (.failure "Record to update not found.")
      else .ok (⟨sid, (remaining target db).length⟩, afterSuspension now sid actor target dto db) := by
  unfold suspendBody
  by_cases hsid : db.userSuspensions.any (·.id == sid) = true
  · simp only [eval_bind, eval_mutate, hsid, if_true]
  · rw [if_neg hsid]
    have hfree : db.userSuspensions.any (·.id == sid) = false := by simpa using hsid
    cases huser : findUser target db with
    | none =>
        have hgone : findUser target { db with
            userSuspensions := db.userSuspensions ++ [newSuspension now sid actor target dto] } =
              none := huser
        simp only [eval_bind, eval_mutate, hfree, Bool.false_eq_true, if_false, updateUserRow,
          recordFound, hgone, Option.isSome_none, Option.isNone_none, if_true]
    | some u =>
        have hthere : findUser target { db with
            userSuspensions := db.userSuspensions ++ [newSuspension now sid actor target dto] } =
              some u := huser
        simp only [eval_bind, eval_mutate, hfree, Bool.false_eq_true, if_false, updateUserRow,
          recordFound, hthere, Option.isSome_some, Option.isNone_some, if_true, eval_fetch, always,
          eval_tombstoneRows, eval_closeNamedReport, eval_audit]
        simp [afterSuspension, remaining, Prog.eval, pure, revokeUserTokens, updateUser]

theorem via_suspendBody (now : Time) (sid actor target : Id) (dto : SuspendUserDto) :
    (suspendBody now sid actor target dto).Via .tx := by
  have hrows : ∀ ids, (tombstoneRows now sid actor ids).Via .tx := by
    intro ids
    unfold tombstoneRows
    split
    · trivial
    · exact via_bind (via_mutate ..) fun _ => via_bind (via_mutate ..) fun _ => via_writeAll ..
  have hnamed : (closeNamedReport now actor dto.reportId).Via .tx := by
    unfold closeNamedReport
    split
    · trivial
    · refine via_bind (via_fetch ..) fun _ => ?_
      split
      · exact via_bind (via_mutate ..) fun _ => trivial
      · trivial
  refine via_bind (via_mutate ..) fun _ => via_bind (via_mutate ..) fun _ => ?_
  refine via_bind (via_mutate ..) fun _ => via_bind (via_fetch ..) fun ids => ?_
  exact via_bind (hrows ids) fun _ => via_bind hnamed fun _ => via_bind (via_audit ..) fun _ => trivial

theorem suspendUser_opens (now : Time) (sid actor : Id) (role : UserRole) (target : Id)
    (dto : SuspendUserDto) (db : Db) :
    (Audited.suspendUser now sid actor role target dto).ReadsTo
      (fun e => e = .transaction (suspendBody now sid actor target dto)) db := by
  refine readsTo_bind (E := fun _ => True) (readsTo_ensure fun _ => trivial) fun _ _ => ?_
  refine readsTo_bind (E := fun _ => True) (readsTo_ensure fun _ => trivial) fun _ _ => ?_
  exact readsTo_bind (E := fun _ => True) (readsTo_fetch fun _ _ => trivial) fun _ _ => rfl

/-! ## A suspension does what it promises -/

/-- The report is on a message that the suspension tombstones. -/
def OnRemaining (target : Id) (db : Db) (r : Report) : Prop :=
  ∃ m ∈ remaining target db, m.id = r.messageId

/-- What a completed suspension makes of the store `before`. -/
structure Promised (now : Time) (actor target : Id) (dto : SuspendUserDto) (r : SuspendResult)
    (before after : Db) : Prop where
  user : ∃ u v, findUser target before = some u ∧ findUser target after = some v ∧
    v.status = .suspended ∧ v.strikeCount = u.strikeCount + 1
  otherUsers : ∀ id, id ≠ target → findUser id after = findUser id before
  suspension : ∃ x, after.userSuspensions = before.userSuspensions ++ [x] ∧ x.id = r.suspensionId ∧
    x.userId = target ∧ x.revokedAt = none ∧ x.expiresAt = dto.expiresAt
  tokens : ∀ t ∈ after.refreshTokens, t.userId = target → t.revokedAt ≠ none
  otherTokens : after.refreshTokens.filter (·.userId != target) =
    before.refreshTokens.filter (·.userId != target)
  messages : ∀ m ∈ after.messages, m.senderUserId = target → m.deletedAt ≠ none
  /-- Row by row, nothing but an absent deletion time of the target's messages is written. -/
  keptMessages : List.Forall₂ (fun m m' => m' = { m with deletedAt := m'.deletedAt } ∧
      (m.senderUserId ≠ target ∨ m.deletedAt ≠ none → m' = m)) before.messages after.messages
  reports : ∀ x ∈ after.reports, OnRemaining target before x → isOpenOrInReview x = false
  keptReports : List.Forall₂ (fun x x' => x'.id = x.id ∧ x'.messageId = x.messageId ∧
      (¬ OnRemaining target before x ∨ isOpenOrInReview x = false → x' = x))
    before.reports after.reports
  audit : ∃ rows, after.adminAuditLog = before.adminAuditLog ++ rows ∧
    rows.length = r.tombstonedMessageCount + 1
  count : r.tombstonedMessageCount = (remaining target before).length
  otherTables : { after with
    users := before.users, userSuspensions := before.userSuspensions
    refreshTokens := before.refreshTokens, messages := before.messages
    reports := before.reports, adminAuditLog := before.adminAuditLog } = before

theorem tombstoneAll_nil (now : Time) (sid actor : Id) (db : Db) :
    tombstoneAll now sid actor [] db = db := by
  have hmessages := Rows.updateMany_eq_self (p := fun m : Message => [].contains m.id)
    (f := fun m => { m with deletedAt := some now }) (fun m (_ : m ∈ db.messages) => rfl)
  have hreports := Rows.updateMany_eq_self
    (p := fun r : Report => [].contains r.messageId && isOpenOrInReview r)
    (f := closeReport actor now) (fun r (_ : r ∈ db.reports) => rfl)
  simp only [tombstoneAll, hmessages, hreports, List.map_nil, List.append_nil]

/-- Without a named report, the six tables after a suspension. -/
theorem afterSuspension_eq (now : Time) (sid actor target : Id) {dto : SuspendUserDto} (db : Db)
    (hnamed : truthy dto.reportId = none) :
    let ids := (remaining target db).map (·.id)
    afterSuspension now sid actor target dto db = { db with
      users := Rows.updateMany (·.id == target) (strike now) db.users
      userSuspensions := db.userSuspensions ++ [newSuspension now sid actor target dto]
      refreshTokens := Rows.updateMany (fun t => t.userId == target && t.revokedAt.isNone)
        (fun t => { t with revokedAt := some now }) db.refreshTokens
      messages := Rows.updateMany (fun m => ids.contains m.id)
        (fun m => { m with deletedAt := some now }) db.messages
      reports := Rows.updateMany (fun r => ids.contains r.messageId && isOpenOrInReview r)
        (closeReport actor now) db.reports
      adminAuditLog := db.adminAuditLog ++ ids.map (cascadeAudit sid actor) ++
        [suspensionAudit sid actor target dto ids.length] } := by
  intro ids
  have hids : ids = (remaining target db).map (·.id) := rfl
  unfold afterSuspension namedClosed
  rw [hnamed, ← hids]
  dsimp only
  by_cases hempty : ids.isEmpty = true
  · rw [if_pos hempty, ← tombstoneAll_nil now sid actor (revokeUserTokens ..),
      List.isEmpty_iff.mp hempty]
    rfl
  · rw [if_neg hempty]
    rfl

theorem mem_remaining_iff {target : Id} {db : Db} (hunique : Rows.Unique (·.id) db.messages)
    {m : Message} (hm : m ∈ db.messages) :
    ((remaining target db).map (·.id)).contains m.id = true ↔
      m.senderUserId = target ∧ m.deletedAt = none := by
  rw [List.contains_iff_mem, List.mem_map]
  constructor
  · rintro ⟨x, hx, hid⟩
    obtain ⟨hx, hsel⟩ := List.mem_filter.mp hx
    obtain rfl := hunique.eq hx hm hid
    simpa using hsel
  · intro hsel
    exact ⟨m, List.mem_filter.mpr ⟨hm, by simpa using hsel⟩, rfl⟩

theorem onRemaining_iff {target : Id} {db : Db} {r : Report} :
    ((remaining target db).map (·.id)).contains r.messageId = true ↔ OnRemaining target db r := by
  rw [List.contains_iff_mem, List.mem_map]
  rfl

theorem afterSuspension_promised {now : Time} {sid actor target : Id} {dto : SuspendUserDto} {db : Db}
    (hunique : Rows.Unique (·.id) db.messages) (hnamed : truthy dto.reportId = none) {u : User}
    (hu : findUser target db = some u) :
    Promised now actor target dto ⟨sid, (remaining target db).length⟩ db
      (afterSuspension now sid actor target dto db) := by
  have hafter := afterSuspension_eq now sid actor target db hnamed
  generalize afterSuspension now sid actor target dto db = after at hafter ⊢
  have husers := congrArg Db.users hafter
  have hsuspensions := congrArg Db.userSuspensions hafter
  have htokens := congrArg Db.refreshTokens hafter
  have hmessages := congrArg Db.messages hafter
  have hreports := congrArg Db.reports hafter
  have haudit := congrArg Db.adminAuditLog hafter
  dsimp only at husers hsuspensions htokens hmessages hreports haudit
  have hfind : ∀ id, findUser id after =
      (findUser id db).map fun u => if u.id == target then strike now u else u := by
    intro id
    unfold findUser
    rw [husers]
    exact Rows.find?_updateMany (p := (·.id == target)) (q := (·.id == id)) (f := strike now)
      (fun _ => rfl) db.users
  constructor
  case user =>
    refine ⟨u, strike now u, hu, ?_, rfl, rfl⟩
    have hid := (findUser_some hu).2
    rw [hfind, hu, Option.map_some, if_pos (beq_iff_eq.mpr hid)]
  case otherUsers =>
    intro id hne
    rw [hfind]
    cases hv : findUser id db with
    | none => rfl
    | some v =>
        have hid : v.id ≠ target := by rwa [(findUser_some hv).2]
        rw [Option.map_some, if_neg fun hc => hid (beq_iff_eq.mp hc)]
  case suspension => exact ⟨_, hsuspensions, rfl, rfl, rfl, rfl⟩
  case tokens =>
    intro t ht htarget
    rw [htokens] at ht
    obtain ⟨x, _, rfl⟩ := Rows.mem_updateMany.mp ht
    by_cases hlive : (x.userId == target && x.revokedAt.isNone) = true
    · simp [hlive]
    · simp only [hlive, Bool.false_eq_true, if_false] at htarget ⊢
      simpa [htarget] using hlive
  case otherTokens =>
    rw [htokens]
    have hkeeps := Rows.filter_updateMany (q := fun t : RefreshToken => t.userId != target)
      (p := fun t => t.userId == target && t.revokedAt.isNone)
      (f := fun t => { t with revokedAt := some now }) (fun _ => rfl) db.refreshTokens
    refine hkeeps.trans (Rows.updateMany_eq_self ?_)
    intro t ht
    have hother := (List.mem_filter.mp ht).2
    simp only [bne_iff_ne, ne_eq] at hother
    simp [hother]
  case messages =>
    intro m hm hsender
    rw [hmessages] at hm
    obtain ⟨x, hx, rfl⟩ := Rows.mem_updateMany.mp hm
    by_cases hsel : ((remaining target db).map (·.id)).contains x.id = true
    · rw [if_pos hsel]
      simp
    · rw [if_neg hsel] at hsender ⊢
      exact fun hnone => hsel ((mem_remaining_iff hunique hx).mpr ⟨hsender, hnone⟩)
  case keptMessages =>
    rw [hmessages]
    apply Rows.forall₂_updateMany
    intro m hm
    by_cases hsel : ((remaining target db).map (·.id)).contains m.id = true
    · rw [if_pos hsel]
      obtain ⟨hsender, hnone⟩ := (mem_remaining_iff hunique hm).mp hsel
      refine ⟨rfl, ?_⟩
      rintro (hother | hdeleted)
      · exact absurd hsender hother
      · exact absurd hnone hdeleted
    · rw [if_neg hsel]
      exact ⟨rfl, fun _ => rfl⟩
  case reports =>
    intro x hx hon
    rw [hreports] at hx
    obtain ⟨y, _, rfl⟩ := Rows.mem_updateMany.mp hx
    by_cases hsel : (((remaining target db).map (·.id)).contains y.messageId &&
        isOpenOrInReview y) = true
    · rw [if_pos hsel]
      rfl
    · rw [if_neg hsel] at hon ⊢
      rw [onRemaining_iff.mpr hon] at hsel
      simpa using hsel
  case keptReports =>
    rw [hreports]
    apply Rows.forall₂_updateMany
    intro x _
    by_cases hsel : (((remaining target db).map (·.id)).contains x.messageId &&
        isOpenOrInReview x) = true
    · rw [if_pos hsel]
      obtain ⟨hon, hopen⟩ := Bool.and_eq_true_iff.mp hsel
      refine ⟨rfl, rfl, ?_⟩
      rintro (hoff | hclosed)
      · exact absurd (onRemaining_iff.mp hon) hoff
      · rw [hopen] at hclosed
        cases hclosed
    · rw [if_neg hsel]
      exact ⟨rfl, rfl, fun _ => rfl⟩
  case audit =>
    rw [List.append_assoc] at haudit
    exact ⟨_, haudit, by simp⟩
  case count => rfl
  case otherTables =>
    rw [hafter]

/-- A suspension without a named report does what it promises, and a call that throws has
changed nothing, whatever statement or commit it failed at. -/
theorem suspension_promised (now : Time) (sid actor : Id) (role : UserRole) (target : Id)
    (dto : SuspendUserDto) (fault : Fault) (db : Db) (hunique : Rows.Unique (·.id) db.messages)
    (hnamed : truthy dto.reportId = none) :
    match perform lost fault (Audited.suspendUser now sid actor role target dto) db with
    | (.ok r, s) => Promised now actor target dto r db s.stored
    | (.error _, s) => s.stored = db := by
  have hbody := perform_body lost (suspendUser_opens now sid actor role target dto db)
    (via_suspendBody now sid actor target dto) fault
  split
  · rename_i r s hrun
    rw [hrun] at hbody
    simp only [eval_suspendBody] at hbody
    split at hbody
    · cases hbody
    · split at hbody
      · cases hbody
      · rename_i hthere
        obtain ⟨rfl, hstored⟩ := Prod.mk.inj (Except.ok.inj hbody)
        rw [← hstored]
        cases hu : findUser target db with
        | none => simp [hu] at hthere
        | some u => exact afterSuspension_promised hunique hnamed hu
  · rename_i e s hrun
    rw [hrun] at hbody
    exact hbody

/-- Two senders, a message and a token of each, a message deleted before, and two reports. -/
def reportedDb : Db :=
  { users := [{ id := "admin", phoneHash := "h0", role := .admin }, { id := "bob", phoneHash := "h1" },
      { id := "carol", phoneHash := "h2" }]
    refreshTokens := [
      { id := "s1", userId := "bob", tokenHash := "t1", familyId := "f1", expiresAt := 900, createdAt := 1 },
      { id := "s2", userId := "carol", tokenHash := "t2", familyId := "f2", expiresAt := 900, createdAt := 1 }]
    messages := [
      { id := "m1", threadId := some "t1", senderUserId := "bob", senderDeviceId := "d1"
        idempotencyKey := "k1", threadSequence := 1, createdAt := 10, deletedAt := some 15 },
      { id := "m2", threadId := some "t1", senderUserId := "bob", senderDeviceId := "d1"
        idempotencyKey := "k2", threadSequence := 2, createdAt := 11 },
      { id := "m3", threadId := some "t1", senderUserId := "carol", senderDeviceId := "d2"
        idempotencyKey := "k1", threadSequence := 3, createdAt := 12 }]
    reports := [
      { id := "r1", reporterUserId := "carol", messageId := "m2", reason := .spam, createdAt := 20 },
      { id := "r2", reporterUserId := "bob", messageId := "m3", reason := .spam, status := .closed
        resolution := some .dismissed, reviewedByUserId := some "dana", reviewedAt := some 30
        createdAt := 20 }] }

theorem bob_suspended : ∃ s,
    perform lost .never (Audited.suspendUser 100 "x1" "admin" .admin "bob" {}) reportedDb =
        (.ok ⟨"x1", 1⟩, s) ∧
      Promised 100 "admin" "bob" {} ⟨"x1", 1⟩ reportedDb s.stored :=
  ⟨_, rfl, suspension_promised 100 "x1" "admin" .admin "bob" {} .never reportedDb (by decide) rfl⟩

/-! ## Whose reports an action touches -/

/-- The transaction of `tombstoneMessage`. -/
def tombstoneBody (now : Time) (actorUserId messageId : Id) (dto : TombstoneMessageDto) :
    Program (Id × Time) := do
  let _ ← updateMessageRow .tx messageId fun m => { m with deletedAt := some now }
  let _ ← closeReportRows now actorUserId messageId dto
  audit .tx (tombstoneAudit actorUserId messageId dto)
  pure (messageId, now)

/-- The two actions that take the id of a report from their caller. -/
inductive Action where
  | tombstone (now : Time) (actorUserId : Id) (actorRole : UserRole) (messageId : Id)
      (dto : TombstoneMessageDto)
  | suspend (now : Time) (suspensionId actorUserId : Id) (actorRole : UserRole)
      (targetUserId : Id) (dto : SuspendUserDto)

/-- The store an action leaves. -/
def Action.after (db : Db) : Action → Db
  | .tombstone now actor role messageId dto =>
      (perform lost .never (Audited.tombstoneMessage now actor role messageId dto) db).2.stored
  | .suspend now sid actor role target dto =>
      (perform lost .never (Audited.suspendUser now sid actor role target dto) db).2.stored

/-- The reports an action may touch: those on its message, or on its user's messages. -/
def Action.Own (db : Db) : Action → Report → Prop
  | .tombstone _ _ _ messageId _, r => r.messageId = messageId
  | .suspend _ _ _ _ target _, r => ∃ m ∈ db.messages, m.id = r.messageId ∧ m.senderUserId = target

/-- Only own reports change, and none that was closed. -/
def TouchesOwn (a : Action) (db : Db) : Prop :=
  List.Forall₂ (fun r r' => (r' ≠ r → a.Own db r) ∧ (r.status = .closed → r' = r))
    db.reports (a.after db).reports

/-- The report carries the actor's signature of this very time. -/
def Signed (now : Time) (actor : Id) (r : Report) : Prop :=
  r.reviewedByUserId = some actor ∧ r.reviewedAt = some now

/-- The call is rejected, or names no report, or one that it may touch. -/
def Action.NamesOwn (db : Db) : Action → Prop
  | .tombstone now actor role messageId dto =>
      (∀ m, tombstoneCheck role messageId db ≠ .ok m) ∨
        ∀ reportId, truthy dto.reportId = some reportId → ∀ r ∈ db.reports, r.id = reportId →
          (r.messageId = messageId ∧ r.status ≠ .closed) ∨ Signed now actor r
  | .suspend now sid actor role target dto =>
      suspendCheck now actor role target dto db ≠ .ok () ∨
        (∃ x ∈ db.userSuspensions, x.id = sid) ∨
        ∀ reportId, truthy dto.reportId = some reportId → ∀ r ∈ db.reports, r.id = reportId →
          r.status = .closed ∨ ∃ m ∈ db.messages, m.id = r.messageId ∧ m.senderUserId = target

theorem closed_iff {r : Report} : isOpenOrInReview r = false ↔ r.status = .closed := by
  unfold isOpenOrInReview
  cases r.status <;> decide

theorem touchesOwn_of_same {a : Action} {db : Db} (h : (a.after db).reports = db.reports) :
    TouchesOwn a db := by
  unfold TouchesOwn
  rw [h]
  exact List.forall₂_same.mpr fun r _ => ⟨fun hne => absurd rfl hne, fun _ => rfl⟩

/-- When every row is rewritten for itself, the rows can be looked at one by one. -/
theorem touchesOwn_iff_rows {a : Action} {db : Db} {g : Report → Report}
    (h : (a.after db).reports = db.reports.map g) :
    TouchesOwn a db ↔
      ∀ r ∈ db.reports, (g r ≠ r → a.Own db r) ∧ (r.status = .closed → g r = r) := by
  unfold TouchesOwn
  rw [h, List.forall₂_map_right_iff, List.forall₂_same]

/-! ### A tombstone -/

theorem via_tombstoneBody (now : Time) (actor messageId : Id) (dto : TombstoneMessageDto) :
    (tombstoneBody now actor messageId dto).Via .tx := by
  have hreports : (closeReportRows now actor messageId dto).Via .tx := by
    unfold closeReportRows
    split
    · exact via_bind (via_mutate ..) fun _ => via_mutate ..
    · exact via_mutate ..
  refine via_bind (via_mutate ..) fun _ => via_bind hreports fun _ => ?_
  exact via_bind (via_audit ..) fun _ => trivial

/-- What a tombstone makes of one report. -/
def tombstonedReport (now : Time) (actor messageId : Id) (reportId : Option Id) (r : Report) :
    Report :=
  let r' := if r.messageId == messageId && isOpenOrInReview r then
    closedAs .autoClosedTombstoned now actor r else r
  if some r.id = reportId then { r' with reviewedByUserId := some actor, reviewedAt := some now }
  else r'

theorem tombstone_exec (now : Time) (actor : Id) (dto : TombstoneMessageDto) {role : UserRole}
    {messageId : Id} {db : Db} {m : Message}
    (hcheck : tombstoneCheck role messageId db = .ok m) :
    exec lost (Audited.tombstoneMessage now actor role messageId dto) none { stored := db } =
      (.ok (.transaction (tombstoneBody now actor messageId dto), none), { stored := db }) := by
  have hrole : (role == .moderator || role == .admin) = true := by
    unfold tombstoneCheck at hcheck
    split at hcheck
    · cases hcheck
    · rename_i hrole
      simpa [Classical.or_iff_not_imp_left] using hrole
  simp only [Audited.tombstoneMessage, Clients.ensure, hrole, if_true]
  simp [Bind.bind, Prog.bind, fetch, exec, Session.view, hcheck, transaction, tombstoneBody]

theorem tombstonedReport_none (now : Time) (actor messageId : Id) (db : Db) :
    (closeReportsOf messageId .autoClosedTombstoned now actor db).reports =
      db.reports.map (tombstonedReport now actor messageId none) := by
  apply List.map_congr_left
  intro r _
  simp [tombstonedReport]

theorem tombstonedReport_some (now : Time) (actor messageId reportId : Id) (db : Db) :
    Rows.updateMany (·.id == reportId)
      (fun r => { r with reviewedByUserId := some actor, reviewedAt := some now })
      (closeReportsOf messageId .autoClosedTombstoned now actor db).reports =
        db.reports.map (tombstonedReport now actor messageId (some reportId)) := by
  unfold closeReportsOf Rows.updateMany
  rw [List.map_map]
  apply List.map_congr_left
  intro r _
  have hid : (if (r.messageId == messageId && isOpenOrInReview r) = true then
      closedAs .autoClosedTombstoned now actor r else r).id = r.id := by
    split <;> rfl
  simp only [Function.comp_apply, hid, tombstonedReport, Option.some.injEq, beq_iff_eq]

/-- A named report that is not there fails the transaction. -/
theorem tombstone_reports (now : Time) (actor : Id) (dto : TombstoneMessageDto) {role : UserRole}
    {messageId : Id} {db : Db} {m : Message}
    (hcheck : tombstoneCheck role messageId db = .ok m) :
    ((Action.tombstone now actor role messageId dto).after db).reports =
      if (truthy dto.reportId).any fun id => !db.reports.any (·.id == id) then db.reports
      else db.reports.map (tombstonedReport now actor messageId (truthy dto.reportId)) := by
  have hthere : db.messages.any (·.id == messageId) = true := by
    unfold tombstoneCheck at hcheck
    split at hcheck
    · cases hcheck
    · split at hcheck
      · cases hcheck
      · rename_i x hx
        have hid := List.find?_some hx
        exact List.any_eq_true.mpr ⟨x, List.mem_of_find?_eq_some hx, hid⟩
  have hafter := perform_never lost (tombstone_exec now actor dto hcheck)
    (via_tombstoneBody now actor messageId dto)
  unfold Action.after
  dsimp only
  rw [hafter]
  unfold tombstoneBody updateMessageRow closeReportRows
  simp only [eval_bind, eval_mutate, recordFound, hthere, if_true]
  cases truthy dto.reportId with
  | none =>
      simp only [eval_mutate, always, eval_audit]
      exact tombstonedReport_none now actor messageId _
  | some id =>
      have hany : ∀ db : Db, (closeReportsOf messageId .autoClosedTombstoned now actor db).reports.any
          (·.id == id) = db.reports.any (·.id == id) := by
        intro db
        rw [tombstonedReport_none, List.any_map]
        congr 1
        funext r
        simp only [Function.comp_apply, tombstonedReport]
        split <;> split <;> rfl
      by_cases hreport : db.reports.any (·.id == id) = true
      · simp only [eval_bind, eval_mutate, always, updateReportRow, recordFound, hany, hreport,
          eval_audit, if_true, Option.any_some, Bool.not_true, Bool.false_eq_true, if_false]
        exact tombstonedReport_some now actor messageId id _
      · have hmissing : db.reports.any (·.id == id) = false := by simpa using hreport
        simp only [eval_bind, eval_mutate, always, updateReportRow, recordFound, hany, hmissing,
          if_true, Option.any_some, Bool.not_false, Bool.false_eq_true, if_false]

/-- One report, looked at with what the call names. -/
theorem tombstonedReport_own {now : Time} {actor messageId : Id} {reportId : Option Id} {r : Report} :
    ((tombstonedReport now actor messageId reportId r ≠ r → r.messageId = messageId) ∧
        (r.status = .closed → tombstonedReport now actor messageId reportId r = r)) ↔
      (some r.id = reportId → (r.messageId = messageId ∧ r.status ≠ .closed) ∨ Signed now actor r) := by
  have hsigned : ({ r with reviewedByUserId := some actor, reviewedAt := some now } : Report) = r ↔
      Signed now actor r := by
    cases r
    simp [Signed, eq_comm]
  unfold tombstonedReport
  by_cases hon : (r.messageId == messageId && isOpenOrInReview r) = true
  · obtain ⟨hmessage, hopen⟩ := Bool.and_eq_true_iff.mp hon
    have hmessage : r.messageId = messageId := by simpa using hmessage
    have hstatus : r.status ≠ .closed := fun hc => by
      rw [closed_iff.mpr hc] at hopen
      cases hopen
    simp [hmessage, hstatus]
  · simp only [hon, Bool.false_eq_true, if_false]
    by_cases hnamed : some r.id = reportId
    · simp only [hnamed, if_true, forall_const, hsigned, ne_eq]
      have hclosed : r.messageId = messageId → r.status = .closed := by
        intro hmessage
        rw [← closed_iff]
        simpa [hmessage] using hon
      tauto
    · simp [hnamed]

theorem tombstone_touchesOwn_iff (now : Time) (actor : Id) (role : UserRole) (messageId : Id)
    (dto : TombstoneMessageDto) (db : Db) :
    TouchesOwn (.tombstone now actor role messageId dto) db ↔
      (Action.tombstone now actor role messageId dto).NamesOwn db := by
  cases hcheck : tombstoneCheck role messageId db with
  | error e =>
      have hrejected : ∀ m, tombstoneCheck role messageId db ≠ .ok m := by simp [hcheck]
      refine iff_of_true (touchesOwn_of_same ?_) (.inl hrejected)
      have hop : (Audited.tombstoneMessage now actor role messageId dto).ReadsTo (fun _ => False) db := by
        refine readsTo_bind (E := fun _ => True) (readsTo_ensure fun _ => trivial) fun _ _ => ?_
        exact readsTo_bind (E := fun _ => False)
          (readsTo_fetch fun m hm => hrejected m hm) fun _ hfalse => hfalse.elim
      rcases perform_readsTo lost hop .never with hnone | ⟨_, _, hfalse, _⟩
      · unfold Action.after
        dsimp only
        rw [hnone]
      · exact hfalse.elim
  | ok m =>
      have hreports := tombstone_reports now actor dto hcheck
      have hok : ¬ ∀ m, tombstoneCheck role messageId db ≠ .ok m := fun h => h m hcheck
      simp only [Action.NamesOwn, hok, false_or]
      split at hreports
      · rename_i hmissing
        refine iff_of_true (touchesOwn_of_same hreports) ?_
        intro id hid r hr hrid
        simp only [hid, Option.any_some, Bool.not_eq_true', List.any_eq_false, beq_iff_eq] at hmissing
        exact absurd hrid (hmissing r hr)
      · rw [touchesOwn_iff_rows hreports]
        constructor
        · intro h id hid r hr hrid
          exact tombstonedReport_own.mp (h r hr) (by rw [hid, hrid])
        · intro h r hr
          exact tombstonedReport_own.mpr fun hid => h r.id hid.symm r hr rfl

/-! ### A suspension -/

theorem suspension_exec (sid : Id) {now : Time} {actor : Id} {role : UserRole} {target : Id}
    {dto : SuspendUserDto} {db : Db} (hcheck : suspendCheck now actor role target dto db = .ok ()) :
    exec lost (Audited.suspendUser now sid actor role target dto) none { stored := db } =
      (.ok (.transaction (suspendBody now sid actor target dto), none), { stored := db }) := by
  have hreached : (role == .admin) = true ∧ (target != actor) = true := by
    unfold suspendCheck at hcheck
    split at hcheck
    · cases hcheck
    · rename_i hrole
      split at hcheck
      · cases hcheck
      · rename_i hself
        exact ⟨by simpa using hrole, by simpa using hself⟩
  simp only [Audited.suspendUser, Clients.ensure, hreached, if_true]
  simp [Bind.bind, Prog.bind, fetch, exec, Session.view, hcheck, transaction]

theorem namedClosed_reports {now : Time} {actor : Id} {reportId : Option Id} {db : Db}
    (hunique : Rows.Unique (·.id) db.reports) :
    (namedClosed now actor reportId db).reports =
      Rows.updateMany (fun r => truthy reportId == some r.id && isOpenOrInReview r)
        (closeReport actor now) db.reports := by
  unfold namedClosed
  cases truthy reportId with
  | none => exact (Rows.updateMany_eq_self fun _ _ => rfl).symm
  | some id =>
      dsimp only
      by_cases hopen : (findReport id db).any isOpenOrInReview = true
      · rw [if_pos hopen]
        obtain ⟨x, hx, hxopen⟩ := (Option.any_eq_true ..).mp hopen
        apply List.map_congr_left
        intro r hr
        by_cases hid : r.id = id
        · obtain rfl : r = x := by
            have hfound := hunique.find?_eq hr
            rw [hid] at hfound
            exact Option.some.inj (hfound.symm.trans hx)
          simp [hid, hxopen]
        · simp [hid, Ne.symm hid]
      · rw [if_neg hopen]
        refine (Rows.updateMany_eq_self ?_).symm
        intro r hr
        by_contra hsel
        obtain ⟨hid, hropen⟩ : id = r.id ∧ isOpenOrInReview r = true := by simpa using hsel
        apply hopen
        rw [hid, show findReport r.id db = some r from hunique.find?_eq hr]
        exact hropen

/-- What a suspension makes of one report. -/
def suspendedReport (now : Time) (actor target : Id) (reportId : Option Id) (db : Db) (r : Report) :
    Report :=
  let r' := if ((remaining target db).map (·.id)).contains r.messageId && isOpenOrInReview r then
    closeReport actor now r else r
  if truthy reportId == some r'.id && isOpenOrInReview r' then closeReport actor now r' else r'

/-- The closing updates of a suspension, one after the other. -/
theorem closed_reports {now : Time} {sid actor target : Id} {reportId : Option Id} {db : Db}
    (hunique : Rows.Unique (·.id) db.reports) (x : Db) (hx : x.reports = db.reports) :
    (namedClosed now actor reportId
      (if ((remaining target db).map (·.id)).isEmpty then x
        else tombstoneAll now sid actor ((remaining target db).map (·.id)) x)).reports =
      db.reports.map (suspendedReport now actor target reportId db) := by
  have hclosed : (if ((remaining target db).map (·.id)).isEmpty then x
      else tombstoneAll now sid actor ((remaining target db).map (·.id)) x).reports =
        Rows.updateMany (fun r => ((remaining target db).map (·.id)).contains r.messageId &&
          isOpenOrInReview r) (closeReport actor now) db.reports := by
    split
    · rename_i hempty
      rw [List.isEmpty_iff.mp hempty, hx]
      exact (Rows.updateMany_eq_self fun _ _ => rfl).symm
    · rw [← hx]
      rfl
  have hkeys : Rows.Unique (·.id) (if ((remaining target db).map (·.id)).isEmpty then x
      else tombstoneAll now sid actor ((remaining target db).map (·.id)) x).reports := by
    rw [hclosed]
    exact Rows.unique_updateMany (f := closeReport actor now) (fun _ => rfl) hunique
  rw [namedClosed_reports hkeys, hclosed, Rows.updateMany, Rows.updateMany, List.map_map]
  rfl

theorem suspension_reports (sid : Id) {now : Time} {actor : Id} {role : UserRole} {target : Id}
    {dto : SuspendUserDto} {db : Db} (hunique : Rows.Unique (·.id) db.reports)
    (hcheck : suspendCheck now actor role target dto db = .ok ()) :
    ((Action.suspend now sid actor role target dto).after db).reports =
      if db.userSuspensions.any (·.id == sid) then db.reports
      else db.reports.map (suspendedReport now actor target dto.reportId db) := by
  have hthere : (findUser target db).isNone = false := by
    unfold suspendCheck at hcheck
    split at hcheck
    · cases hcheck
    · split at hcheck
      · cases hcheck
      · split at hcheck
        · cases hcheck
        · rename_i u hu
          rw [hu]
          rfl
  have hafter := perform_never lost (suspension_exec sid hcheck)
    (via_suspendBody now sid actor target dto)
  unfold Action.after
  dsimp only
  rw [hafter, eval_suspendBody, hthere, if_neg Bool.false_ne_true]
  by_cases hsid : db.userSuspensions.any (·.id == sid) = true
  · rw [if_pos hsid, if_pos hsid]
  · rw [if_neg hsid, if_neg hsid]
    exact closed_reports hunique _ rfl

theorem suspendedReport_own {now : Time} {actor target : Id} {reportId : Option Id} {db : Db}
    {r : Report} :
    ((suspendedReport now actor target reportId db r ≠ r →
          ∃ m ∈ db.messages, m.id = r.messageId ∧ m.senderUserId = target) ∧
        (r.status = .closed → suspendedReport now actor target reportId db r = r)) ↔
      (truthy reportId = some r.id → r.status = .closed ∨
        ∃ m ∈ db.messages, m.id = r.messageId ∧ m.senderUserId = target) := by
  have hown : ((remaining target db).map (·.id)).contains r.messageId = true →
      ∃ m ∈ db.messages, m.id = r.messageId ∧ m.senderUserId = target := by
    intro hon
    obtain ⟨m, hm, hid⟩ := onRemaining_iff.mp hon
    obtain ⟨hm, hsel⟩ := List.mem_filter.mp hm
    have hsender := (Bool.and_eq_true_iff.mp hsel).1
    exact ⟨m, hm, hid, by simpa using hsender⟩
  generalize (∃ m ∈ db.messages, m.id = r.messageId ∧ m.senderUserId = target) = own at hown ⊢
  unfold suspendedReport
  generalize ((remaining target db).map (·.id)).contains r.messageId = on at hown ⊢
  by_cases hopen : isOpenOrInReview r = true
  · have hstatus : r.status ≠ .closed := fun hc => by
      rw [closed_iff.mpr hc] at hopen
      cases hopen
    have hchanges : closeReport actor now r ≠ r := by
      intro hsame
      rw [← hsame] at hopen
      cases hopen
    cases on with
    | true => simp [hown rfl, hstatus]
    | false =>
        by_cases hnamed : truthy reportId = some r.id
        · simp [hopen, hnamed, hchanges, hstatus]
        · simp [hopen, hnamed, hstatus]
  · simp only [hopen, Bool.and_false, Bool.false_eq_true, if_false]
    have hclosed : r.status = .closed := closed_iff.mp (by simpa using hopen)
    simp [hclosed]

theorem suspension_touchesOwn_iff (now : Time) (sid actor : Id) (role : UserRole) (target : Id)
    (dto : SuspendUserDto) (db : Db) (hunique : Rows.Unique (·.id) db.reports) :
    TouchesOwn (.suspend now sid actor role target dto) db ↔
      (Action.suspend now sid actor role target dto).NamesOwn db := by
  by_cases hcheck : suspendCheck now actor role target dto db = .ok ()
  · have hreports := suspension_reports sid hunique hcheck
    simp only [Action.NamesOwn, hcheck, ne_eq, not_true_eq_false, false_or]
    split at hreports
    · rename_i hsid
      obtain ⟨x, hx, hid⟩ := List.any_eq_true.mp hsid
      exact iff_of_true (touchesOwn_of_same hreports) (.inl ⟨x, hx, by simpa using hid⟩)
    · rename_i hsid
      have hfree : ¬ ∃ x ∈ db.userSuspensions, x.id = sid := by simpa using hsid
      rw [touchesOwn_iff_rows hreports]
      simp only [hfree, false_or]
      constructor
      · intro h id hid r hr hrid
        exact suspendedReport_own.mp (h r hr) (by rw [hid, hrid])
      · intro h r hr
        exact suspendedReport_own.mpr fun hid => h r.id hid r hr rfl
  · refine iff_of_true (touchesOwn_of_same ?_) (.inl hcheck)
    have hop : (Audited.suspendUser now sid actor role target dto).ReadsTo (fun _ => False) db := by
      refine readsTo_bind (E := fun _ => True) (readsTo_ensure fun _ => trivial) fun _ _ => ?_
      refine readsTo_bind (E := fun _ => True) (readsTo_ensure fun _ => trivial) fun _ _ => ?_
      exact readsTo_bind (E := fun _ => False)
        (readsTo_fetch fun _ hok => hcheck hok) fun _ hfalse => hfalse.elim
    rcases perform_readsTo lost hop .never with hnone | ⟨_, _, hfalse, _⟩
    · unfold Action.after
      dsimp only
      rw [hnone]
    · exact hfalse.elim

/-- An action keeps to its own open reports exactly when the caller names one of them. -/
theorem action_touches_own_iff (a : Action) (db : Db) (hunique : Rows.Unique (·.id) db.reports) :
    TouchesOwn a db ↔ a.NamesOwn db := by
  cases a with
  | tombstone now actor role messageId dto =>
      exact tombstone_touchesOwn_iff now actor role messageId dto db
  | suspend now sid actor role target dto =>
      exact suspension_touchesOwn_iff now sid actor role target dto db hunique

/-- Bob's message is tombstoned over a closed report on Carol's, which is signed anew. -/
theorem closed_report_signed_again :
    ¬ ∀ (a : Action) (db : Db), Rows.Unique (·.id) db.reports → TouchesOwn a db := by
  intro h
  have hown := h (.tombstone 100 "admin" .admin "m2" { reportId := some "r2" }) reportedDb (by decide)
  cases hown with
  | cons _ hrest =>
      cases hrest with
      | cons hsecond _ => exact absurd (hsecond.2 rfl) (by decide)

/-- The open report on Bob's message is named. -/
theorem own_report_named :
    TouchesOwn (.tombstone 100 "admin" .admin "m2" { reportId := some "r1" }) reportedDb := by
  refine (action_touches_own_iff _ reportedDb (by decide)).mpr (.inr ?_)
  intro id hid r hr hrid
  obtain rfl := Option.some.inj hid
  rcases List.mem_cons.mp hr with rfl | hr
  · exact .inl (by decide)
  · obtain rfl := List.mem_singleton.mp hr
    exact absurd hrid (by decide)

end Birgap.Moderation.Effects
