import Birgap.Messages.Access
import Birgap.Moderation.Suspension
import Birgap.Common.Crypto
import Birgap.Lib.Paging
import Mathlib.Data.Prod.Lex

/-!
# Reports

`ReportsService` and the two moderation actions that close reports with a message. As with
suspensions, what an operation reads first and what it then writes are separate
definitions.
-/
namespace Birgap.Moderation

set_option autoImplicit false

open Birgap.Lib Birgap.Lib.Tx Birgap.Lib.Paging Birgap.Common Birgap.Messages

structure CreateReportDto where
  messageId : Id
  reason : ReportReason
  freeText : Option String := none

structure DismissReportDto where
  reason : Option String := none

structure TombstoneMessageDto where
  reason : Option String := none
  reportId : Option Id := none

/-! ## Filing a report -/

/-- `REPORTS_DAILY_LIMIT` and `REPORTS_PER_IP_PER_MINUTE`. -/
structure ReportLimits where
  daily : Nat := 200
  perIpPerMinute : Nat := 50

/-- The Redis counters by key; a key that is not there counts zero. -/
abbrev Counters := String → Nat

def incr (key : String) (c : Counters) : Counters := fun k => if k = key then c k + 1 else c k

def dailyKey (userId : Id) (yyyymmdd : String) : String :=
  "reports:daily:" ++ userId ++ ":" ++ yyyymmdd

def ipMinuteKey (ip yyyyMMddHHmm : String) : String := "reports:ip:" ++ ip ++ ":" ++ yyyyMMddHHmm

/-- The reads and checks of `create` on the database, with the reporter they return. -/
def createChecks (reporterUserId : Id) (dto : CreateReportDto) (db : Db) : Except Err User :=
  match findUser reporterUserId db with
  | none => .error (.notFound "Reporter user not found")
  | some reporter => do
      ensure (reporter.status != .suspended) (.forbidden "Suspended users cannot file reports")
      match db.messages.find? (·.id == dto.messageId) with
      | none => throw (.notFound "Message not found")
      | some message =>
          ensure message.deletedAt.isNone (.badRequest "Cannot report a deleted message")
          ensure (message.senderUserId != reporterUserId)
            (.badRequest "Cannot report your own message")
          checkReporter reporterUserId message db
          pure reporter

/-- The two limits on an ordinary user, each counted before it is compared. -/
def createLimits (limits : ReportLimits) (clientIp : Option String) (yyyymmdd yyyyMMddHHmm : String)
    (reporter : User) (c : Counters) : Except Err Unit × Counters :=
  if reporter.role ≠ .user then (.ok (), c)
  else
    let c := incr (dailyKey reporter.id yyyymmdd) c
    if limits.daily < c (dailyKey reporter.id yyyymmdd) then
      (.error (.conflict ("Daily report limit of " ++ toString limits.daily ++ " reached")), c)
    else
      match truthy clientIp with
      | none => (.ok (), c)
      | some ip =>
          let c := incr (ipMinuteKey ip yyyyMMddHHmm) c
          if limits.perIpPerMinute < c (ipMinuteKey ip yyyyMMddHHmm) then
            (.error (.conflict ("Report rate limit of " ++ toString limits.perIpPerMinute ++
              "/minute reached for this IP")), c)
          else (.ok (), c)

/-- The upsert of `create`: a second report of one user on one message changes nothing. -/
def upsertReport (now : Time) (reportId reporterUserId : Id) (dto : CreateReportDto) (db : Db) :
    Except Err (Report × Db) :=
  match db.reports.find? fun r => r.reporterUserId == reporterUserId && r.messageId == dto.messageId with
  | some report => .ok (report, db)
  | none =>
      if db.reports.any (·.id == reportId) then .error .uniqueConstraint
      else
        let report : Report :=
          { id := reportId, reporterUserId, messageId := dto.messageId, reason := dto.reason
            freeText := dto.freeText, createdAt := now }
        .ok (report, { db with reports := db.reports ++ [report] })

/-! ## The report queue -/

structure ListReportsQueryDto where
  status : Option ReportStatus := none
  reason : Option ReportReason := none
  cursor : Option Id := none
  limit : Option Nat := none

structure ReporterRef where
  id : Id
  username : Option String
  deriving DecidableEq

structure ReportedMessageRef where
  id : Id
  senderUserId : Id
  threadId : Option Id
  groupId : Option Id
  createdAt : Time
  deletedAt : Option Time
  deriving DecidableEq

/-- A report as the queue shows it, with its two relations. -/
structure ListedReport where
  report : Report
  reporter : Option ReporterRef
  message : Option ReportedMessageRef
  deriving DecidableEq

structure ReportPage where
  items : List ListedReport
  nextCursor : Option Id
  deriving DecidableEq

def listedReport (db : Db) (report : Report) : ListedReport where
  report
  reporter := (findUser report.reporterUserId db).map fun u => { id := u.id, username := u.username }
  message := (db.messages.find? (·.id == report.messageId)).map fun m =>
    { id := m.id, senderUserId := m.senderUserId, threadId := m.threadId, groupId := m.groupId
      createdAt := m.createdAt, deletedAt := m.deletedAt }

/-- The place of a status in the enumeration, which is how the database compares it. -/
def statusRank : ReportStatus → Nat
  | .open => 0
  | .inReview => 1
  | .closed => 2

/-- `orderBy: [{ status: 'asc' }, { createdAt: 'asc' }]`. -/
def queueKey (r : Report) : Nat ×ₗ Time := toLex (statusRank r.status, r.createdAt)

/-- The `where` of the queue. -/
def inQueue (query : ListReportsQueryDto) (r : Report) : Bool :=
  query.status.all (· == r.status) && query.reason.all (· == r.reason)

def listLimit (query : ListReportsQueryDto) : Nat := min (max (query.limit.getD 20) 1) 100

/-- The rows of the query before its `take`: with a cursor, those behind the cursor row. -/
def queueRows (order : OrderBy queueKey) (query : ListReportsQueryDto) (db : Db) : List Report :=
  let rows := order.arrange db.reports
  (match truthy query.cursor with
    | none => rows
    | some cursor => afterRow (·.id == cursor) rows).filter (inQueue query)

/-- `ReportsService.list`. -/
def list (order : OrderBy queueKey) (query : ListReportsQueryDto) (db : Db) : ReportPage :=
  let limit := listLimit query
  let items := (queueRows order query db).take (limit + 1)
  let hasMore := decide (limit < items.length)
  let slice := if hasMore then items.take limit else items
  { items := slice.map (listedReport db)
    nextCursor := if hasMore then slice.getLast?.map (·.id) else none }

/-! ## Reviewing a report -/

def findReport (reportId : Id) (db : Db) : Option Report := db.reports.find? (·.id == reportId)

/-- `prisma.report.update` on one report. -/
def updateReport (reportId : Id) (f : Report → Report) (db : Db) : Except Err (Report × Db) :=
  let reports := Rows.updateMany (·.id == reportId) f db.reports
  match reports.find? (·.id == reportId) with
  | none => .error (.failure "Record to update not found.")
  | some report => .ok (report, { db with reports := reports })

/-- The read of `markInReview` and `dismiss`: the report, unless it is closed. -/
def reviewCheck (reportId : Id) (db : Db) : Except Err Report :=
  match findReport reportId db with
  | none => .error (.notFound "Report not found")
  | some existing =>
      if existing.status = .closed then .error (.badRequest "Report is already closed")
      else .ok existing

/-- A report as `markInReview` leaves it. -/
def inReview (now : Time) (actorUserId : Id) (r : Report) : Report :=
  { r with status := .inReview, reviewedByUserId := some actorUserId, reviewedAt := some now }

/-- A report closed with a resolution. -/
def closedAs (resolution : ReportResolution) (now : Time) (actorUserId : Id) (r : Report) : Report :=
  { r with
    status := .closed
    resolution := some resolution
    reviewedByUserId := some actorUserId
    reviewedAt := some now }

def reviewStartAudit (actorUserId reportId : Id) : AdminAuditLog :=
  { actorUserId := some actorUserId, action := .reportReviewStart, targetType := .report
    targetId := reportId, metadata := .jsonNull }

def dismissAudit (actorUserId reportId : Id) (dto : DismissReportDto) : AdminAuditLog :=
  { actorUserId := some actorUserId, action := .reportDismiss, targetType := .report
    targetId := reportId, reason := dto.reason, metadata := .jsonNull }

/-! ## Tombstoning a message -/

/-- The checks and reads of `tombstoneMessage` before its transaction. -/
def tombstoneCheck (actorRole : UserRole) (messageId : Id) (db : Db) : Except Err Message :=
  if actorRole ≠ .moderator ∧ actorRole ≠ .admin then
    .error (.forbidden "Moderator or admin role required")
  else
    match db.messages.find? (·.id == messageId) with
    | none => .error (.notFound "Message not found")
    | some message =>
        if message.deletedAt.isSome then .error (.conflict "Message is already tombstoned")
        else .ok message

/-- The reports on a message that are not closed yet are closed with it. -/
def closeReportsOf (messageId : Id) (resolution : ReportResolution) (now : Time) (actorUserId : Id)
    (db : Db) : Db :=
  { db with
    reports := Rows.updateMany (fun r => r.messageId == messageId && isOpenOrInReview r)
      (closedAs resolution now actorUserId) db.reports }

/-- `cascadeCloseReports`: the report that led to the action is signed as well, whatever
message it is about. -/
def cascadeCloseReports (messageId triggerReportId : Id) (now : Time) (actorUserId : Id)
    (resolution : ReportResolution) (db : Db) : Except Err Db := do
  let (_, db) ← updateReport triggerReportId
    (fun r => { r with reviewedByUserId := some actorUserId, reviewedAt := some now })
    (closeReportsOf messageId resolution now actorUserId db)
  pure db

def tombstoneAudit (actorUserId messageId : Id) (dto : TombstoneMessageDto) : AdminAuditLog :=
  { actorUserId := some actorUserId, action := .messageTombstone, targetType := .message
    targetId := messageId, reason := dto.reason, metadata := .platformTombstone dto.reportId }

/-- `tx.message.update` of the deletion mark. -/
def updateMessage (messageId : Id) (f : Message → Message) (db : Db) : Except Err (Message × Db) :=
  let messages := Rows.updateMany (·.id == messageId) f db.messages
  match messages.find? (·.id == messageId) with
  | none => .error (.failure "Record to update not found.")
  | some message => .ok (message, { db with messages := messages })

/-- The reports a tombstone closes, with or without a report that led to it. -/
def closeReportsWith (now : Time) (actorUserId messageId : Id) (dto : TombstoneMessageDto)
    (db : Db) : Except Err Db :=
  match truthy dto.reportId with
  | some reportId =>
      cascadeCloseReports messageId reportId now actorUserId .autoClosedTombstoned db
  | none => .ok (closeReportsOf messageId .autoClosedTombstoned now actorUserId db)

/-- The transaction of `tombstoneMessage`. -/
def tombstoneTx (now : Time) (actorUserId messageId : Id) (dto : TombstoneMessageDto) (db : Db) :
    Except Err Db := do
  let (_, db) ← updateMessage messageId (fun m => { m with deletedAt := some now }) db
  let db ← closeReportsWith now actorUserId messageId dto db
  pure (auditWrite (tombstoneAudit actorUserId messageId dto) db)

end Birgap.Moderation
