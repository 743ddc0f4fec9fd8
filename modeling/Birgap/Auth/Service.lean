import Birgap.Auth.Otp
import Birgap.Moderation.Suspension

/-!
# Sessions: login, refresh, logout and pruning

`AuthService` and `PruneProcessor`. `refresh` issues several statements outside any
transaction, so a call that ends in an exception keeps the writes it made before.
The random values of a call are drawn by its caller and checked against the unique
indexes of the token table.
-/
namespace Birgap.Auth

set_option autoImplicit false

open Birgap.Common Birgap.Lib Birgap.Moderation

structure SessionMeta where
  userAgent : Option String := none
  ip : Option String := none

/-- The random values one call consumes. -/
structure Draws where
  refreshToken : String
  familyId : String
  sessionId : Id
  userId : Id

/-- The caller as the JWT guard describes it. -/
structure AuthenticatedUser where
  userId : Id
  sessionId : Id
  role : UserRole

/-- A token pair; the access token is its signed claims. -/
structure TokenPair where
  userId : Id
  sid : Id
  refreshToken : String
  deriving DecidableEq

def findToken (tokenHash : String) (db : Db) : Option RefreshToken :=
  db.refreshTokens.find? (·.tokenHash == tokenHash)

/-- `updateMany({ where: { .., revokedAt: null }, data: { revokedAt: now } })`. -/
def revokeWhere (p : RefreshToken → Bool) (now : Time) (db : Db) : Db :=
  { db with
    refreshTokens := Rows.updateMany (fun t => p t && t.revokedAt.isNone)
      (fun t => { t with revokedAt := some now }) db.refreshTokens }

def activeSuspension (now : Time) (userId : Id) (db : Db) : Option UserSuspension :=
  Rows.newest (·.suspendedAt) (db.userSuspensions.filter fun s =>
    s.userId == userId && s.revokedAt.isNone && s.expiresAt.all (now < ·))

def throwIfSuspended (env : AuthEnv) (now : Time) (userId : Id) (db : Db) : Except Err Unit :=
  match activeSuspension now userId db with
  | none => .ok ()
  | some s => .error (.accountSuspended s.reason s.suspendedAt s.expiresAt env.suspensionAppealUrl)

/-- A stored token already has the drawn id or the hash of the drawn token. -/
def drawn (env : AuthEnv) (d : Draws) (db : Db) : Bool :=
  db.refreshTokens.any fun t => t.id == d.sessionId || t.tokenHash == env.sha256 d.refreshToken

def issueTokenPair (env : AuthEnv) (now : Time) (userId : Id) (sm : SessionMeta) (d : Draws)
    (familyId : Option String) (db : Db) : Except Err TokenPair × Db :=
  if drawn env d db then (.error .uniqueConstraint, db)
  else
    let session : RefreshToken :=
      { id := d.sessionId, userId := userId, tokenHash := env.sha256 d.refreshToken
        familyId := familyId.getD d.familyId
        expiresAt := addDays now (env.refreshTokenTtlDays.getD 30)
        userAgent := sm.userAgent, ipAddress := sm.ip, createdAt := now }
    (.ok ⟨userId, session.id, d.refreshToken⟩,
      { db with refreshTokens := db.refreshTokens ++ [session] })

/-- `throwIfSuspended` followed by `issueTokenPair`. -/
def issueUnlessSuspended (env : AuthEnv) (now : Time) (userId : Id) (sm : SessionMeta) (d : Draws)
    (familyId : Option String) (db : Db) : Except Err TokenPair × Db :=
  match throwIfSuspended env now userId db with
  | .error e => (.error e, db)
  | .ok () => issueTokenPair env now userId sm d familyId db

def findOrCreateUser (env : AuthEnv) (phone phoneHash : String) (d : Draws) (db : Db) :
    Except Err Id × Db :=
  match db.users.find? (·.phoneHash == phoneHash) with
  | some existing => (.ok existing.id, db)
  | none =>
      match db.users.find? (·.phoneHash == env.sha256 phone) with
      | some legacy => (.ok legacy.id, updateUser legacy.id (fun u => { u with phoneHash }) db)
      | none =>
          if db.users.any (·.id == d.userId) then (.error .uniqueConstraint, db)
          else
            let user : User := { id := d.userId, phoneHash, phoneMasked := some (maskPhone phone) }
            (.ok user.id, { db with users := db.users ++ [user] })

/-- `AuthService.verifyOtp`. -/
def verifyOtp (env : AuthEnv) (now : Time) (dtoPhone code : String) (sm : SessionMeta) (d : Draws)
    (db : Db) : Except Err TokenPair × Db :=
  let phone := normalizePhone dtoPhone
  let phoneHash := env.hmacSha256 phone env.phoneHashPepper
  match otpVerify env now phone code db with
  | (.error e, db) => (.error e, db)
  | (.ok (), db) =>
      match findOrCreateUser env phone phoneHash d db with
      | (.error e, db) => (.error e, db)
      | (.ok userId, db) => issueUnlessSuspended env now userId sm d none db

def graceMs (env : AuthEnv) : Int := env.refreshReuseGraceSeconds.getD 15 * 1000

def revokeTokenFamily (now : Time) (tokenHash : String) (db : Db) : Db :=
  match findToken tokenHash db with
  | none => db
  | some token => revokeWhere (·.familyId == token.familyId) now db

def invalidToken : Err := .unauthorized "Refresh token is invalid"

def reusedToken : Err := .unauthorized "Refresh token has been reused — all sessions revoked"

/-- `AuthService.refresh`. The first statement is the rotation; when it changed no row
the token is looked up again to tell an unknown or expired token, a replay inside the
grace window, and a reuse apart. -/
def refresh (env : AuthEnv) (now : Time) (refreshToken : String) (sm : SessionMeta) (d : Draws)
    (db : Db) : Except Err TokenPair × Db :=
  let tokenHash := env.sha256 refreshToken
  let count := (db.refreshTokens.filter fun t =>
    t.tokenHash == tokenHash && t.revokedAt.isNone).length
  let db := revokeWhere (·.tokenHash == tokenHash) now db
  if count = 0 then
    match findToken tokenHash db with
    | none => (.error invalidToken, db)
    | some existing =>
        if existing.expiresAt ≤ now then (.error invalidToken, db)
        else
          match existing.revokedAt with
          | none => (.error invalidToken, db)
          | some revokedAt =>
              if now - revokedAt ≤ graceMs env then
                issueUnlessSuspended env now existing.userId sm d (some existing.familyId) db
              else (.error reusedToken, revokeTokenFamily now tokenHash db)
  else
    match findToken tokenHash db with
    | none => (.error invalidToken, db)
    | some session => issueUnlessSuspended env now session.userId sm d (some session.familyId) db

/-- `AuthService.logout`. -/
def logout (env : AuthEnv) (now : Time) (user : AuthenticatedUser) (refreshToken : Option String)
    (deviceId : Option Id) (db : Db) : Db :=
  let db := match truthy refreshToken with
    | some token =>
        revokeWhere (fun t => t.tokenHash == env.sha256 token && t.userId == user.userId) now db
    | none => revokeWhere (fun t => t.id == user.sessionId && t.userId == user.userId) now db
  match truthy deviceId with
  | none => db
  | some id =>
      { db with
        devices := Rows.updateMany (fun v => v.id == id && v.userId == user.userId)
          (fun v => { v with active := false, pushActive := false }) db.devices }

/-- `PruneProcessor.process`. -/
def prune (now : Time) (reportRetentionDays metricsRetentionDays : Int) (db : Db) : Db :=
  { db with
    refreshTokens := db.refreshTokens.filter fun t => !(decide (t.expiresAt < now) || t.revokedAt.isSome)
    socketTickets := db.socketTickets.filter fun t => !(decide (t.expiresAt < now) || t.consumedAt.isSome)
    otps := db.otps.filter fun o => !(decide (o.expiresAt < now) || o.status == .used)
    smsReports := db.smsReports.filter fun r => !decide (r.createdAt < addDays now (-30))
    reports := db.reports.filter fun r => !decide (r.createdAt < addDays now (-reportRetentionDays))
    dailyMetrics := db.dailyMetrics.filter fun m =>
      !decide (m.date < addDays now (-metricsRetentionDays)) }

end Birgap.Auth
