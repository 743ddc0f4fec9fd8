import Mathlib.Data.List.Basic

/-!
# The database schema and the errors of the service

Row types follow `schema.prisma`; a column that no modelled function reads or
writes is left out. Identifiers are the text of a UUID, instants are milliseconds since the epoch,
and an encrypted payload is opaque text. `Db` is one committed state of the
database: each table is the list of its rows in insertion order.
-/
namespace Birgap

set_option autoImplicit false

abbrev Id := String
abbrev Time := Int
/-- An opaque client-encrypted payload. -/
abbrev Ciphertext := String

inductive UserStatus where
  | active
  | suspended
  deriving DecidableEq

inductive UserRole where
  | user
  | moderator
  | admin
  deriving DecidableEq

inductive ReportReason where
  | spam
  | harassment
  | hateSpeech
  | sexualContent
  | violence
  | impersonation
  | other
  deriving DecidableEq

inductive ReportStatus where
  | open
  | inReview
  | closed
  deriving DecidableEq

inductive ReportResolution where
  | dismissed
  | autoClosedTombstoned
  | autoClosedSuspended
  deriving DecidableEq

inductive AdminAuditAction where
  | messageTombstone
  | messageUntombstone
  | userSuspend
  | userUnsuspend
  | reportDismiss
  | reportReviewStart
  | rolePromote
  | roleDemote
  | metricsRollup
  | strikeReset
  deriving DecidableEq

inductive AdminAuditTargetType where
  | message
  | user
  | report
  deriving DecidableEq

inductive DailyMetricKind where
  | messagesSentDirect
  | messagesSentGroup
  | dau
  | newUsers
  | reportsOpened
  | reportsResolved
  | usersSuspended
  deriving DecidableEq

inductive OtpStatus where
  | unused
  | used
  | expired
  deriving DecidableEq

inductive DevicePlatform where
  | android
  | ios
  | web
  | macos
  | windows
  | linux
  deriving DecidableEq

inductive PushPlatform where
  | fcm
  | apns
  | hms
  deriving DecidableEq

inductive EnvelopeStatus where
  | pending
  | delivered
  | read
  deriving DecidableEq

inductive MediaType where
  | image
  | video
  | audio
  | document
  deriving DecidableEq

inductive UploadStatus where
  | pending
  | complete
  | failed
  deriving DecidableEq

inductive MessageContentType where
  | text
  | location
  | venue
  deriving DecidableEq

inductive ThreadType where
  | direct
  | group
  deriving DecidableEq

structure User where
  id : Id
  phoneHash : String
  phoneMasked : Option String := none
  status : UserStatus := .active
  role : UserRole := .user
  strikeCount : Nat := 0
  lastStrikeAt : Option Time := none
  username : Option String := none
  profileAvatarUrl : Option String := none
  encryptedProfile : Option Ciphertext := none
  profileKeyHash : Option String := none
  deriving DecidableEq

structure Device where
  id : Id
  userId : Id
  platform : DevicePlatform
  displayName : Option String := none
  identityPublicKey : String
  pushToken : Option String := none
  pushPlatform : Option PushPlatform := none
  pushActive : Bool := false
  active : Bool := true
  lastSeenAt : Option Time := none
  createdAt : Time
  deriving DecidableEq

structure SignedPrekey where
  id : Id
  deviceId : Id
  keyId : Nat
  publicKey : String
  signature : String
  active : Bool := true
  createdAt : Time
  deriving DecidableEq

structure OneTimePrekey where
  id : Id
  deviceId : Id
  keyId : Nat
  publicKey : String
  consumedAt : Option Time := none
  createdAt : Time
  deriving DecidableEq

structure DirectThread where
  id : Id
  userAId : Id
  userBId : Id
  latestSequence : Nat := 0
  deriving DecidableEq

structure Message where
  id : Id
  threadId : Option Id := none
  groupId : Option Id := none
  senderUserId : Id
  senderDeviceId : Id
  idempotencyKey : String
  threadSequence : Nat
  contentType : MessageContentType := .text
  replyToMessageId : Option Id := none
  forwarded : Bool := false
  createdAt : Time
  deletedAt : Option Time := none
  editedAt : Option Time := none
  lastEditIdempotencyKey : Option String := none
  deriving DecidableEq

structure MessageMedia where
  id : Id
  userId : Id
  messageId : Option Id := none
  mediaType : MediaType
  bucketKey : String
  mimeType : String
  sizeBytes : Nat
  filename : String
  thumbnailBucketKey : Option String := none
  width : Option Nat := none
  height : Option Nat := none
  duration : Option Nat := none
  mediaCiphertextHash : String
  thumbnailCiphertextHash : Option String := none
  uploadStatus : UploadStatus := .pending
  uploadedAt : Option Time := none
  createdAt : Time
  deriving DecidableEq

structure MessageEnvelope where
  id : Id
  messageId : Id
  recipientUserId : Id
  recipientDeviceId : Id
  ciphertext : Ciphertext
  status : EnvelopeStatus := .pending
  deliveredAt : Option Time := none
  readAt : Option Time := none
  envelopeVersion : Nat := 1
  createdAt : Time
  updatedAt : Time
  deriving DecidableEq

structure RefreshToken where
  id : Id
  userId : Id
  tokenHash : String
  familyId : String
  expiresAt : Time
  revokedAt : Option Time := none
  userAgent : Option String := none
  ipAddress : Option String := none
  createdAt : Time
  deriving DecidableEq

structure SocketTicket where
  id : Id
  userId : Id
  deviceId : Id
  sessionId : Id
  tokenHash : String
  expiresAt : Time
  consumedAt : Option Time := none
  consumedBy : Option String := none
  createdAt : Time
  deriving DecidableEq

structure BackupBlob where
  id : Id
  userId : Id
  bucketKey : String
  sha256 : String
  sizeBytes : Nat
  version : Nat
  uploadedAt : Time
  deriving DecidableEq

structure Otp where
  id : Id
  phoneHash : String
  code : String
  status : OtpStatus := .unused
  attempts : Nat := 0
  expiresAt : Time
  createdAt : Time
  deriving DecidableEq

structure SmsReport where
  id : Id
  createdAt : Time
  deriving DecidableEq

structure TelegramLink where
  id : Id
  phoneHash : String
  chatId : Int := 0
  telegramUserId : Option Int := none
  username : Option String := none
  deriving DecidableEq

structure Group where
  id : Id
  encryptedMetadata : Ciphertext
  deriving DecidableEq

structure GroupMember where
  groupId : Id
  userId : Id
  role : String := "MEMBER"
  deriving DecidableEq

structure HiddenMessage where
  userId : Id
  messageId : Id
  deriving DecidableEq

structure UnreadCounter where
  userId : Id
  threadType : ThreadType
  threadId : Id
  count : Nat := 0
  deriving DecidableEq

structure MessageReaction where
  id : Id
  messageId : Id
  userId : Id
  emoji : String
  createdAt : Time
  deriving DecidableEq

structure Report where
  id : Id
  reporterUserId : Id
  messageId : Id
  reason : ReportReason
  freeText : Option String := none
  status : ReportStatus := .open
  resolution : Option ReportResolution := none
  reviewedByUserId : Option Id := none
  reviewedAt : Option Time := none
  createdAt : Time
  deriving DecidableEq

structure UserSuspension where
  id : Id
  userId : Id
  suspendedByUserId : Id
  reason : String
  suspendedAt : Time
  expiresAt : Option Time := none
  revokedAt : Option Time := none
  revokedByUserId : Option Id := none
  revokeReason : Option String := none
  deriving DecidableEq

/-- The `metadata` JSON of an audit row, one constructor for each shape written. -/
inductive AuditMetadata where
  | jsonNull
  | platformTombstone (reportId : Option Id)
  | cascadeTombstone (suspensionId : Id)
  | suspend (suspensionId : Id) (expiresAt : Option Time) (tombstonedMessageCount : Nat)
      (reportId : Option Id)
  | unsuspend (suspensionId : Id)
  | autoReactivation (suspensionId : Id) (expiresAt : Time)
  | groupDelete
  | strikeReset (previousCount : Nat)
  | roleChange (oldRole newRole : UserRole)
  | roleChangeBy (source operator : String) (oldRole newRole : UserRole)
  | metricsRollup (date : String) (written : Nat)
  /-- `source: 'legacy'` and `scope: 'group'`. -/
  | legacy (originalId : Id)
  deriving DecidableEq

structure AdminAuditLog where
  actorUserId : Option Id
  action : AdminAuditAction
  targetType : AdminAuditTargetType
  targetId : Id
  reason : Option String := none
  metadata : AuditMetadata
  deriving DecidableEq

structure DailyMetric where
  id : Id
  date : Time
  kind : DailyMetricKind
  dimension : Option String := none
  value : Nat
  deriving DecidableEq

structure Db where
  users : List User := []
  devices : List Device := []
  signedPrekeys : List SignedPrekey := []
  oneTimePrekeys : List OneTimePrekey := []
  directThreads : List DirectThread := []
  messages : List Message := []
  messageMedia : List MessageMedia := []
  messageEnvelopes : List MessageEnvelope := []
  refreshTokens : List RefreshToken := []
  socketTickets : List SocketTicket := []
  backupBlobs : List BackupBlob := []
  otps : List Otp := []
  smsReports : List SmsReport := []
  telegramLinks : List TelegramLink := []
  groups : List Group := []
  groupMembers : List GroupMember := []
  hiddenMessages : List HiddenMessage := []
  unreadCounters : List UnreadCounter := []
  messageReactions : List MessageReaction := []
  reports : List Report := []
  userSuspensions : List UserSuspension := []
  adminAuditLog : List AdminAuditLog := []
  dailyMetrics : List DailyMetric := []

/-- What a request can throw: the HTTP exceptions with their texts, a violated unique
index (Prisma code P2002), and any other failure of a statement or a remote call. -/
inductive Err where
  | unauthorized (message : String)
  | forbidden (message : String)
  | notFound (message : String)
  | badRequest (message : String)
  | conflict (message : String)
  | telegramLinkRequired (message : String) (telegramDeepLink : Option String)
  | accountSuspended (reason : String) (suspendedAt : Time) (expiresAt : Option Time)
      (appealUrl : Option String)
  | uniqueConstraint
  | failure (message : String)
  deriving DecidableEq

end Birgap
