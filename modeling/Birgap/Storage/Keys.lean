import Birgap.Backups.Current
import Birgap.Common.Uuid
import Birgap.Messages.Media

/-!
# Storage keys and their owners

`R2Service` writes the id of the caller into every key it issues, between two slashes.
`StorageController` later finds the owner of an object by splitting its key again. The
text a client chooses ends up behind the last slash, cleaned of everything but letters and
digits, so a key it was issued names nobody else.
-/
namespace Birgap.Storage

set_option autoImplicit false

open Birgap.Lib.Tx (bind_ok)
open Birgap.Common (Uuid)
open Birgap.Messages (PresignedUpload)

inductive Purpose where
  | avatar
  | media
  deriving DecidableEq

/-- What a call of `R2Service` throws: an exception of its own, an `Error` of the client
it uses, or a value that is not an `Error`. -/
inductive Thrown where
  | badRequest (message : String)
  | error (message : String)
  | value

/-- The message a `catch` clause of the controller answers with. -/
def Thrown.message (fallback : String) : Thrown → String
  | .badRequest message => message
  | .error message => message
  | .value => fallback

def mediaTypeText : MediaType → String
  | .image => "IMAGE"
  | .video => "VIDEO"
  | .audio => "AUDIO"
  | .document => "DOCUMENT"

def allowedMediaMime : MediaType → List String
  | .image => ["image/jpeg", "image/png", "image/webp", "image/gif"]
  | .video => ["video/mp4", "video/quicktime"]
  | .audio => ["audio/mpeg", "audio/ogg", "audio/aac", "audio/mp4"]
  | .document => ["application/pdf", "text/plain"]

def allowedAvatarMime : List String := ["image/jpeg", "image/png", "image/webp", "image/gif"]

/-- `String.prototype.split` by one character. -/
def split (s : String) (separator : Char) : List String :=
  (s.toList.splitOn separator).map String.ofList

def startsWith (s start : String) : Bool := start.toList.isPrefixOf s.toList

/-- The characters `/[^a-zA-Z0-9]/g` keeps. -/
def keptChar (c : Char) : Bool :=
  decide ('a' ≤ c ∧ c ≤ 'z') || decide ('A' ≤ c ∧ c ≤ 'Z') || decide ('0' ≤ c ∧ c ≤ '9')

/-- The part of a filename behind its last dot, cleaned. -/
def cleanExtension (filename : String) : String :=
  String.ofList ((((split filename '.').getLast?).getD "bin").toList.filter keptChar)

def folder : Purpose → String
  | .avatar => "avatars"
  | .media => "media"

/-- The key `generatePresignedUploadUrl` signs an upload for. -/
def presignedKey (uuid : Uuid) (userId filename : String) (purpose : Purpose) : String :=
  folder purpose ++ "/" ++ userId ++ "/" ++ (uuid.text ++ "." ++ cleanExtension filename)

section Issuing

-- a JavaScript number: the code only compares it and prints it
variable {Number : Type} [LT Number] [DecidableLT Number] [NatCast Number] [ToString Number]

/-- `R2Service.generateUploadUrl`; `getSignedUrl` signs a key for a size. -/
def generateUploadUrl (getSignedUrl : String → Number → Except Thrown String) (uuid : Uuid)
    (userId : Id) (sizeBytes : Number) : Except Thrown PresignedUpload := do
  let bucketKey := Backups.uploadKey userId uuid.text
  let uploadUrl ← getSignedUrl bucketKey sizeBytes
  pure { uploadUrl, bucketKey }

/-- The limit on the size of an upload. -/
def checkSize (sizeBytes : Number) : Purpose → Except Thrown Unit
  | .avatar =>
      if ((5 * 1024 * 1024 : Nat) : Number) < sizeBytes then
        .error (.badRequest ("Avatar size exceeds limit of 5MB: got " ++ toString sizeBytes ++
          " bytes"))
      else .ok ()
  | .media =>
      if ((100 * 1024 * 1024 : Nat) : Number) < sizeBytes then
        .error (.badRequest ("Media size exceeds limit of 100MB: got " ++ toString sizeBytes ++
          " bytes"))
      else .ok ()

/-- The MIME types an upload may have. -/
def checkMime (mimeType : String) (mediaType : Option MediaType) : Purpose → Except Thrown Unit
  | .avatar =>
      if allowedAvatarMime.contains mimeType then .ok ()
      else .error (.badRequest ("Invalid avatar mime type: " ++ mimeType ++
        ". Only jpeg, png, webp, and gif are allowed."))
  | .media =>
      match mediaType with
      | none => .error (.badRequest "mediaType is required for media uploads")
      | some t =>
          if (allowedMediaMime t).contains mimeType then .ok ()
          else .error (.badRequest ("Invalid mime type for " ++ mediaTypeText t ++ ": " ++
            mimeType ++ ". Allowed: " ++ ", ".intercalate (allowedMediaMime t)))

/-- `R2Service.generatePresignedUploadUrl`; `getSignedUrl` signs a key for a size and a MIME
type. -/
def generatePresignedUploadUrl (getSignedUrl : String → Number → String → Except Thrown String)
    (uuid : Uuid) (userId : Id) (filename mimeType : String) (sizeBytes : Number)
    (purpose : Purpose) (mediaType : Option MediaType) : Except Thrown PresignedUpload := do
  checkSize sizeBytes purpose
  checkMime mimeType mediaType purpose
  let bucketKey := presignedKey uuid userId filename purpose
  let uploadUrl ← getSignedUrl bucketKey sizeBytes mimeType
  pure { uploadUrl, bucketKey }

end Issuing

/-- The `try` of a controller method around its call of `R2Service`. -/
def tried {α : Type} (fallback : String) : Except Thrown α → Except Err α
  | .ok a => .ok a
  | .error thrown => .error (.badRequest (thrown.message fallback))

structure PresignedUploadDto (Number : Type) where
  filename : String
  mimeType : String
  sizeBytes : Number
  purpose : Purpose

/-- `StorageController.getPresignedUploadUrl`, which passes no media type on. -/
def getPresignedUploadUrl {Number : Type} [LT Number] [DecidableLT Number] [NatCast Number]
    [ToString Number] (getSignedUrl : String → Number → String → Except Thrown String)
    (uuid : Uuid) (userId : Id) (dto : PresignedUploadDto Number) : Except Err PresignedUpload :=
  tried "Failed to generate presigned upload URL"
    (generatePresignedUploadUrl getSignedUrl uuid userId dto.filename dto.mimeType dto.sizeBytes
      dto.purpose none)

/-- `StorageController.getDownloadUrl`: an avatar is for everybody, a media file for its
owner. -/
def getDownloadUrl (generateDownloadUrl : String → Except Thrown String) (userId : Id)
    (bucketKey : String) : Except Err String :=
  if bucketKey = "" then .error (.badRequest "bucketKey is required")
  else if !startsWith bucketKey "avatars/" && !startsWith bucketKey "media/" then
    .error (.forbidden "Access denied")
  else if startsWith bucketKey "media/" && (split bucketKey '/')[1]? != some userId then
    .error (.forbidden "Access denied")
  else tried "Failed to generate download URL" (generateDownloadUrl bucketKey)

/-- `StorageController.deleteObject`; `r2Delete` is the call of `R2Service`. -/
def deleteObject (r2Delete : String → Except Thrown Unit) (userId : Id) (bucketKey : String) :
    Except Err Unit :=
  if bucketKey = "" then .error (.badRequest "bucketKey is required")
  else if !startsWith bucketKey "avatars/" && !startsWith bucketKey "media/" then
    .error (.forbidden "Access denied")
  else if (split bucketKey '/')[1]? != some userId then .error (.forbidden "Access denied")
  else tried "Failed to delete object" (r2Delete bucketKey)

/-! ## Splitting a key -/

/-- Three parts without a slash are what a key of them is split into. -/
theorem split_join {a b c : String} (ha : '/' ∉ a.toList) (hb : '/' ∉ b.toList)
    (hc : '/' ∉ c.toList) : split (a ++ "/" ++ b ++ "/" ++ c) '/' = [a, b, c] := by
  have hchars : (a ++ "/" ++ b ++ "/" ++ c).toList =
      a.toList ++ '/' :: (b.toList ++ '/' :: c.toList) := by
    simp only [String.toList_append, List.append_assoc]
    rfl
  unfold split
  rw [hchars, List.splitOn_append_cons_self_of_not_mem ha,
    List.splitOn_append_cons_self_of_not_mem hb, List.splitOn_eq_singleton hc]
  simp only [List.map_cons, List.map_nil, String.ofList_toList]

/-- A key that starts with a folder and has `part` as its second segment goes on with `part`
up to its next slash or its end. -/
theorem startsWith_second {key dir part : String} (hdir : '/' ∉ dir.toList)
    (hstart : startsWith key (dir ++ "/") = true) (hsecond : (split key '/')[1]? = some part) :
    key = dir ++ "/" ++ part ∨ ∃ rest, key = dir ++ "/" ++ part ++ "/" ++ rest := by
  obtain ⟨tail, htail⟩ := List.isPrefixOf_iff_prefix.mp hstart
  have hkey : key.toList = dir.toList ++ '/' :: tail := by
    rw [← htail, String.toList_append, List.append_assoc]
    rfl
  unfold split at hsecond
  rw [hkey, List.splitOn_append_cons_self_of_not_mem hdir] at hsecond
  -- `part` is the first piece of what stands behind the folder
  have hjoin : ['/'].intercalate (tail.splitOn '/') = tail := List.intercalate_splitOn '/'
  cases hpieces : tail.splitOn '/' with
  | nil => exact absurd hpieces (List.splitOn_ne_nil '/' tail)
  | cons piece pieces =>
      rw [hpieces] at hsecond hjoin
      have hpart : part.toList = piece := by
        obtain rfl : String.ofList piece = part := by simpa using hsecond
        exact String.toList_ofList
      cases pieces with
      | nil =>
          have htail' : tail = part.toList := by
            rw [hpart, ← hjoin, List.intercalate_singleton]
          left
          apply String.toList_inj.mp
          rw [hkey, htail', String.toList_append, String.toList_append, List.append_assoc]
          rfl
      | cons next others =>
          have htail' : tail = part.toList ++ '/' :: ['/'].intercalate (next :: others) := by
            rw [hpart, ← hjoin, List.intercalate_cons_cons, List.append_assoc]
            rfl
          right
          refine ⟨String.ofList (['/'].intercalate (next :: others)), ?_⟩
          apply String.toList_inj.mp
          rw [hkey, htail']
          simp only [String.toList_append, String.toList_ofList, List.append_assoc]
          rfl

theorem slash_not_mem_folder (purpose : Purpose) : '/' ∉ (folder purpose).toList := by
  cases purpose <;> decide

/-- Whatever the filename, the last part of a key is one segment. -/
theorem slash_not_mem_name (uuid : Uuid) (filename : String) :
    '/' ∉ (uuid.text ++ "." ++ cleanExtension filename).toList := by
  intro h
  rw [String.toList_append, String.toList_append, List.mem_append, List.mem_append] at h
  rcases h with (huuid | hdot) | hclean
  · exact uuid.not_mem (by decide) huuid
  · exact absurd hdot (by decide)
  · rw [cleanExtension, String.toList_ofList] at hclean
    have hkept := (List.mem_filter.mp hclean).2
    exact absurd hkept (by decide)

theorem split_presignedKey (uuid : Uuid) {userId : Id} (huser : '/' ∉ userId.toList)
    (filename : String) (purpose : Purpose) :
    split (presignedKey uuid userId filename purpose) '/' =
      [folder purpose, userId, uuid.text ++ "." ++ cleanExtension filename] :=
  split_join (slash_not_mem_folder purpose) huser (slash_not_mem_name uuid filename)

theorem startsWith_append (start rest : String) : startsWith (start ++ rest) start = true := by
  unfold startsWith
  rw [List.isPrefixOf_iff_prefix, String.toList_append]
  exact List.prefix_append _ _

theorem startsWith_presignedKey (uuid : Uuid) (userId : Id) (filename : String)
    (purpose : Purpose) :
    startsWith (presignedKey uuid userId filename purpose) (folder purpose ++ "/") = true := by
  unfold presignedKey
  rw [String.append_assoc, String.append_assoc]
  exact startsWith_append _ _

/-! ## What the controller lets through -/

theorem presignedKey_folder (uuid : Uuid) (userId : Id) (filename : String) (purpose : Purpose) :
    (!startsWith (presignedKey uuid userId filename purpose) "avatars/" &&
      !startsWith (presignedKey uuid userId filename purpose) "media/") = false := by
  have hstart := startsWith_presignedKey uuid userId filename purpose
  cases purpose with
  | avatar =>
      rw [show startsWith _ "avatars/" = true from hstart]
      rfl
  | media =>
      rw [show startsWith _ "media/" = true from hstart, Bool.not_true, Bool.and_false]

theorem presignedKey_ne_empty (uuid : Uuid) (userId : Id) (filename : String)
    (purpose : Purpose) : presignedKey uuid userId filename purpose ≠ "" := by
  intro h
  have hstart := startsWith_presignedKey uuid userId filename purpose
  rw [h] at hstart
  cases purpose <;> exact absurd hstart (by decide)

/-- The object of an issued key is deleted for its owner and for nobody else. -/
theorem deleteObject_presignedKey (r2Delete : String → Except Thrown Unit) (uuid : Uuid)
    {owner : Id} (howner : '/' ∉ owner.toList) (userId : Id) (filename : String)
    (purpose : Purpose) :
    deleteObject r2Delete userId (presignedKey uuid owner filename purpose) =
      if owner = userId then
        tried "Failed to delete object" (r2Delete (presignedKey uuid owner filename purpose))
      else .error (.forbidden "Access denied") := by
  unfold deleteObject
  rw [if_neg (presignedKey_ne_empty uuid owner filename purpose), presignedKey_folder,
    split_presignedKey uuid howner]
  by_cases h : owner = userId
  · simp [h]
  · simp [h]

/-- A media file is downloaded by its owner and by nobody else. -/
theorem getDownloadUrl_presignedKey (generateDownloadUrl : String → Except Thrown String)
    (uuid : Uuid) {owner : Id} (howner : '/' ∉ owner.toList) (userId : Id) (filename : String) :
    getDownloadUrl generateDownloadUrl userId (presignedKey uuid owner filename .media) =
      if owner = userId then
        tried "Failed to generate download URL"
          (generateDownloadUrl (presignedKey uuid owner filename .media))
      else .error (.forbidden "Access denied") := by
  have hmedia : startsWith (presignedKey uuid owner filename .media) "media/" = true :=
    startsWith_presignedKey uuid owner filename .media
  unfold getDownloadUrl
  rw [if_neg (presignedKey_ne_empty uuid owner filename .media), presignedKey_folder,
    split_presignedKey uuid howner, hmedia]
  by_cases h : owner = userId
  · simp [h]
  · simp [h]

/-- What a key looks like that `deleteObject` lets through. -/
theorem deleteObject_ok {r2Delete : String → Except Thrown Unit} {userId : Id}
    {bucketKey : String} (h : deleteObject r2Delete userId bucketKey = .ok ()) :
    (startsWith bucketKey "avatars/" = true ∨ startsWith bucketKey "media/" = true) ∧
      (split bucketKey '/')[1]? = some userId := by
  unfold deleteObject at h
  split at h
  · cases h
  split at h
  · cases h
  rename_i hfolder
  split at h
  · cases h
  rename_i howner
  refine ⟨?_, by simpa using howner⟩
  cases havatars : startsWith bucketKey "avatars/" with
  | true => exact .inl rfl
  | false =>
      cases hmedia : startsWith bucketKey "media/" with
      | true => exact .inr rfl
      | false =>
          rw [havatars, hmedia] at hfolder
          exact absurd rfl hfolder

/-- A backup is deleted through the storage routes by nobody, its owner included. -/
theorem deleteObject_uploadKey (r2Delete : String → Except Thrown Unit) (userId owner : Id)
    (uuid : String) :
    deleteObject r2Delete userId (Backups.uploadKey owner uuid) =
      .error (.forbidden "Access denied") := by
  have hchars : (Backups.uploadKey owner uuid).toList =
      'b' :: ("ackups/".toList ++ (owner ++ "/" ++ uuid ++ ".bin").toList) := by
    simp only [Backups.uploadKey, String.toList_append, List.append_assoc]
    rfl
  have hne : Backups.uploadKey owner uuid ≠ "" := by
    intro h
    rw [h] at hchars
    cases hchars
  have havatars : startsWith (Backups.uploadKey owner uuid) "avatars/" = false := by
    unfold startsWith
    rw [hchars]
    rfl
  have hmedia : startsWith (Backups.uploadKey owner uuid) "media/" = false := by
    unfold startsWith
    rw [hchars]
    rfl
  unfold deleteObject
  rw [if_neg hne, havatars, hmedia]
  rfl

theorem generateUploadUrl_ok {Number : Type}
    {getSignedUrl : String → Number → Except Thrown String} {uuid : Uuid} {userId : Id}
    {sizeBytes : Number} {issued : PresignedUpload}
    (h : generateUploadUrl getSignedUrl uuid userId sizeBytes = .ok issued) :
    issued.bucketKey = Backups.uploadKey userId uuid.text := by
  unfold generateUploadUrl at h
  obtain ⟨url, -, h⟩ := bind_ok.mp h
  cases h
  rfl

section Issued

variable {Number : Type} [LT Number] [DecidableLT Number] [NatCast Number] [ToString Number]

/-- The key of an issued upload. -/
theorem generatePresignedUploadUrl_ok
    {getSignedUrl : String → Number → String → Except Thrown String} {uuid : Uuid} {userId : Id}
    {filename mimeType : String} {sizeBytes : Number} {purpose : Purpose}
    {mediaType : Option MediaType} {issued : PresignedUpload}
    (h : generatePresignedUploadUrl getSignedUrl uuid userId filename mimeType sizeBytes purpose
      mediaType = .ok issued) :
    issued.bucketKey = presignedKey uuid userId filename purpose := by
  unfold generatePresignedUploadUrl at h
  obtain ⟨-, -, h⟩ := bind_ok.mp h
  obtain ⟨-, -, h⟩ := bind_ok.mp h
  obtain ⟨url, -, h⟩ := bind_ok.mp h
  cases h
  rfl

/-- The route of the storage controller issues no key for a media file: it has no media type
to pass on. -/
theorem getPresignedUploadUrl_media
    (getSignedUrl : String → Number → String → Except Thrown String) (uuid : Uuid) (userId : Id)
    {dto : PresignedUploadDto Number} (hmedia : dto.purpose = .media) :
    ∃ message, getPresignedUploadUrl getSignedUrl uuid userId dto =
      .error (.badRequest message) := by
  unfold getPresignedUploadUrl generatePresignedUploadUrl
  rw [hmedia]
  cases checkSize dto.sizeBytes .media with
  | error thrown => exact ⟨thrown.message _, rfl⟩
  | ok _ => exact ⟨"mediaType is required for media uploads", rfl⟩

/-- A key issued to a user has three segments, the second of them the user's id; its object
is deleted for that user and refused to any other, before anything is asked of the bucket, and
so is the download of a media file. Every key whose object a user may delete carries that
user's id behind the folder, so keys of others and of backups are refused. -/
theorem keys_belong (getSignedUrl : String → Number → String → Except Thrown String)
    (getBackupUrl : String → Number → Except Thrown String) {u v : Id} (huv : u ≠ v)
    (hu : '/' ∉ u.toList) (hv : '/' ∉ v.toList) :
    (∀ uuid filename mimeType sizeBytes purpose mediaType issued,
      generatePresignedUploadUrl getSignedUrl uuid u filename mimeType sizeBytes purpose
        mediaType = .ok issued →
      (∃ dir name, split issued.bucketKey '/' = [dir, u, name]) ∧
      (∀ r2Delete, deleteObject r2Delete u issued.bucketKey =
        tried "Failed to delete object" (r2Delete issued.bucketKey)) ∧
      (∀ r2Delete, deleteObject r2Delete v issued.bucketKey =
        .error (.forbidden "Access denied")) ∧
      (purpose = .media →
        (∀ generateDownloadUrl, getDownloadUrl generateDownloadUrl u issued.bucketKey =
          tried "Failed to generate download URL" (generateDownloadUrl issued.bucketKey)) ∧
        ∀ generateDownloadUrl, getDownloadUrl generateDownloadUrl v issued.bucketKey =
          .error (.forbidden "Access denied"))) ∧
    (∀ r2Delete bucketKey, deleteObject r2Delete u bucketKey = .ok () →
      ∃ start, (start = "avatars/" ++ u ∨ start = "media/" ++ u) ∧
        (bucketKey = start ∨ ∃ rest, bucketKey = start ++ "/" ++ rest)) ∧
    (∀ uuid filename mimeType sizeBytes purpose mediaType issued,
      generatePresignedUploadUrl getSignedUrl uuid v filename mimeType sizeBytes purpose
        mediaType = .ok issued →
      ∀ r2Delete, deleteObject r2Delete u issued.bucketKey =
        .error (.forbidden "Access denied")) ∧
    ∀ uuid owner sizeBytes issued,
      generateUploadUrl getBackupUrl uuid owner sizeBytes = .ok issued →
      ∀ r2Delete, deleteObject r2Delete u issued.bucketKey =
        .error (.forbidden "Access denied") := by
  refine ⟨?_, ?_, ?_, ?_⟩
  · intro uuid filename mimeType sizeBytes purpose mediaType issued h
    rw [generatePresignedUploadUrl_ok h]
    refine ⟨⟨_, _, split_presignedKey uuid hu filename purpose⟩, ?_, ?_, ?_⟩
    · intro r2Delete
      rw [deleteObject_presignedKey r2Delete uuid hu, if_pos rfl]
    · intro r2Delete
      rw [deleteObject_presignedKey r2Delete uuid hu, if_neg huv]
    · intro hmedia
      subst hmedia
      refine ⟨?_, ?_⟩
      · intro generateDownloadUrl
        rw [getDownloadUrl_presignedKey generateDownloadUrl uuid hu, if_pos rfl]
      · intro generateDownloadUrl
        rw [getDownloadUrl_presignedKey generateDownloadUrl uuid hu, if_neg huv]
  · intro r2Delete bucketKey h
    obtain ⟨hfolder, howner⟩ := deleteObject_ok h
    rcases hfolder with havatars | hmedia
    · have hkey := startsWith_second (slash_not_mem_folder .avatar) havatars howner
      exact ⟨"avatars/" ++ u, .inl rfl, hkey⟩
    · have hkey := startsWith_second (slash_not_mem_folder .media) hmedia howner
      exact ⟨"media/" ++ u, .inr rfl, hkey⟩
  · intro uuid filename mimeType sizeBytes purpose mediaType issued h r2Delete
    rw [generatePresignedUploadUrl_ok h, deleteObject_presignedKey r2Delete uuid hv,
      if_neg (Ne.symm huv)]
  · intro uuid owner sizeBytes issued h r2Delete
    rw [generateUploadUrl_ok h]
    exact deleteObject_uploadKey r2Delete u owner uuid.text

end Issued

def sampleUuid : Uuid :=
  { text := "0b9f6a52-5c1e-4d7b-9a63-2f1e8c7d4b05", length_eq := by decide, chars := by decide }

/-- A media file with a path for a name, issued to one user. -/
theorem keys_belong_sample :
    deleteObject (fun _ => .ok ()) "bob"
        ("media/alice/" ++ sampleUuid.text ++ ".bobscanpdf") =
      .error (.forbidden "Access denied") :=
  ((keys_belong (fun _ (_ : Nat) _ => .ok "https://bucket") (fun _ _ => .ok "https://bucket")
    (show ("alice" : Id) ≠ "bob" by decide) (by decide) (by decide)).1 sampleUuid
    "report./bob/scan pdf" "application/pdf" 2048 .media (some .document) _ rfl).2.2.1 _

end Birgap.Storage
