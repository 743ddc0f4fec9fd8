import Birgap.Schema
import Birgap.Lib.Rows
import Birgap.Lib.Run
import Mathlib.Logic.Function.Basic

/-!
# Backups and the objects they reach

`BackupsService` over a bucket shared by all users. The statements of `putCurrent` calls
interleave freely, with uploads and deletions of any objects in between. The bucket key of
a `putCurrent` is taken from the request, so a user's backup reaches only objects issued
to that user exactly when every key whose object passes the size check was issued to the
caller.
-/
namespace Birgap.Backups

set_option autoImplicit false

open Birgap.Lib Birgap.Lib.Run

structure PutBackupDto where
  version : Nat
  bucketKey : String
  sha256 : String
  sizeBytes : Nat
  deriving DecidableEq

/-- The key `R2Service.generateUploadUrl` signs an upload for; `uuid` is the random part. -/
def uploadKey (userId : Id) (uuid : String) : String :=
  "backups/" ++ userId ++ "/" ++ uuid ++ ".bin"

/-- The sizes of the objects in the bucket. -/
abbrev Bucket := String → Option Nat

/-- `R2Service.verifyObjectExists`. -/
def verifyObjectExists (bucket : Bucket) (bucketKey : String) (expectedSize : Nat) :
    Except Err Unit :=
  match bucket bucketKey with
  | none => .error (.failure "NotFound")
  | some size =>
      if size ≠ expectedSize then
        .error (.failure ("Size mismatch: expected " ++ toString expectedSize ++ ", got " ++
          toString size))
      else .ok ()

def findBackup (userId : Id) (db : Db) : Option BackupBlob :=
  db.backupBlobs.find? (·.userId == userId)

/-- The columns an update writes. -/
def replaceBackup (dto : PutBackupDto) (b : BackupBlob) : BackupBlob :=
  { b with
    bucketKey := dto.bucketKey, sha256 := dto.sha256, sizeBytes := dto.sizeBytes
    version := dto.version }

/-- The upsert of `putCurrent`, on the unique column `userId`. -/
def upsertBackup (now : Time) (blobId userId : Id) (dto : PutBackupDto) (db : Db) : Db :=
  { db with
    backupBlobs :=
      if db.backupBlobs.any (·.userId == userId) then
        Rows.updateMany (·.userId == userId) (replaceBackup dto) db.backupBlobs
      else db.backupBlobs ++
        [{ id := blobId, userId, bucketKey := dto.bucketKey, sha256 := dto.sha256
           sizeBytes := dto.sizeBytes, version := dto.version, uploadedAt := now }] }

/-- The answer of `getCurrent`; the download URL is signed for `downloadKey`. -/
structure CurrentBackup where
  downloadKey : String
  sha256 : String
  sizeBytes : Nat
  version : Nat
  uploadedAt : Time
  deriving DecidableEq

/-- `BackupsService.getCurrent`. -/
def getCurrent (userId : Id) (db : Db) : Except Err CurrentBackup :=
  match findBackup userId db with
  | none => .error (.notFound "Backup not found")
  | some b => .ok { downloadKey := b.bucketKey, sha256 := b.sha256, sizeBytes := b.sizeBytes
                    version := b.version, uploadedAt := b.uploadedAt }

/-- A `putCurrent` call: what it has read, and whether it has verified the object and
stored the row. -/
inductive Flight where
  | idle
  | read (userId : Id) (dto : PutBackupDto) (existing : Option String)
  | verified (userId : Id) (dto : PutBackupDto) (existing : Option String)
  | stored (userId : Id) (dto : PutBackupDto) (existing : Option String)
  deriving DecidableEq

/-- The store, the bucket, the keys issued to each user, and the keys each user's
`putCurrent` calls have put on the cleanup queue. -/
structure State where
  db : Db
  bucket : Bucket
  issued : List (Id × String)
  cleanup : List (Id × String)
  flights : Nat → Flight

/-- One statement of a call, one execution of a cleanup job, or an upload or a deletion of
any object by somebody else. -/
inductive Act where
  | getUploadUrl (userId : Id) (uuid : String)
  | putRead (pid : Nat) (userId : Id) (dto : PutBackupDto)
  | putVerify (pid : Nat)
  | putUpsert (pid : Nat) (now : Time) (blobId : Id)
  | putEnqueue (pid : Nat)
  | fail (pid : Nat)
  | runCleanup (userId : Id) (bucketKey : String)
  | upload (bucketKey : String) (size : Nat)
  | remove (bucketKey : String)

def State.set (s : State) (pid : Nat) (f : Flight) : State :=
  { s with flights := Function.update s.flights pid f }

def step (s : State) : Act → State
  | .getUploadUrl userId uuid => { s with issued := s.issued ++ [(userId, uploadKey userId uuid)] }
  | .putRead pid userId dto =>
      match s.flights pid with
      | .idle => s.set pid (.read userId dto ((findBackup userId s.db).map (·.bucketKey)))
      | _ => s
  | .putVerify pid =>
      match s.flights pid with
      | .read userId dto existing =>
          match verifyObjectExists s.bucket dto.bucketKey dto.sizeBytes with
          | .ok () => s.set pid (.verified userId dto existing)
          | .error _ => s.set pid .idle
      | _ => s
  | .putUpsert pid now blobId =>
      match s.flights pid with
      | .verified userId dto existing =>
          { s.set pid (.stored userId dto existing) with
            db := upsertBackup now blobId userId dto s.db }
      | _ => s
  | .putEnqueue pid =>
      match s.flights pid with
      | .stored userId dto (some key) =>
          if key ≠ dto.bucketKey then
            { s.set pid .idle with cleanup := s.cleanup ++ [(userId, key)] }
          else s.set pid .idle
      | .stored _ _ none => s.set pid .idle
      | _ => s
  | .fail pid => s.set pid .idle
  | .runCleanup userId key =>
      if (userId, key) ∈ s.cleanup then { s with bucket := Function.update s.bucket key none } else s
  | .upload key size => { s with bucket := Function.update s.bucket key (some size) }
  | .remove key => { s with bucket := Function.update s.bucket key none }

/-- No backup stored, nothing issued, any objects in the bucket. -/
def start (db : Db) (bucket : Bucket) : State :=
  { db := { db with backupBlobs := [] }, bucket, issued := [], cleanup := [], flights := fun _ => .idle }

/-- A download URL goes only to a key issued to the caller, and a caller's `putCurrent`
puts only such keys on the cleanup queue. -/
def Confined (s : State) : Prop :=
  (∀ userId answer, getCurrent userId s.db = .ok answer → (userId, answer.downloadKey) ∈ s.issued) ∧
  ∀ entry ∈ s.cleanup, entry ∈ s.issued

/-- The row of a verified `putCurrent` names a key issued to its caller. -/
def IssuedKeyOnly (s : State) : Act → Prop
  | .putUpsert pid _ _ =>
      match s.flights pid with
      | .verified userId dto _ => (userId, dto.bucketKey) ∈ s.issued
      | _ => True
  | _ => True

/-- The old key a call has read and may put on the cleanup queue. -/
def Flight.existing : Flight → Option (Id × String)
  | .idle => none
  | .read userId _ existing => existing.map fun key => (userId, key)
  | .verified userId _ existing => existing.map fun key => (userId, key)
  | .stored userId _ existing => existing.map fun key => (userId, key)

/-- Rows, queued keys and keys read by calls in flight were issued to their user. -/
structure Owned (s : State) : Prop where
  rows : ∀ b ∈ s.db.backupBlobs, (b.userId, b.bucketKey) ∈ s.issued
  cleanup : ∀ entry ∈ s.cleanup, entry ∈ s.issued
  flights : ∀ pid, ∀ entry ∈ (s.flights pid).existing, entry ∈ s.issued

theorem start_owned (db : Db) (bucket : Bucket) : Owned (start db bucket) := by
  constructor
  · intro b h
    cases h
  · intro entry h
    cases h
  · intro pid entry h
    cases h

theorem Owned.confined {s : State} (h : Owned s) : Confined s := by
  refine ⟨?_, h.cleanup⟩
  intro userId answer ha
  unfold getCurrent at ha
  split at ha
  · cases ha
  · rename_i b hb
    obtain rfl := Except.ok.inj ha
    have hid : b.userId = userId := by simpa using List.find?_some hb
    rw [← hid]
    exact h.rows b (List.mem_of_find?_eq_some hb)

theorem Owned.set {s : State} (h : Owned s) (pid : Nat) {f : Flight}
    (hf : ∀ entry ∈ f.existing, entry ∈ s.issued) : Owned (s.set pid f) := by
  refine ⟨h.rows, h.cleanup, ?_⟩
  exact (Function.forall_update_iff s.flights fun _ f =>
    ∀ entry ∈ f.existing, entry ∈ s.issued).mpr ⟨hf, fun q _ => h.flights q⟩

/-- The stored row of the caller names the key of the request. -/
theorem mem_upsertBackup {now : Time} {blobId userId : Id} {dto : PutBackupDto} {db : Db}
    {b : BackupBlob} (h : b ∈ (upsertBackup now blobId userId dto db).backupBlobs) :
    (b.userId = userId ∧ b.bucketKey = dto.bucketKey) ∨ b ∈ db.backupBlobs := by
  simp only [upsertBackup] at h
  split at h
  · obtain ⟨b₀, hb₀, rfl⟩ := Rows.mem_updateMany.mp h
    split
    · rename_i hid
      have hid' : b₀.userId = userId := by simpa using hid
      exact Or.inl ⟨hid', rfl⟩
    · exact Or.inr hb₀
  · rcases List.mem_append.mp h with hb | hb
    · exact Or.inr hb
    · rw [List.mem_singleton.mp hb]
      exact Or.inl ⟨rfl, rfl⟩

/-- After the upsert the caller's row names the key of the request. -/
theorem findBackup_upsertBackup (now : Time) (blobId userId : Id) (dto : PutBackupDto) (db : Db) :
    ∃ b, findBackup userId (upsertBackup now blobId userId dto db) = some b ∧
      b.bucketKey = dto.bucketKey := by
  simp only [findBackup, upsertBackup]
  split
  · rename_i hany
    obtain ⟨b₀, hb₀, hid₀⟩ := List.any_eq_true.mp hany
    cases hf : db.backupBlobs.find? (·.userId == userId) with
    | none => exact absurd hid₀ (List.find?_eq_none.mp hf b₀ hb₀)
    | some b =>
        rw [Rows.find?_updateMany (f := replaceBackup dto) (fun _ => rfl), hf, Option.map_some,
          if_pos (List.find?_some hf)]
        exact ⟨_, rfl, rfl⟩
  · rename_i hnone
    have hf : db.backupBlobs.find? (·.userId == userId) = none := by
      rw [List.find?_eq_none]
      intro b hb hid
      exact hnone (List.any_eq_true.mpr ⟨b, hb, hid⟩)
    rw [List.find?_append, hf, Option.none_or]
    simp

theorem getCurrent_upsertBackup (now : Time) (blobId userId : Id) (dto : PutBackupDto) (db : Db) :
    ∃ answer, getCurrent userId (upsertBackup now blobId userId dto db) = .ok answer ∧
      answer.downloadKey = dto.bucketKey := by
  obtain ⟨b, hb, hkey⟩ := findBackup_upsertBackup now blobId userId dto db
  unfold getCurrent
  rw [hb]
  exact ⟨_, rfl, hkey⟩

/-- The key a call finds stored was issued to its user. -/
theorem Owned.findBackup {s : State} (h : Owned s) (userId : Id) {entry : Id × String}
    (he : entry ∈ ((Backups.findBackup userId s.db).map (·.bucketKey)).map fun key => (userId, key)) :
    entry ∈ s.issued := by
  cases hb : Backups.findBackup userId s.db with
  | none =>
      rw [hb] at he
      cases he
  | some b =>
      rw [hb] at he
      obtain rfl := Option.mem_some.mp he
      have hid : b.userId = userId := by simpa using List.find?_some hb
      rw [← hid]
      exact h.rows b (List.mem_of_find?_eq_some hb)

theorem step_owned (s : State) (a : Act) (h : Owned s) (hc : IssuedKeyOnly s a) :
    Owned (step s a) := by
  cases a with
  | getUploadUrl userId uuid =>
      refine ⟨?_, ?_, ?_⟩
      · intro b hb
        exact List.mem_append_left _ (h.rows b hb)
      · intro entry he
        exact List.mem_append_left _ (h.cleanup entry he)
      · intro pid entry he
        exact List.mem_append_left _ (h.flights pid entry he)
  | putRead pid userId dto =>
      simp only [step]
      split
      · exact h.set pid fun entry he => h.findBackup userId he
      · exact h
  | putVerify pid =>
      simp only [step]
      split
      · rename_i userId dto existing hp
        have hf := h.flights pid
        rw [hp] at hf
        split
        · exact h.set pid hf
        · exact h.set pid fun entry he => by cases he
      · exact h
  | putUpsert pid now blobId =>
      simp only [step]
      split
      · rename_i userId dto existing hp
        simp only [IssuedKeyOnly, hp] at hc
        have hf := h.flights pid
        rw [hp] at hf
        have hset := h.set pid (f := .stored userId dto existing) hf
        refine ⟨?_, h.cleanup, hset.flights⟩
        intro b hb
        rcases mem_upsertBackup hb with ⟨hid, hkey⟩ | hb
        · rw [hid, hkey]
          exact hc
        · exact h.rows b hb
      · exact h
  | putEnqueue pid =>
      have hidle := h.set pid (f := .idle) fun entry he => by cases he
      simp only [step]
      split
      · rename_i userId dto key hp
        have hf := h.flights pid
        rw [hp] at hf
        split
        · refine ⟨h.rows, ?_, hidle.flights⟩
          intro entry he
          rcases List.mem_append.mp he with he | he
          · exact h.cleanup entry he
          · rw [List.mem_singleton.mp he]
            exact hf _ rfl
        · exact hidle
      · exact hidle
      · exact h
  | fail pid => exact h.set pid fun entry he => by cases he
  | runCleanup userId key =>
      simp only [step]
      split <;> exact ⟨h.rows, h.cleanup, h.flights⟩
  | upload key size => exact ⟨h.rows, h.cleanup, h.flights⟩
  | remove key => exact ⟨h.rows, h.cleanup, h.flights⟩

/-- A row stored under a foreign key is handed out at once. -/
theorem issuedKeyOnly_of_confined (s : State) (a : Act) (h : Confined (step s a)) :
    IssuedKeyOnly s a := by
  cases a with
  | putUpsert pid now blobId =>
      simp only [IssuedKeyOnly]
      split
      · rename_i userId dto existing hp
        simp only [step, hp] at h
        obtain ⟨answer, ha, hkey⟩ := getCurrent_upsertBackup now blobId userId dto s.db
        rw [← hkey]
        exact h.1 userId answer ha
      · trivial
  | getUploadUrl userId uuid => trivial
  | putRead pid userId dto => trivial
  | putVerify pid => trivial
  | putEnqueue pid => trivial
  | fail pid => trivial
  | runCleanup userId key => trivial
  | upload key size => trivial
  | remove key => trivial

/-- Over every run against every bucket: downloads and queued deletions stay with the keys
issued to their user if and only if every `putCurrent` that gets past the object check
names a key issued to its caller. -/
theorem backups_confined_iff (db : Db) (bucket : Bucket) (acts : List Act) :
    Always step Confined (start db bucket) acts ↔
      Along step IssuedKeyOnly (start db bucket) acts := by
  constructor
  · exact along_of_always issuedKeyOnly_of_confined
  · intro h
    exact (always_of_along step_owned acts _ (start_owned db bucket) h).mono fun _ => Owned.confined

/-- Mallory registers the object of Alice's backup as her own, then replaces it. -/
def stolenBackup : List Act :=
  [.getUploadUrl "alice" "u1", .upload "backups/alice/u1.bin" 100,
   .putRead 0 "mallory"
     { version := 1, bucketKey := "backups/alice/u1.bin", sha256 := "0123456789abcdef"
       sizeBytes := 100 },
   .putVerify 0, .putUpsert 0 10 "b1", .putEnqueue 0,
   .getUploadUrl "mallory" "u2", .upload "backups/mallory/u2.bin" 5,
   .putRead 1 "mallory"
     { version := 2, bucketKey := "backups/mallory/u2.bin", sha256 := "0123456789abcdef"
       sizeBytes := 5 },
   .putVerify 1, .putUpsert 1 20 "b2", .putEnqueue 1]

/-- She gets a download URL for Alice's object, and its deletion is queued. -/
theorem stolen_backup_not_confined :
    ((getCurrent "mallory" (run step (start {} fun _ => none) (stolenBackup.take 6)).db).map
      (·.downloadKey)).toOption = some "backups/alice/u1.bin" ∧
    (run step (start {} fun _ => none) stolenBackup).cleanup =
      [("mallory", "backups/alice/u1.bin")] ∧
    ¬ Always step Confined (start {} fun _ => none) stolenBackup := by
  have hclean : (run step (start {} fun _ => none) stolenBackup).cleanup =
      [("mallory", "backups/alice/u1.bin")] := by decide
  refine ⟨by decide, hclean, ?_⟩
  intro h
  have hlast := (h stolenBackup (List.prefix_refl _)).2 ("mallory", "backups/alice/u1.bin")
  rw [hclean] at hlast
  exact absurd (hlast (List.mem_singleton_self _)) (by decide)

end Birgap.Backups
