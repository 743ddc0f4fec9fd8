import Birgap.Backups.Current

/-!
# The object behind the current backup

`putCurrent` queues the deletion of the object it read before its upsert, and the cleanup
worker deletes whatever a job names when it gets to it. Nothing cancels a job whose key
becomes current again, and nothing looks at the row when the job is queued. The calls are
those of one user, their statements and the worker interleave freely, and the client only
ever uploads objects.
-/
namespace Birgap.Backups.Retention

set_option autoImplicit false

open Birgap.Lib Birgap.Lib.Run Birgap.Backups

/-- A `putCurrent` of the user: what it has read, verified and stored. -/
inductive Flight where
  | idle
  | read (dto : PutBackupDto) (existing : Option String)
  | verified (dto : PutBackupDto) (existing : Option String)
  | stored (dto : PutBackupDto) (existing : Option String)
  deriving DecidableEq

/-- `pending` are the keys of the jobs on the cleanup queue. -/
structure State where
  db : Db
  bucket : Bucket
  issued : List String
  pending : List String
  flights : Nat → Flight

inductive Act where
  | getUploadUrl (uuid : String)
  | upload (bucketKey : String) (size : Nat)
  | putRead (pid : Nat) (dto : PutBackupDto)
  | putVerify (pid : Nat)
  | putUpsert (pid : Nat) (now : Time) (blobId : Id)
  | putEnqueue (pid : Nat)
  | fail (pid : Nat)
  | process (bucketKey : String) (completed : Bool)

def State.set (s : State) (pid : Nat) (f : Flight) : State :=
  { s with flights := Function.update s.flights pid f }

/-- One statement of a call, an upload of the client, or one execution of a cleanup job; a
job that stops after its deletion stays on the queue. -/
def step (userId : Id) (s : State) : Act → State
  | .getUploadUrl uuid => { s with issued := s.issued ++ [uploadKey userId uuid] }
  | .upload key size => { s with bucket := Function.update s.bucket key (some size) }
  | .putRead pid dto =>
      match s.flights pid with
      | .idle => s.set pid (.read dto ((findBackup userId s.db).map (·.bucketKey)))
      | _ => s
  | .putVerify pid =>
      match s.flights pid with
      | .read dto existing =>
          match verifyObjectExists s.bucket dto.bucketKey dto.sizeBytes with
          | .ok () => s.set pid (.verified dto existing)
          | .error _ => s.set pid .idle
      | _ => s
  | .putUpsert pid now blobId =>
      match s.flights pid with
      | .verified dto existing =>
          { s.set pid (.stored dto existing) with db := upsertBackup now blobId userId dto s.db }
      | _ => s
  | .putEnqueue pid =>
      match s.flights pid with
      | .stored dto (some key) =>
          if key ≠ dto.bucketKey then { s.set pid .idle with pending := s.pending ++ [key] }
          else s.set pid .idle
      | .stored _ none => s.set pid .idle
      | _ => s
  | .fail pid => s.set pid .idle
  | .process key completed =>
      if key ∈ s.pending then
        { s with
          bucket := Function.update s.bucket key none
          pending := if completed then s.pending.erase key else s.pending }
      else s

/-- The object the row names is in the bucket, and no job names it. -/
def Safe (userId : Id) (s : State) : Prop :=
  ∀ b, findBackup userId s.db = some b →
    (s.bucket b.bucketKey).isSome = true ∧ b.bucketKey ∉ s.pending

/-- Every key the user's calls name was issued to the user. -/
def OwnKey (s : State) : Act → Prop
  | .putRead _ dto => dto.bucketKey ∈ s.issued
  | _ => True

/-- An upsert stores the key of an object that is there and that no job names; a key is
queued only when the row does not name it. -/
def Current (userId : Id) (s : State) : Act → Prop
  | .putUpsert pid _ _ =>
      ∀ dto existing, s.flights pid = .verified dto existing →
        (s.bucket dto.bucketKey).isSome = true ∧ dto.bucketKey ∉ s.pending
  | .putEnqueue pid =>
      ∀ dto key, s.flights pid = .stored dto (some key) → key ≠ dto.bucketKey →
        ∀ b, findBackup userId s.db = some b → b.bucketKey ≠ key
  | _ => True

/-- A step that neither writes the row nor touches the queue, and loses no object. -/
theorem Safe.frame {userId : Id} {s s' : State} (hs : Safe userId s) (hdb : s'.db = s.db)
    (hpending : s'.pending = s.pending)
    (hbucket : ∀ key, (s.bucket key).isSome = true → (s'.bucket key).isSome = true) :
    Safe userId s' := by
  intro b hb
  rw [hdb] at hb
  rw [hpending]
  obtain ⟨hthere, hfree⟩ := hs b hb
  exact ⟨hbucket _ hthere, hfree⟩

/-- The worker deletes what a job names, and the row names something else. -/
theorem safe_process {userId : Id} {s : State} (hs : Safe userId s) (key : String)
    (completed : Bool) : Safe userId (step userId s (.process key completed)) := by
  simp only [step]
  split
  · rename_i hkey
    intro b hb
    obtain ⟨hthere, hfree⟩ := hs b hb
    have hne : b.bucketKey ≠ key := fun he => hfree (he ▸ hkey)
    refine ⟨?_, ?_⟩
    · simp only [Function.update_of_ne hne]
      exact hthere
    · split
      · exact fun hin => hfree (List.mem_of_mem_erase hin)
      · exact hfree
  · exact hs

theorem safe_upsert_iff {userId : Id} {s : State} {pid : Nat} {now : Time} {blobId : Id}
    (hs : Safe userId s) :
    Safe userId (step userId s (.putUpsert pid now blobId)) ↔
      Current userId s (.putUpsert pid now blobId) := by
  simp only [step, Current]
  split
  · rename_i dto existing hf
    obtain ⟨b, hb, hkey⟩ := findBackup_upsertBackup now blobId userId dto s.db
    constructor
    · intro h dto' existing' hf'
      obtain ⟨rfl, rfl⟩ := Flight.verified.inj (hf.symm.trans hf')
      have hrow := h b hb
      rw [hkey] at hrow
      exact hrow
    · intro h b' hb'
      obtain rfl := Option.some.inj (hb.symm.trans hb')
      rw [hkey]
      exact h dto existing hf
  · rename_i hf
    exact ⟨fun _ dto existing h => absurd h (hf dto existing), fun _ => hs⟩

theorem safe_enqueue_iff {userId : Id} {s : State} {pid : Nat} (hs : Safe userId s) :
    Safe userId (step userId s (.putEnqueue pid)) ↔ Current userId s (.putEnqueue pid) := by
  simp only [step, Current]
  split
  · rename_i dto key hf
    split
    · rename_i hne
      constructor
      · intro h dto' key' hf' _ b hb he
        obtain ⟨rfl, hkey⟩ := Flight.stored.inj (hf.symm.trans hf')
        obtain rfl := Option.some.inj hkey
        exact (h b hb).2 (List.mem_append_right _ (by simp [he]))
      · intro h b hb
        obtain ⟨hthere, hfree⟩ := hs b hb
        refine ⟨hthere, ?_⟩
        intro hin
        rcases List.mem_append.mp hin with hin | hin
        · exact hfree hin
        · exact h dto key hf hne b hb (List.mem_singleton.mp hin)
    · rename_i hsame
      refine ⟨?_, fun _ => hs⟩
      intro _ dto' key' hf' hne'
      obtain ⟨rfl, hkey⟩ := Flight.stored.inj (hf.symm.trans hf')
      obtain rfl := Option.some.inj hkey
      exact absurd hne' hsame
  · rename_i dto hf
    refine ⟨?_, fun _ => hs⟩
    intro _ dto' key' hf'
    rw [hf] at hf'
    cases hf'
  · rename_i hf _
    refine ⟨?_, fun _ => hs⟩
    intro _ dto' key' hf'
    exact absurd hf' (hf dto' key')

theorem step_safe_iff (userId : Id) (s : State) (a : Act) (hs : Safe userId s) :
    Safe userId (step userId s a) ↔ Current userId s a := by
  cases a with
  | getUploadUrl uuid => exact ⟨fun _ => trivial, fun _ => hs.frame rfl rfl fun _ h => h⟩
  | upload key size =>
      refine ⟨fun _ => trivial, fun _ => hs.frame rfl rfl ?_⟩
      intro k hk
      by_cases hkey : k = key
      · simp [step, hkey]
      · simp only [step, Function.update_of_ne hkey]
        exact hk
  | putRead pid dto =>
      simp only [step, Current, iff_true]
      split <;> exact hs
  | putVerify pid =>
      simp only [step, Current, iff_true]
      split
      · split <;> exact hs
      · exact hs
  | putUpsert pid now blobId => exact safe_upsert_iff hs
  | putEnqueue pid => exact safe_enqueue_iff hs
  | fail pid => exact ⟨fun _ => trivial, fun _ => hs⟩
  | process key completed => exact ⟨fun _ => trivial, fun _ => safe_process hs key completed⟩

/-- Over every run: the object of the current backup is in the bucket and no job names it,
in every state, if and only if every upsert stores the key of an object that is there and
not queued for deletion, and every call queues a key the row does not name. -/
theorem current_backup_kept_iff (userId : Id) (s : State) (hs : Safe userId s) (acts : List Act) :
    Always (step userId) (Safe userId) s acts ↔ Along (step userId) (Current userId) s acts :=
  always_iff_along (J := fun _ => True) (fun _ _ _ => trivial)
    (fun s a _ h => step_safe_iff userId s a h) acts s trivial hs

/-- No backup, no object and no job. -/
def start : State :=
  { db := {}, bucket := fun _ => none, issued := [], pending := [], flights := fun _ => .idle }

theorem start_safe (userId : Id) : Safe userId start := by
  intro b hb
  cases hb

def putA : PutBackupDto :=
  { version := 1, bucketKey := "backups/alice/a.bin", sha256 := "00", sizeBytes := 10 }

def putB : PutBackupDto :=
  { version := 2, bucketKey := "backups/alice/b.bin", sha256 := "11", sizeBytes := 20 }

/-- One call from beginning to end. -/
def wholePut (pid : Nat) (now : Time) (dto : PutBackupDto) : List Act :=
  [.putRead pid dto, .putVerify pid, .putUpsert pid now "blob", .putEnqueue pid]

def uploadBoth : List Act :=
  [.getUploadUrl "a", .upload "backups/alice/a.bin" 10, .getUploadUrl "b",
   .upload "backups/alice/b.bin" 20]

/-- The user goes back to the first backup before the worker has got to its job. -/
def putBack : List Act :=
  uploadBoth ++ wholePut 0 1 putA ++ wholePut 1 2 putB ++ wholePut 2 3 putA ++
    [.process "backups/alice/a.bin" true]

theorem put_back_destroyed :
    ¬ ∀ userId s, Safe userId s → ∀ acts, Along (step userId) OwnKey s acts →
      Always (step userId) (Safe userId) s acts := by
  intro h
  have hown : Along (step "alice") OwnKey start putBack := by
    simp only [putBack, uploadBoth, wholePut, List.cons_append, List.nil_append, along_cons]
    refine ⟨trivial, trivial, trivial, trivial, ?_, trivial, trivial, trivial, ?_, trivial, trivial,
      trivial, ?_, trivial, trivial, trivial, trivial, along_nil _ _ _⟩
    · show putA.bucketKey ∈ (run (step "alice") start uploadBoth).issued
      decide
    · show putB.bucketKey ∈ (run (step "alice") start (uploadBoth ++ wholePut 0 1 putA)).issued
      decide
    · show putA.bucketKey ∈ (run (step "alice") start
        (uploadBoth ++ wholePut 0 1 putA ++ wholePut 1 2 putB)).issued
      decide
  have hend := h "alice" start (start_safe _) putBack hown putBack (List.prefix_refl _)
  have hrow := hend _ (by rfl)
  exact absurd hrow.1 (by decide)

/-- The second backup replaces the first, and the worker deletes the object of the first. -/
def replaced : List Act :=
  uploadBoth ++ wholePut 0 1 putA ++ wholePut 1 2 putB ++ [.process "backups/alice/a.bin" true]

/-- The job of a replaced backup takes its object and leaves the current one. -/
theorem replaced_backup_kept :
    ((run (step "alice") start replaced).bucket "backups/alice/a.bin" = none ∧
      (findBackup "alice" (run (step "alice") start replaced).db).map (·.bucketKey) =
        some "backups/alice/b.bin") ∧
    Safe "alice" start ∧ Always (step "alice") (Safe "alice") start replaced := by
  refine ⟨by decide, start_safe _, (current_backup_kept_iff "alice" start (start_safe _) _).mpr ?_⟩
  simp only [replaced, uploadBoth, wholePut, List.cons_append, List.nil_append, along_cons]
  refine ⟨trivial, trivial, trivial, trivial, trivial, trivial, ?_, ?_, trivial, trivial, ?_, ?_,
    trivial, along_nil _ _ _⟩
  · intro dto existing hf
    obtain ⟨rfl, _⟩ := Flight.verified.inj hf
    decide
  · intro dto key hf
    cases (Flight.stored.inj hf).2
  · intro dto existing hf
    obtain ⟨rfl, _⟩ := Flight.verified.inj hf
    decide
  · intro dto key hf _ b hb
    obtain ⟨_, hkey⟩ := Flight.stored.inj hf
    obtain rfl := Option.some.inj hkey
    obtain rfl := Option.some.inj hb
    decide

end Birgap.Backups.Retention
