import Birgap.Messaging.Objects

/-!
# Live attachments keep their objects

Sends, forwards and deletions for everyone interleave: the look-ups of a deletion, its
transaction, the query of its cleanup, each reference count and each job are steps of their
own, beside every statement of the messaging system. A count looks at one column, and at
one moment: it misses copies that use the key as a thumbnail, and copies of a forward that
commit after it.
-/
namespace Birgap.Messaging.LiveObjects

set_option autoImplicit false

open Birgap.Lib Birgap.Lib.Run Birgap.Lib.Tx Birgap.Common Birgap.Messages Birgap.Auth

/-- How far a deletion has come. `counting` is at the head of the loop over the rows that
are left; the rows are what the query returned. -/
inductive Cleanup where
  | idle
  | deleting (userId messageId : Id) (who : DeletedBy)
  | reading (messageId : Id)
  | counting (messageId : Id) (media : List MessageMedia)
  | adding (messageId : Id) (m : MessageMedia) (rest : List MessageMedia)
  | countingThumbnail (messageId : Id) (m : MessageMedia) (rest : List MessageMedia)
  | addingThumbnail (messageId : Id) (key : String) (rest : List MessageMedia)

/-- The messaging system, the deletions, and the keys for which a job was added. -/
structure State where
  messaging : Messaging.State
  cleanups : Nat → Cleanup
  enqueued : List String

/-- `add` is told whether the queue takes the job; a refused job is logged and forgotten.
`fail` throws where the deletion is. -/
inductive Act where
  | message (a : Messaging.Act)
  | deleteRead (pid : Nat) (limit : EditLimit) (now : Time) (userId messageId : Id)
      (dto : DeleteMessageDto)
  | deleteCommit (pid : Nat) (now : Time)
  | findMedia (pid : Nat)
  | count (pid : Nat)
  | add (pid : Nat) (taken : Bool)
  | fail (pid : Nat)

def State.db (s : State) : Db := s.messaging.db

def State.set (s : State) (pid : Nat) (c : Cleanup) : State :=
  { s with cleanups := Function.update s.cleanups pid c }

def State.write (s : State) (db : Db) : State := { s with messaging := { s.messaging with db := db } }

def State.enqueue (s : State) (taken : Bool) (key : String) : State :=
  if taken then { s with enqueued := s.enqueued ++ [key] } else s

def step (env : AuthEnv) (configuredMax : Option Int) (s : State) : Act → State
  | .message a => { s with messaging := Messaging.step env configuredMax s.messaging a }
  | .deleteRead pid limit now userId messageId dto =>
      match s.cleanups pid, dto.scope, deleteAccess userId messageId dto s.db with
      | .idle, .forEveryone, .ok m =>
          match assertDeletable limit now userId m s.db with
          | .ok who => s.set pid (.deleting userId messageId who)
          | .error _ => s
      | _, _, _ => s
  | .deleteCommit pid now =>
      match s.cleanups pid with
      | .deleting userId messageId who =>
          match deleteTx now userId messageId who s.db with
          | .ok (_, db) => (s.write db).set pid (.reading messageId)
          | .error _ => s.set pid .idle
      | _ => s
  | .findMedia pid =>
      match s.cleanups pid with
      | .reading messageId => s.set pid (.counting messageId (mediaOf messageId s.db))
      | _ => s
  | .count pid =>
      match s.cleanups pid with
      | .counting _ [] => s.set pid .idle
      | .counting messageId (m :: rest) =>
          if otherRefs m.bucketKey messageId s.db = 0 then s.set pid (.adding messageId m rest)
          else s.set pid (.countingThumbnail messageId m rest)
      | .countingThumbnail messageId m rest =>
          match truthy m.thumbnailBucketKey with
          | none => s.set pid (.counting messageId rest)
          | some key =>
              if otherRefs key messageId s.db = 0 then s.set pid (.addingThumbnail messageId key rest)
              else s.set pid (.counting messageId rest)
      | _ => s
  | .add pid taken =>
      match s.cleanups pid with
      | .adding messageId m rest =>
          (s.enqueue taken m.bucketKey).set pid (.countingThumbnail messageId m rest)
      | .addingThumbnail messageId key rest =>
          (s.enqueue taken key).set pid (.counting messageId rest)
      | _ => s
  | .fail pid => s.set pid .idle

/-- Any store; no call in flight and no job. -/
def start (db : Db) : State :=
  { messaging := { db, calls := fun _ => .idle, jobs := [] }
    cleanups := fun _ => .idle, enqueued := [] }

/-! ## What is asked -/

def HasKey (r : MessageMedia) (key : String) : Prop :=
  r.bucketKey = key ∨ r.thumbnailBucketKey = some key

/-- A row of a message that is not deleted has the key. -/
def Live (db : Db) (key : String) : Prop :=
  ∃ r ∈ db.messageMedia, ∃ x ∈ db.messages,
    r.messageId = some x.id ∧ x.deletedAt = none ∧ HasKey r key

/-- No scheduled key is one of a live attachment. -/
def Kept (s : State) : Prop := ∀ key ∈ s.enqueued, ¬ Live s.db key

/-! ## When it holds -/

/-- An upload that is not attached yet shares its keys with no other row. -/
def FreshUploads (db : Db) : Prop :=
  ∀ u ∈ db.messageMedia, u.messageId = none → ∀ q ∈ db.messageMedia, q ≠ u →
    ∀ key, HasKey u key → ¬ HasKey q key

/-- A count has found the key unreferenced and its job is about to be added. -/
def Cleanup.Pending (key : String) : Cleanup → Prop
  | .adding _ m _ => m.bucketKey = key
  | .addingThumbnail _ key' _ => key' = key
  | _ => False

/-- The key was found unreferenced by a cleanup. -/
def Decided (s : State) (key : String) : Prop :=
  key ∈ s.enqueued ∨ ∃ pid, (s.cleanups pid).Pending key

/-- The source of a forward is not deleted, or none of its keys was found unreferenced. -/
def SourceUsable (s : State) (f : Forwarding) : Prop :=
  (∃ x ∈ s.db.messages, x.id = f.dto.sourceMessageId ∧ x.deletedAt = none) ∨
    ∀ y ∈ f.sourceMedia, ∀ key, HasKey y key → ¬ Decided s key

/-- The message and the key the next count of a cleanup is about. -/
def Cleanup.counted : Cleanup → Option (Id × String)
  | .counting messageId (m :: _) => some (messageId, m.bucketKey)
  | .countingThumbnail messageId m _ => (truthy m.thumbnailBucketKey).map (messageId, ·)
  | _ => none

/-- A forward commits a target only while its source is usable, and where a count finds no
row with the key, no live row of another message has it as its thumbnail. -/
def CountsAll (s : State) : Act → Prop
  | .message a => ∀ f, CommitsForward s.messaging f a → SourceUsable s f
  | .count pid => ∀ messageId key, (s.cleanups pid).counted = some (messageId, key) →
      otherRefs key messageId s.db = 0 → ∀ r ∈ s.db.messageMedia, r.thumbnailBucketKey = some key →
      ∀ x ∈ s.db.messages, r.messageId = some x.id → x.id ≠ messageId → x.deletedAt.isSome
  | _ => True

/-! ## The invariant -/

/-- Rows of a query on a message: it has stored rows with their keys. -/
def FromRows (db : Db) (messageId : Id) (rows : List MessageMedia) : Prop :=
  ∀ y ∈ rows, ∃ p ∈ db.messageMedia, p.messageId = some messageId ∧ keysOf p = keysOf y

def Dead (db : Db) (messageId : Id) : Prop :=
  ∃ x ∈ db.messages, x.id = messageId ∧ x.deletedAt.isSome

/-- A cleanup is about a deleted message, and about keys of its rows. -/
def CleanupOk (db : Db) : Cleanup → Prop
  | .idle => True
  | .deleting _ _ _ => True
  | .reading messageId => Dead db messageId
  | .counting messageId media => Dead db messageId ∧ FromRows db messageId media
  | .adding messageId m rest => Dead db messageId ∧ FromRows db messageId (m :: rest)
  | .countingThumbnail messageId m rest => Dead db messageId ∧ FromRows db messageId (m :: rest)
  | .addingThumbnail messageId key rest => Dead db messageId ∧ FromRows db messageId rest ∧
      ∃ p ∈ db.messageMedia, p.messageId.isSome ∧ HasKey p key

structure Inv (s : State) : Prop where
  linked : Linked s.db
  uploads : FreshUploads s.db
  sources : ∀ pid f, (s.messaging.calls pid).forwardOf = some f →
    FromRows s.db f.dto.sourceMessageId f.sourceMedia
  cleanups : ∀ pid, CleanupOk s.db (s.cleanups pid)
  known : ∀ key ∈ s.enqueued, ∃ p ∈ s.db.messageMedia, p.messageId.isSome ∧ HasKey p key
  safe : ∀ key, Decided s key → ¬ Live s.db key

theorem HasKey.congr {p q : MessageMedia} (h : keysOf p = keysOf q) {key : String} :
    HasKey p key ↔ HasKey q key := by
  have hb : p.bucketKey = q.bucketKey := congrArg Prod.fst h
  have ht : p.thumbnailBucketKey = q.thumbnailBucketKey := congrArg Prod.snd h
  unfold HasKey
  rw [hb, ht]

theorem start_inv {db : Db} (hl : Linked db) (hu : FreshUploads db) : Inv (start db) := by
  refine ⟨hl, hu, ?_, fun _ => trivial, ?_, ?_⟩
  · intro pid f hf
    cases hf
  · intro key hkey
    cases hkey
  · intro key hd
    rcases hd with hd | ⟨pid, hd⟩
    · cases hd
    · exact hd.elim

/-- A key that was found unreferenced is the key of an attached row. -/
theorem Inv.decided_known {s : State} (h : Inv s) {key : String} (hd : Decided s key) :
    ∃ p ∈ s.db.messageMedia, p.messageId.isSome ∧ HasKey p key := by
  rcases hd with hd | ⟨pid, hd⟩
  · exact h.known key hd
  · have hok := h.cleanups pid
    cases hc : s.cleanups pid with
    | adding messageId m rest =>
        rw [hc] at hok hd
        obtain ⟨p, hp, hid, hkeys⟩ := hok.2 m List.mem_cons_self
        exact ⟨p, hp, by rw [hid]; rfl, (HasKey.congr hkeys).mpr (Or.inl hd)⟩
    | addingThumbnail messageId key' rest =>
        rw [hc] at hok hd
        obtain ⟨p, hp, hbound, hkey⟩ := hok.2.2
        rw [show key' = key from hd] at hkey
        exact ⟨p, hp, hbound, hkey⟩
    | idle => rw [hc] at hd; exact hd.elim
    | deleting userId messageId who => rw [hc] at hd; exact hd.elim
    | reading messageId => rw [hc] at hd; exact hd.elim
    | counting messageId media => rw [hc] at hd; exact hd.elim
    | countingThumbnail messageId m rest => rw [hc] at hd; exact hd.elim

/-! ## Stores that only grow -/

/-- Attached rows and deletion marks stay. -/
structure Grows (db db' : Db) : Prop where
  rows : ∀ q ∈ db.messageMedia, q.messageId.isSome → q ∈ db'.messageMedia
  dead : ∀ messageId, Dead db messageId → Dead db' messageId

theorem FromRows.grows {db db' : Db} (hg : Grows db db') {messageId : Id} {rows : List MessageMedia}
    (h : FromRows db messageId rows) : FromRows db' messageId rows := by
  intro y hy
  obtain ⟨p, hp, hid, hkeys⟩ := h y hy
  exact ⟨p, hg.rows p hp (by rw [hid]; rfl), hid, hkeys⟩

theorem Grows.known {db db' : Db} (hg : Grows db db') {key : String}
    (h : ∃ p ∈ db.messageMedia, p.messageId.isSome ∧ HasKey p key) :
    ∃ p ∈ db'.messageMedia, p.messageId.isSome ∧ HasKey p key := by
  obtain ⟨p, hp, hbound, hkey⟩ := h
  exact ⟨p, hg.rows p hp hbound, hbound, hkey⟩

theorem CleanupOk.grows {db db' : Db} (hg : Grows db db') {c : Cleanup} (h : CleanupOk db c) :
    CleanupOk db' c := by
  cases c with
  | idle => trivial
  | deleting userId messageId who => trivial
  | reading messageId => exact hg.dead messageId h
  | counting messageId media => exact ⟨hg.dead messageId h.1, h.2.grows hg⟩
  | adding messageId m rest => exact ⟨hg.dead messageId h.1, h.2.grows hg⟩
  | countingThumbnail messageId m rest => exact ⟨hg.dead messageId h.1, h.2.grows hg⟩
  | addingThumbnail messageId key rest =>
      exact ⟨hg.dead messageId h.1, h.2.1.grows hg, hg.known h.2.2⟩

/-! ## A step of the messaging system -/

section Message

variable {env : AuthEnv} {configuredMax : Option Int} {s : State} {a : Messaging.Act}

theorem extends_grows {db' : Db} (he : Extends s.messaging a db') : Grows s.db db' := by
  refine ⟨he.kept, ?_⟩
  intro messageId h
  obtain ⟨x, hx, hid, hdead⟩ := h
  exact ⟨x, he.messages x hx, hid, hdead⟩

/-- Copies use keys of attached rows, so uploads that stay unbound keep theirs to
themselves. -/
theorem extends_uploads {db' : Db} (h : Inv s) (he : Extends s.messaging a db') :
    FreshUploads db' := by
  intro u hu hnone q hq hne key huk hqk
  have hold : u ∈ s.db.messageMedia := by
    rcases he.new u hu with hold | ⟨x, _, hid, _⟩
    · exact hold
    · rw [hnone] at hid
      cases hid
  rcases he.new q hq with hqold | ⟨x, _, _, _, ⟨w, hw, _, hgone, hkeys⟩ | ⟨f, hf, y, hy, hkeys⟩⟩
  · exact h.uploads u hold hnone q hqold hne key huk hqk
  · -- the upload that was just bound is another one
    have hwu : w ≠ u := by
      intro heq
      rw [heq] at hgone
      exact hgone hu
    exact h.uploads u hold hnone w hw hwu key huk ((HasKey.congr hkeys).mpr hqk)
  · obtain ⟨pid, hpid⟩ := hf.call
    obtain ⟨p, hp, hid, hpy⟩ := h.sources pid f hpid y hy
    have hpu : p ≠ u := by
      intro heq
      rw [heq, hnone] at hid
      cases hid
    exact h.uploads u hold hnone p hp hpu key huk
      ((HasKey.congr hpy).mpr ((HasKey.congr hkeys).mpr hqk))

/-- A new row has a key of an upload, which no attached row shares, or of a source that is
still live or was found referenced. -/
theorem extends_safe {db' : Db} (h : Inv s) (he : Extends s.messaging a db')
    (hc : ∀ f, CommitsForward s.messaging f a → SourceUsable s f) {key : String}
    (hd : Decided s key) : ¬ Live db' key := by
  intro hlive
  obtain ⟨q, hq, x, hx, hid, hxlive, hqk⟩ := hlive
  rcases he.new q hq with hold | ⟨_, _, _, _, ⟨u, hu, hnone, _, hkeys⟩ | ⟨f, hf, y, hy, hkeys⟩⟩
  · exact h.safe key hd ⟨q, hold, x, he.old_message h.linked hold hx hid, hid, hxlive, hqk⟩
  · obtain ⟨p, hp, hbound, hpk⟩ := h.decided_known hd
    have hpu : p ≠ u := by
      intro heq
      rw [heq, hnone] at hbound
      cases hbound
    exact h.uploads u hu hnone p hp hpu key ((HasKey.congr hkeys).mpr hqk) hpk
  · have hyk := (HasKey.congr hkeys).mpr hqk
    rcases hc f hf with ⟨source, hsource, hsid, hslive⟩ | hundecided
    · -- the rows of the live source have the key, so it was not found unreferenced
      obtain ⟨pid, hpid⟩ := hf.call
      obtain ⟨p, hp, hpid, hpy⟩ := h.sources pid f hpid y hy
      exact h.safe key hd ⟨p, hp, source, hsource, by rw [hpid, hsid], hslive,
        (HasKey.congr hpy).mpr hyk⟩
    · exact hundecided y hy key hyk hd

theorem message_inv (h : Inv s) (hc : ∀ f, CommitsForward s.messaging f a → SourceUsable s f) :
    Inv (step env configuredMax s (.message a)) := by
  have he := exec_extends env configuredMax s.messaging a
  have hg := extends_grows he
  refine ⟨he.linked h.linked, extends_uploads h he, ?_, fun pid => (h.cleanups pid).grows hg,
    fun key hk => hg.known (h.known key hk), fun key hd => extends_safe h he hc hd⟩
  intro pid f hf
  rcases (exec_effect env configuredMax s.messaging a).continues hf with
    ⟨f₀, hf₀, _, hdto, hmedia⟩ | ⟨userId, dto, hstart⟩
  · rw [hdto, hmedia]
    exact (h.sources pid f₀ hf₀).grows hg
  · apply FromRows.grows hg
    intro y hy
    obtain ⟨hm, hid⟩ := startForward_media hstart y hy
    exact ⟨y, hm, hid, rfl⟩

end Message

/-! ## A step of a deletion -/

section Deletion

variable {env : AuthEnv} {configuredMax : Option Int} {s : State}

theorem set_cleanups (s : State) (pid q : Nat) (c : Cleanup) :
    (s.set pid c).cleanups q = if q = pid then c else s.cleanups q := by
  show Function.update s.cleanups pid c q = _
  rw [Function.update_apply]

/-- Moving one deletion to a place where it claims no key that is live. -/
theorem Inv.set (h : Inv s) (pid : Nat) {c : Cleanup} (hok : CleanupOk s.db c)
    (hp : ∀ key, c.Pending key → ¬ Live s.db key) : Inv (s.set pid c) := by
  refine ⟨h.linked, h.uploads, h.sources, ?_, h.known, ?_⟩
  · intro q
    rw [set_cleanups]
    split
    · exact hok
    · exact h.cleanups q
  · intro key hd
    rcases hd with hd | ⟨q, hq⟩
    · exact h.safe key (Or.inl hd)
    · rw [set_cleanups] at hq
      split at hq
      · exact hp key hq
      · exact h.safe key (Or.inr ⟨q, hq⟩)

/-- A job is added for a key that was found unreferenced. -/
theorem Inv.enqueue (h : Inv s) (taken : Bool) {key : String} (hd : Decided s key) :
    Inv (s.enqueue taken key) := by
  unfold State.enqueue
  split
  · refine ⟨h.linked, h.uploads, h.sources, h.cleanups, ?_, ?_⟩
    · intro key' hk
      rcases List.mem_append.mp hk with hk | hk
      · exact h.known key' hk
      · rw [List.mem_singleton.mp hk]
        exact h.decided_known hd
    · intro key' hd'
      rcases hd' with hk | hpending
      · rcases List.mem_append.mp hk with hk | hk
        · exact h.safe key' (Or.inl hk)
        · rw [List.mem_singleton.mp hk]
          exact h.safe key hd
      · exact h.safe key' (Or.inr hpending)
  · exact h

theorem enqueue_db (taken : Bool) (key : String) : (s.enqueue taken key).db = s.db := by
  unfold State.enqueue
  split <;> rfl

/-- A tombstone adds no row and makes no message live. -/
theorem Inv.tombstone (h : Inv s) (now : Time) (messageId : Id) (log : List AdminAuditLog) :
    Inv (s.write { s.db with
      messages := Rows.updateMany (·.id == messageId) (tombstoned now) s.db.messages
      adminAuditLog := log }) := by
  have hg : Grows s.db { s.db with
      messages := Rows.updateMany (·.id == messageId) (tombstoned now) s.db.messages
      adminAuditLog := log } := by
    refine ⟨fun q hq _ => hq, ?_⟩
    intro id hd
    obtain ⟨x, hx, hid, hdead⟩ := hd
    refine ⟨_, Rows.mem_updateMany.mpr ⟨x, hx, rfl⟩, ?_⟩
    split
    · exact ⟨hid, rfl⟩
    · exact ⟨hid, hdead⟩
  refine ⟨linked_of_tombstone h.linked messageId now log, h.uploads, h.sources,
    fun pid => (h.cleanups pid).grows hg, h.known, ?_⟩
  intro key hd hlive
  obtain ⟨r, hr, x, hx, hid, hxlive, hk⟩ := hlive
  obtain ⟨y, hy, he⟩ := Rows.mem_updateMany.mp hx
  split at he
  · rw [he] at hxlive
    cases hxlive
  · rw [he] at hid hxlive
    exact h.safe key hd ⟨r, hr, y, hy, hid, hxlive, hk⟩

theorem tombstone_dead {now : Time} {userId messageId : Id} {who : DeletedBy} {db db' : Db}
    {m : Message} (h : deleteTx now userId messageId who db = .ok (m, db')) : Dead db' messageId := by
  unfold deleteTx at h
  simp only at h
  split at h
  · cases h
  · rename_i updated hf
    have hmem := List.mem_of_find?_eq_some hf
    have hid : updated.id = messageId := by simpa using List.find?_some hf
    have hdead : updated.deletedAt.isSome := by
      obtain ⟨y, _, he⟩ := Rows.mem_updateMany.mp hmem
      split at he
      · rw [he]
        rfl
      · rename_i hne
        rw [← he] at hne
        simp [hid] at hne
    cases who with
    | sender =>
        obtain ⟨_, rfl⟩ := Prod.mk.inj (Except.ok.inj h)
        exact ⟨updated, hmem, hid, hdead⟩
    | admin =>
        obtain ⟨_, rfl⟩ := Prod.mk.inj (Except.ok.inj h)
        exact ⟨updated, hmem, hid, hdead⟩

/-- A count of zero for a deleted message, with no live thumbnail elsewhere. -/
theorem not_live_of_count (h : Inv s) {messageId : Id} {key : String} (hdead : Dead s.db messageId)
    (hzero : otherRefs key messageId s.db = 0)
    (hthumb : ∀ r ∈ s.db.messageMedia, r.thumbnailBucketKey = some key → ∀ x ∈ s.db.messages,
      r.messageId = some x.id → x.id ≠ messageId → x.deletedAt.isSome) : ¬ Live s.db key := by
  intro hlive
  obtain ⟨r, hr, x, hx, hid, hxlive, hk⟩ := hlive
  have hother : x.id ≠ messageId := by
    intro heq
    obtain ⟨y, hy, hyid, hydead⟩ := hdead
    rw [h.linked.ids.eq hx hy (heq.trans hyid.symm)] at hxlive
    rw [hxlive] at hydead
    cases hydead
  rcases hk with hb | ht
  · exact hother (otherRefs_eq_zero.mp hzero r hr hb x.id hid)
  · have hgone := hthumb r hr ht x hx hid hother
    rw [hxlive] at hgone
    cases hgone

/-- A deletion that goes on to a place where it claims no key. -/
theorem Inv.set_quiet (h : Inv s) (pid : Nat) {c : Cleanup} (hok : CleanupOk s.db c)
    (hp : ∀ key, ¬ c.Pending key) : Inv (s.set pid c) :=
  h.set pid hok fun key hpending => absurd hpending (hp key)

theorem count_inv (h : Inv s) (pid : Nat) (hc : CountsAll s (.count pid)) :
    Inv (step env configuredMax s (.count pid)) := by
  have hok := h.cleanups pid
  simp only [step]
  cases hcl : s.cleanups pid with
  | idle => exact h
  | deleting userId messageId who => exact h
  | reading messageId => exact h
  | adding messageId m rest => exact h
  | addingThumbnail messageId key rest => exact h
  | counting messageId media =>
      rw [hcl] at hok
      cases media with
      | nil => exact h.set_quiet pid trivial fun _ => id
      | cons m rest =>
          by_cases hzero : otherRefs m.bucketKey messageId s.db = 0
          · simp only [hzero, ↓reduceIte]
            refine h.set pid hok ?_
            intro key hkey
            obtain rfl : m.bucketKey = key := hkey
            exact not_live_of_count h hok.1 hzero
              (hc messageId m.bucketKey (by rw [hcl]; rfl) hzero)
          · simp only [hzero, ↓reduceIte]
            exact h.set_quiet pid hok fun _ => id
  | countingThumbnail messageId m rest =>
      rw [hcl] at hok
      have hrest : FromRows s.db messageId rest := fun y hy => hok.2 y (List.mem_cons_of_mem _ hy)
      dsimp only
      cases ht : truthy m.thumbnailBucketKey with
      | none => exact h.set_quiet pid ⟨hok.1, hrest⟩ fun _ => id
      | some key =>
          by_cases hzero : otherRefs key messageId s.db = 0
          · simp only [hzero, ↓reduceIte]
            have hthumb : m.thumbnailBucketKey = some key := truthy_some ht
            have hknown : ∃ p ∈ s.db.messageMedia, p.messageId.isSome ∧ HasKey p key := by
              obtain ⟨p, hp, hid, hkeys⟩ := hok.2 m List.mem_cons_self
              exact ⟨p, hp, by rw [hid]; rfl, (HasKey.congr hkeys).mpr (Or.inr hthumb)⟩
            refine h.set pid ⟨hok.1, hrest, hknown⟩ ?_
            intro key' hkey
            obtain rfl : key = key' := hkey
            exact not_live_of_count h hok.1 hzero
              (hc messageId key (by rw [hcl]; simp [Cleanup.counted, ht]) hzero)
          · simp only [hzero, ↓reduceIte]
            exact h.set_quiet pid ⟨hok.1, hrest⟩ fun _ => id

theorem add_inv (h : Inv s) (pid : Nat) (taken : Bool) :
    Inv (step env configuredMax s (.add pid taken)) := by
  have hok := h.cleanups pid
  simp only [step]
  cases hcl : s.cleanups pid with
  | idle => exact h
  | deleting userId messageId who => exact h
  | reading messageId => exact h
  | counting messageId media => exact h
  | countingThumbnail messageId m rest => exact h
  | adding messageId m rest =>
      rw [hcl] at hok
      have hd : Decided s m.bucketKey := Or.inr ⟨pid, by rw [hcl]; rfl⟩
      refine (h.enqueue taken hd).set_quiet pid ?_ fun _ => id
      rw [enqueue_db]
      exact hok
  | addingThumbnail messageId key rest =>
      rw [hcl] at hok
      have hd : Decided s key := Or.inr ⟨pid, by rw [hcl]; rfl⟩
      refine (h.enqueue taken hd).set_quiet pid ?_ fun _ => id
      rw [enqueue_db]
      exact ⟨hok.1, hok.2.1⟩

theorem step_inv (a : Act) (h : Inv s) (hc : CountsAll s a) : Inv (step env configuredMax s a) := by
  cases a with
  | message a => exact message_inv h hc
  | deleteRead pid limit now userId messageId dto =>
      simp only [step]
      split
      · split
        · exact h.set_quiet pid trivial fun _ => id
        · exact h
      · exact h
  | deleteCommit pid now =>
      simp only [step]
      split
      · rename_i userId messageId who _
        split
        · rename_i m db htx
          have hdead := tombstone_dead htx
          have hdb := deleteTx_ok htx
          have hwrite := h.tombstone now messageId db.adminAuditLog
          rw [← hdb] at hwrite
          exact hwrite.set_quiet pid hdead fun _ => id
        · exact h.set_quiet pid trivial fun _ => id
      · exact h
  | findMedia pid =>
      have hok := h.cleanups pid
      simp only [step]
      split
      · rename_i messageId hcl
        rw [hcl] at hok
        refine h.set_quiet pid ⟨hok, ?_⟩ fun _ => id
        intro y hy
        obtain ⟨hm, hid⟩ := mem_mediaOf.mp hy
        exact ⟨y, hm, hid, rfl⟩
      · exact h
  | count pid => exact count_inv h pid hc
  | add pid taken => exact add_inv h pid taken
  | fail pid => exact h.set_quiet pid trivial fun _ => id

end Deletion

/-- From any store whose pending uploads share no key, no key of a live attachment is ever
scheduled, as long as forwards commit while their source is usable and no count overlooks a
thumbnail. -/
theorem live_objects_kept (env : AuthEnv) (configuredMax : Option Int) (db : Db) (acts : List Act)
    (hl : Linked db) (hu : FreshUploads db)
    (hc : Along (step env configuredMax) CountsAll (start db) acts) :
    Always (step env configuredMax) Kept (start db) acts := by
  have hinv : Always (step env configuredMax) Inv (start db) acts :=
    always_of_along (fun s a h ha => step_inv a h ha) acts (start db) (start_inv hl hu) hc
  exact hinv.mono fun s h key hk => h.safe key (Or.inl hk)

/-- Two messages of Alice to Bob, each with a picture that has a thumbnail. -/
def picturesDb : Db :=
  { Messaging.sampleDb with
    directThreads := [{ id := "t1", userAId := "alice", userBId := "bob", latestSequence := 2 }]
    messages := [("m1", 1), ("m2", 2)].map fun (id, threadSequence) =>
      { id, threadId := some "t1", senderUserId := "alice", senderDeviceId := "d1"
        idempotencyKey := "send-" ++ id, threadSequence, createdAt := 10 }
    messageMedia := [("p1", "m1"), ("p2", "m2")].map fun (id, messageId) =>
      { id, userId := "alice", messageId := some messageId, mediaType := .image
        bucketKey := "media/" ++ id, thumbnailBucketKey := some ("thumbs/" ++ id)
        mimeType := "image/png", sizeBytes := 1, filename := id, mediaCiphertextHash := "h"
        uploadStatus := .complete, createdAt := 0 } }

/-- Alice forwards the first message to Mallory. -/
def forwardFirst : List Act :=
  [.message (.forward 0 "alice"
     { sourceMessageId := "m1", senderDeviceId := "d1", idempotencyKey := "forward-1"
       targets := [{ type := .direct, recipientUserId := some "mallory"
                     envelopes := some [⟨"d3", "c"⟩] }] }),
   .message (.target 0),
   .message (.tx 0 { Messaging.sampleCtx "m3" with threadId := "t3" })]

/-- A deletion up to the query of its cleanup. -/
def deletion (messageId : Id) : List Act :=
  [.deleteRead 0 {} 20 "alice" messageId { deviceId := "d1", scope := .forEveryone },
   .deleteCommit 0 20, .findMedia 0]

theorem picturesDb_linked : Linked picturesDb := by
  refine ⟨by decide, ?_⟩
  intro r hr id hid
  have hall : ∀ r ∈ picturesDb.messageMedia, ∃ x ∈ picturesDb.messages, r.messageId = some x.id := by
    decide
  obtain ⟨x, hx, hxid⟩ := hall r hr
  rw [hid] at hxid
  exact ⟨x, hx, (Option.some.inj hxid).symm⟩

theorem picturesDb_uploads : FreshUploads picturesDb := by
  intro u hu hnone
  have hbound : ∀ u ∈ picturesDb.messageMedia, u.messageId ≠ none := by decide
  exact absurd hnone (hbound u hu)

/-- The first message is deleted once it is forwarded: the count for its object finds the
copy, the one for its thumbnail looks for it in the other column. -/
def copiedThenDeleted : List Act :=
  forwardFirst ++ deletion "m1" ++ [.count 0, .count 0, .add 0 true]

theorem live_thumbnail_scheduled :
    ¬ ∀ (env : AuthEnv) (configuredMax : Option Int) (db : Db) (acts : List Act),
      Linked db → FreshUploads db → Always (step env configuredMax) Kept (start db) acts := by
  intro h
  have hrun := h Devices.sampleEnv none picturesDb copiedThenDeleted picturesDb_linked
    picturesDb_uploads
  have hlast := hrun copiedThenDeleted (List.prefix_refl _)
  revert hlast
  unfold Kept Live HasKey
  decide

/-- The second message, which was not forwarded, is deleted with all that belongs to it. -/
def otherDeleted : List Act :=
  forwardFirst ++ deletion "m2" ++ [.count 0, .add 0 true, .count 0, .add 0 true, .count 0]

theorem other_deletion_keeps_live_objects :
    (run (step Devices.sampleEnv none) (start picturesDb) otherDeleted).enqueued =
      ["media/p2", "thumbs/p2"] ∧
    Always (step Devices.sampleEnv none) Kept (start picturesDb) otherDeleted := by
  refine ⟨by decide, live_objects_kept Devices.sampleEnv none picturesDb otherDeleted
    picturesDb_linked picturesDb_uploads ?_⟩
  simp only [otherDeleted, forwardFirst, deletion, List.cons_append, List.nil_append, along_cons]
  refine ⟨?_, ?_, ?_, trivial, trivial, trivial, ?_, trivial, ?_, trivial, ?_, along_nil _ _ _⟩
  · intro f hf
    cases hf
  · intro f hf
    cases hf
  · intro f hf
    cases hf with
    | direct hc =>
        cases hc
        left
        decide
  · intro messageId key hk _
    cases hk
    decide
  · intro messageId key hk _
    cases hk
    decide
  · intro messageId key hk _
    cases hk

end Birgap.Messaging.LiveObjects
