import Birgap.Messaging.LiveObjects
import Birgap.Messaging.MediaRows

/-!
# The sweep of orphaned uploads

`MediaCleanupProcessor.process` beside uploads, requests and forwards: its query, each
deletion of an object and the deletion of the rows are steps of their own, next to every
statement of the calls. The sweep goes by the list it has read: nothing asks again whether an
upload on it was completed meanwhile.
-/
namespace Birgap.Messaging.OrphanSweep

set_option autoImplicit false

open Birgap.Lib Birgap.Lib.Run Birgap.Common Birgap.Messages
open Birgap.Messaging.LiveObjects (HasKey HasKey.congr)
open Birgap.Messaging.Transactions (Consistent MediaStep)

/-- What the query selects of a row. -/
structure StaleMedia where
  id : Id
  bucketKey : String
  thumbnailBucketKey : Option String
  deriving DecidableEq

/-- `MEDIA_PENDING_TIMEOUT_HOURS` in milliseconds. -/
def pendingTimeoutMs (hours : Option Int) : Int := hours.getD 24 * 60 * 60 * 1000

/-- The pending uploads created before an instant. -/
def findStale (cutoff : Time) (db : Db) : List StaleMedia :=
  (db.messageMedia.filter fun m => m.uploadStatus == .pending && decide (m.createdAt < cutoff)).map
    fun m => { id := m.id, bucketKey := m.bucketKey, thumbnailBucketKey := m.thumbnailBucketKey }

structure R2Error where
  name : String
  httpStatusCode : Option Nat

/-- `tryDeleteR2Object`, given how the call of the bucket ended. -/
def tryDeleteR2Object : Except R2Error Unit → Bool
  | .ok () => true
  | .error e => e.name == "NoSuchKey" || e.httpStatusCode == some 404

/-- How far a sweep has come: about to delete the main object of a row, its thumbnail, or the
rows; `rest` are the rows behind it in the loop. -/
inductive Sweep where
  | idle
  | main (m : StaleMedia) (rest : List StaleMedia) (reclaimableIds : List Id)
  | thumbnail (m : StaleMedia) (key : String) (mainOk : Bool) (rest : List StaleMedia)
      (reclaimableIds : List Id)
  | removing (reclaimableIds : List Id)
  deriving DecidableEq

/-- The head of the loop. -/
def Sweep.next (reclaimableIds : List Id) : List StaleMedia → Sweep
  | [] => if reclaimableIds.isEmpty then .idle else .removing reclaimableIds
  | m :: rest => .main m rest reclaimableIds

/-- The end of a round of the loop: a row is reclaimed when its objects are gone. -/
def Sweep.settle (m : StaleMedia) (ok : Bool) (rest : List StaleMedia) (reclaimableIds : List Id) :
    Sweep :=
  .next (if ok then reclaimableIds ++ [m.id] else reclaimableIds) rest

def Sweep.delete (result : Except R2Error Unit) : Sweep → Sweep
  | .main m rest ids =>
      match truthy m.thumbnailBucketKey with
      | some key => .thumbnail m key (tryDeleteR2Object result) rest ids
      | none => .settle m (tryDeleteR2Object result) rest ids
  | .thumbnail m _ mainOk rest ids => .settle m (mainOk && tryDeleteR2Object result) rest ids
  | w => w

/-- The calls, and the sweep: its worker takes one job at a time. -/
structure State where
  messaging : Transactions.State
  sweep : Sweep

/-- A statement of a call, or of the sweep. The query answers in any order; `fail` ends the
sweep where it is. -/
inductive Act where
  | message (a : Transactions.Act)
  | findStale (now : Time) (stale : List StaleMedia)
  | deleteObject (result : Except R2Error Unit)
  | deleteMany
  | fail

def State.db (s : State) : Db := s.messaging.db

def keyInUse (key : String) (db : Db) : Bool :=
  db.messageMedia.any fun m => m.bucketKey == key || m.thumbnailBucketKey == some key

/-- The key issued for an upload holds a new random UUID, so no row has it. -/
def issuable (db : Db) : Transactions.Act → Bool
  | .initUpload _ _ _ presigned _ => !keyInUse presigned.bucketKey db
  | _ => true

def removeRows (ids : List Id) (db : Db) : Db :=
  { db with messageMedia := db.messageMedia.filter fun m => !ids.contains m.id }

def step (hours : Option Int) (s : State) : Act → State
  | .message a =>
      if issuable s.db a then { s with messaging := Transactions.step s.messaging a } else s
  | .findStale now stale =>
      match s.sweep with
      | .idle =>
          if stale.isPerm (OrphanSweep.findStale (now - pendingTimeoutMs hours) s.db) then
            { s with sweep := .next [] stale }
          else s
      | _ => s
  | .deleteObject result => { s with sweep := s.sweep.delete result }
  | .deleteMany =>
      match s.sweep with
      | .removing ids =>
          -- the statement waits for the transactions that have one of the rows locked
          if ids.any fun id => s.messaging.locks.any (·.1 == .mediaId id) then s
          else
            { messaging := { s.messaging with db := removeRows ids s.messaging.db }
              sweep := .idle }
      | _ => s
  | .fail => { s with sweep := .idle }

/-- No call and no sweep has begun. -/
def start (db : Db) : State := { messaging := Transactions.idle db, sweep := .idle }

/-! ## What is asked -/

/-- The object the next deletion of the sweep is about. -/
def Sweep.target : Sweep → Option String
  | .main m _ _ => some m.bucketKey
  | .thumbnail _ key _ _ _ => some key
  | _ => none

/-- A row that is gone after the step was neither complete nor bound before it, and an object
the step deletes is of no complete row. -/
structure Spares (hours : Option Int) (s : State) (a : Act) : Prop where
  rows : ∀ r ∈ s.db.messageMedia,
    (∀ r' ∈ (step hours s a).db.messageMedia, r'.id ≠ r.id) →
    r.uploadStatus ≠ .complete ∧ r.messageId = none
  objects : ∀ result key, a = .deleteObject result → s.sweep.target = some key →
    ∀ r ∈ s.db.messageMedia, r.uploadStatus = .complete → ¬ HasKey r key

/-! ## When it holds -/

/-- The listed rows that have objects left to delete. -/
def Sweep.stale : Sweep → List StaleMedia
  | .main m rest _ => m :: rest
  | .thumbnail m _ _ rest _ => m :: rest
  | _ => []

def Sweep.reclaimableIds : Sweep → List Id
  | .idle => []
  | .main _ _ ids => ids
  | .thumbnail _ _ _ _ ids => ids
  | .removing ids => ids

/-- The rows the sweep has listed and has not decided to retain. -/
def Sweep.claimed (w : Sweep) : List Id := w.stale.map (·.id) ++ w.reclaimableIds

/-- No upload is completed that the sweep under way has claimed. -/
def Unclaimed (s : State) : Act → Prop
  | .message (.completeMedia pid _) => ∀ mediaId dto,
      s.messaging.calls pid = .completing mediaId dto → mediaId ∉ s.sweep.claimed
  | _ => True

/-! ## The invariant -/

/-- A pending upload shares its keys with no other row. -/
def Unshared (rows : List MessageMedia) : Prop :=
  ∀ u ∈ rows, u.uploadStatus = .pending → ∀ q ∈ rows, q ≠ u → ∀ key, HasKey u key → ¬ HasKey q key

/-- What the calls leave behind: ids are unique, a bound row is complete and belongs to the
sender of its message, and a pending upload has its keys for itself. -/
structure Sound (db : Db) : Prop where
  messageIds : Rows.Unique (·.id) db.messages
  mediaIds : Rows.Unique (·.id) db.messageMedia
  consistent : Consistent db
  unshared : Unshared db.messageMedia

/-- The keys of a row are those of a complete one. -/
def FromComplete (rows : List MessageMedia) (y : MessageMedia) : Prop :=
  ∃ p ∈ rows, p.uploadStatus = .complete ∧ keysOf p = keysOf y

/-- The listed row is still there, pending. -/
def Listed (rows : List MessageMedia) (m : StaleMedia) : Prop :=
  ∃ r ∈ rows, r.id = m.id ∧ r.uploadStatus = .pending ∧
    keysOf r = (m.bucketKey, m.thumbnailBucketKey)

def Waiting (rows : List MessageMedia) (id : Id) : Prop :=
  ∃ r ∈ rows, r.id = id ∧ r.uploadStatus = .pending

structure SweepOk (rows : List MessageMedia) (w : Sweep) : Prop where
  stale : ∀ m ∈ w.stale, Listed rows m
  reclaimable : ∀ id ∈ w.reclaimableIds, Waiting rows id
  target : ∀ key, w.target = some key →
    ∃ m ∈ w.stale, m.bucketKey = key ∨ m.thumbnailBucketKey = some key

structure Inv (s : State) : Prop where
  messaging : Transactions.Inv False s.messaging
  consistent : Consistent s.db
  unshared : Unshared s.db.messageMedia
  sources : ∀ pid, ∀ y ∈ (s.messaging.calls pid).sources, FromComplete s.db.messageMedia y
  sweep : SweepOk s.db.messageMedia s.sweep

theorem sweepOk_idle (rows : List MessageMedia) : SweepOk rows .idle := by
  refine ⟨?_, ?_, ?_⟩
  · intro m hm
    cases hm
  · intro id hid
    cases hid
  · intro key hkey
    cases hkey

theorem start_inv {db : Db} (h : Sound db) : Inv (start db) where
  messaging := Transactions.inv_idle False h.messageIds h.mediaIds
  consistent := h.consistent
  unshared := h.unshared
  sources pid y hy := by cases hy
  sweep := sweepOk_idle _

/-! ## The steps of the sweep -/

section Sweep

variable {rows rows' : List MessageMedia} {w : Sweep} {ids : List Id}

/-- A sweep goes on where the rows it has claimed are still there as they were. -/
theorem SweepOk.kept (h : SweepOk rows w)
    (hk : ∀ r ∈ rows, r.uploadStatus = .pending → r.id ∈ w.claimed → r ∈ rows') :
    SweepOk rows' w := by
  refine ⟨?_, ?_, h.target⟩
  · intro m hm
    obtain ⟨r, hr, hid, hpending, hkeys⟩ := h.stale m hm
    have hclaimed : r.id ∈ w.claimed := by
      rw [hid]
      exact List.mem_append_left _ (List.mem_map_of_mem hm)
    exact ⟨r, hk r hr hpending hclaimed, hid, hpending, hkeys⟩
  · intro id hid
    obtain ⟨r, hr, rfl, hpending⟩ := h.reclaimable id hid
    exact ⟨r, hk r hr hpending (List.mem_append_right _ hid), rfl, hpending⟩

theorem SweepOk.next {stale : List StaleMedia} (hs : ∀ m ∈ stale, Listed rows m)
    (hr : ∀ id ∈ ids, Waiting rows id) : SweepOk rows (.next ids stale) := by
  cases stale with
  | nil =>
      simp only [Sweep.next]
      split
      · exact sweepOk_idle rows
      · exact ⟨hs, hr, fun key hkey => by cases hkey⟩
  | cons m rest =>
      refine ⟨hs, hr, ?_⟩
      intro key hkey
      exact ⟨m, List.mem_cons_self, .inl (Option.some.inj hkey)⟩

theorem SweepOk.settle {m : StaleMedia} {rest : List StaleMedia} (ok : Bool)
    (hs : ∀ x ∈ m :: rest, Listed rows x) (hr : ∀ id ∈ ids, Waiting rows id) :
    SweepOk rows (.settle m ok rest ids) := by
  refine .next (fun x hx => hs x (List.mem_cons_of_mem _ hx)) ?_
  intro id hid
  cases ok with
  | false => exact hr id hid
  | true =>
      rcases List.mem_append.mp hid with hid | hid
      · exact hr id hid
      · obtain rfl := List.mem_singleton.mp hid
        obtain ⟨r, hrow, hrid, hpending, _⟩ := hs m List.mem_cons_self
        exact ⟨r, hrow, hrid, hpending⟩

theorem SweepOk.delete (h : SweepOk rows w) (result : Except R2Error Unit) :
    SweepOk rows (w.delete result) := by
  cases w with
  | idle => exact h
  | removing ids => exact h
  | main m rest ids =>
      simp only [Sweep.delete]
      split
      · rename_i key hthumb
        refine ⟨h.stale, h.reclaimable, ?_⟩
        intro key' hkey
        obtain rfl : key = key' := Option.some.inj hkey
        exact ⟨m, List.mem_cons_self, .inr (truthy_some hthumb)⟩
      · exact .settle _ h.stale h.reclaimable
  | thumbnail m key mainOk rest ids => exact .settle _ h.stale h.reclaimable

theorem findStale_listed {cutoff : Time} {db : Db} {m : StaleMedia}
    (h : m ∈ findStale cutoff db) : Listed db.messageMedia m := by
  obtain ⟨r, hr, rfl⟩ := List.mem_map.mp h
  obtain ⟨hr, hsel⟩ := List.mem_filter.mp hr
  simp only [Bool.and_eq_true, beq_iff_eq] at hsel
  exact ⟨r, hr, rfl, hsel.1, rfl⟩

/-- The object about to be deleted is of no complete row. -/
theorem SweepOk.target_spared (h : SweepOk rows w) (hu : Unshared rows) {key : String}
    (hkey : w.target = some key) {q : MessageMedia} (hq : q ∈ rows)
    (hcomplete : q.uploadStatus = .complete) : ¬ HasKey q key := by
  obtain ⟨m, hm, hmkey⟩ := h.target key hkey
  obtain ⟨u, hu', _, hpending, hkeys⟩ := h.stale m hm
  have hukey : HasKey u key := by
    obtain ⟨hb, ht⟩ := Prod.mk.inj hkeys
    rcases hmkey with hmkey | hmkey
    · exact .inl (hb.trans hmkey)
    · exact .inr (ht.trans hmkey)
  refine hu u hu' hpending q hq ?_ key hukey
  intro heq
  rw [heq, hpending] at hcomplete
  cases hcomplete

end Sweep

/-! ## The final deletion -/

section Removal

variable {s : State} {ids : List Id}

theorem mem_removeRows {db : Db} {r : MessageMedia} :
    r ∈ (removeRows ids db).messageMedia ↔ r ∈ db.messageMedia ∧ r.id ∉ ids := by
  unfold removeRows
  simp

/-- Rows the sweep has claimed are neither complete nor bound. -/
theorem Inv.waiting (h : Inv s) {r : MessageMedia} (hr : r ∈ s.db.messageMedia)
    (hw : Waiting s.db.messageMedia r.id) : r.uploadStatus ≠ .complete ∧ r.messageId = none := by
  obtain ⟨r₀, hr₀, hid, hpending⟩ := hw
  obtain rfl := h.messaging.mediaIds.eq hr₀ hr hid
  have hcomplete : r₀.uploadStatus ≠ .complete := by
    rw [hpending]
    decide
  refine ⟨hcomplete, ?_⟩
  cases hbound : r₀.messageId with
  | none => rfl
  | some messageId => exact absurd (h.consistent r₀ hr messageId hbound).1 hcomplete

/-- Complete rows outlast the deletion. -/
theorem Inv.complete_kept (h : Inv s) (hw : ∀ id ∈ ids, Waiting s.db.messageMedia id)
    {r : MessageMedia} (hr : r ∈ s.db.messageMedia) (hc : r.uploadStatus = .complete) :
    r ∈ (removeRows ids s.db).messageMedia := by
  refine mem_removeRows.mpr ⟨hr, ?_⟩
  intro hid
  exact (h.waiting hr (hw r.id hid)).1 hc

/-- What the calls have secured outlasts it with them. -/
theorem Inv.calls_kept (h : Inv s) (hw : ∀ id ∈ ids, Waiting s.db.messageMedia id) (pid : Nat) :
    Transactions.CallOk False (removeRows ids s.db) s.messaging.locks pid
      (s.messaging.calls pid) := by
  have hok := h.messaging.calls pid
  have howned : ∀ {t}, Transactions.Owned t s.db → Transactions.Owned t (removeRows ids s.db) := by
    intro t ho id hid
    obtain ⟨r, hr, hrid, huser, hstatus⟩ := ho id hid
    exact ⟨r, h.complete_kept hw hr hstatus, hrid, huser, hstatus⟩
  have hinserts : ∀ {t m}, Transactions.Inserts s.messaging.locks pid t m s.db →
      Transactions.Inserts s.messaging.locks pid t m (removeRows ids s.db) :=
    fun hi => ⟨hi.locked, hi.fresh, hi.sender⟩
  cases hcall : s.messaging.calls pid with
  | owned t n replyTo =>
      rw [hcall] at hok
      exact howned hok
  | inserted t n new =>
      rw [hcall] at hok
      exact ⟨howned hok.1, hinserts hok.2⟩
  | attached t n new w =>
      rw [hcall] at hok
      obtain ⟨hi, ha, _⟩ := hok
      refine ⟨hinserts hi, ⟨ha.boundLocked, ?_, ha.clonesLocked, ?_, ha.clonesUnique, ha.clones⟩,
        fun hf => hf.elim⟩
      · intro id hid
        obtain ⟨r, hr, hrid, huser, hstatus, hfree⟩ := ha.bound id hid
        exact ⟨r, h.complete_kept hw hr hstatus, hrid, huser, hstatus, hfree⟩
      · intro c hc r hr
        exact ha.clonesFresh c hc r (mem_removeRows.mp hr).1
  | enqueueing t m created => exact fun _ hf => hf.elim
  | _ => trivial

theorem Inv.removeRows (h : Inv s) (hw : ∀ id ∈ ids, Waiting s.db.messageMedia id) :
    Inv { messaging := { s.messaging with db := removeRows ids s.messaging.db }
          sweep := .idle } := by
  have hsub : ∀ r ∈ (OrphanSweep.removeRows ids s.db).messageMedia, r ∈ s.db.messageMedia :=
    fun r hr => (mem_removeRows.mp hr).1
  refine ⟨⟨h.messaging.exclusive, h.messaging.messageIds, h.messaging.mediaIds.filter _,
    h.calls_kept hw⟩, ?_, ?_, ?_, sweepOk_idle _⟩
  · intro r hr
    exact h.consistent r (hsub r hr)
  · intro u hu hpending q hq
    exact h.unshared u (hsub u hu) hpending q (hsub q hq)
  · intro pid y hy
    obtain ⟨p, hp, hc, hkeys⟩ := h.sources pid y hy
    exact ⟨p, h.complete_kept hw hp hc, hc, hkeys⟩

end Removal

/-! ## The statements of the calls -/

/-- A row after a statement is an old one, unchanged if it is pending, or one that is not
pending and has the keys of a complete one. -/
inductive Origin (rows : List MessageMedia) (q' : MessageMedia) : Prop where
  | old {q : MessageMedia} (hq : q ∈ rows) (hid : q.id = q'.id) (hkeys : keysOf q = keysOf q')
      (hp : q'.uploadStatus = .pending → q' = q)
  | clone (hc : FromComplete rows q') (hp : q'.uploadStatus ≠ .pending)

section Statements

variable {rows rows' : List MessageMedia}

theorem Unshared.of_origin (h : Unshared rows) (hu : Rows.Unique (·.id) rows')
    (ho : ∀ q' ∈ rows', Origin rows q') : Unshared rows' := by
  intro u hu' hpending q' hq' hne key huk hqk
  cases ho u hu' with
  | clone _ hp => exact hp hpending
  | @old u₀ hmem _ _ hp =>
      obtain rfl := hp hpending
      cases ho q' hq' with
      | @old q hq hid hkeys _ =>
          refine h u hmem hpending q hq ?_ key huk ((HasKey.congr hkeys).mpr hqk)
          intro heq
          rw [heq] at hid
          exact hne (hu.eq hq' hu' hid.symm)
      | clone hc _ =>
          obtain ⟨p, hp, hcomplete, hkeys⟩ := hc
          refine h u hmem hpending p hp ?_ key huk ((HasKey.congr hkeys).mpr hqk)
          intro heq
          rw [heq, hpending] at hcomplete
          cases hcomplete

/-- A row whose keys nobody has. -/
theorem Unshared.append (h : Unshared rows) {r : MessageMedia}
    (hr : ∀ q ∈ rows, ∀ key, HasKey r key → ¬ HasKey q key) : Unshared (rows ++ [r]) := by
  intro u hu hpending q hq hne key huk hqk
  rcases List.mem_append.mp hu with hold | hnew
  · rcases List.mem_append.mp hq with hq | hq
    · exact h u hold hpending q hq hne key huk hqk
    · obtain rfl := List.mem_singleton.mp hq
      exact hr u hold key hqk huk
  · obtain rfl := List.mem_singleton.mp hnew
    rcases List.mem_append.mp hq with hq | hq
    · exact hr q hq key huk hqk
    · exact hne (List.mem_singleton.mp hq)

theorem not_hasKey_of_unused {key : String} {db : Db} (h : keyInUse key db = false)
    {q : MessageMedia} (hq : q ∈ db.messageMedia) : ¬ HasKey q key := by
  have hq' := List.any_eq_false.mp h q hq
  simp only [Bool.or_eq_true, beq_iff_eq, not_or] at hq'
  intro hk
  rcases hk with hb | ht
  · exact hq'.1 hb
  · exact hq'.2 ht

variable {s : State} {a : Transactions.Act}

/-- What a transaction binds is complete. -/
theorem Inv.bound_complete (h : Inv s) {pid : Nat} {t : Transactions.Task}
    {n : Transactions.Numbered} {new : Transactions.NewMessage} {w : Transactions.MediaWrites}
    (hc : s.messaging.calls pid = .attached t n new w) {r : MessageMedia}
    (hr : r ∈ s.db.messageMedia) (hb : w.bound.contains r.id = true) :
    r.uploadStatus = .complete := by
  have hok := h.messaging.calls pid
  rw [hc] at hok
  exact (hok.2.1.unbound h.messaging hr hb).2.1

theorem Inv.origin (h : Inv s) (hm : MediaStep s.messaging a rows') :
    (∃ now mediaId userId presigned dto,
      a = .initUpload now mediaId userId presigned dto ∧
      rows' = s.db.messageMedia ++ [pendingMedia now mediaId userId presigned dto]) ∨
    ∀ q' ∈ rows', Origin s.db.messageMedia q' := by
  cases hm with
  | same hr =>
      right
      intro q hq
      rw [hr] at hq
      exact .old hq rfl rfl fun _ => rfl
  | @announced now mediaId userId presigned dto ha hr =>
      exact .inl ⟨now, mediaId, userId, presigned, dto, ha, hr⟩
  | completed ha hc hr =>
      right
      intro q' hq'
      rw [hr] at hq'
      obtain ⟨q, hq, rfl⟩ := Rows.mem_updateMany.mp hq'
      split
      · exact .old hq rfl rfl fun hp => by cases hp
      · exact .old hq rfl rfl fun _ => rfl
  | @committed pid t n new w hc hr =>
      right
      intro q' hq'
      rw [hr] at hq'
      rcases List.mem_append.mp hq' with hq' | hq'
      · obtain ⟨q, hq, rfl⟩ := Rows.mem_updateMany.mp hq'
        split
        · rename_i hb
          refine .old hq rfl rfl ?_
          intro hpending
          have hcomplete : q.uploadStatus = .complete := h.bound_complete hc hq hb
          have hpending' : q.uploadStatus = .pending := hpending
          rw [hcomplete] at hpending'
          cases hpending'
        · exact .old hq rfl rfl fun _ => rfl
      · have hok := h.messaging.calls pid
        rw [hc] at hok
        have hstatus := (hok.2.1.clones q' hq').2.1
        refine .clone (h.sources pid q' ?_) ?_
        · rw [hc]
          exact List.mem_append_right _ hq'
        · rw [hstatus]
          decide

/-- A complete row stays one and keeps its keys. -/
theorem complete_row (hm : MediaStep s.messaging a rows') {y : MessageMedia}
    (hy : FromComplete s.db.messageMedia y) : FromComplete rows' y := by
  obtain ⟨p, hp, hcomplete, hkeys⟩ := hy
  cases hm with
  | same hr =>
      rw [hr]
      exact ⟨p, hp, hcomplete, hkeys⟩
  | announced ha hr =>
      rw [hr]
      exact ⟨p, List.mem_append_left _ hp, hcomplete, hkeys⟩
  | completed ha hc hr =>
      rw [hr]
      refine ⟨_, Rows.mem_updateMany.mpr ⟨p, hp, rfl⟩, ?_, ?_⟩
      · split
        · rfl
        · exact hcomplete
      · split <;> exact hkeys
  | committed hc hr =>
      rw [hr]
      refine ⟨_, List.mem_append_left _ (Rows.mem_updateMany.mpr ⟨p, hp, rfl⟩), ?_, ?_⟩
      · split <;> exact hcomplete
      · split <;> exact hkeys

/-- A pending row stays as it is, unless it is completed. -/
theorem Inv.pending_row (h : Inv s) (hm : MediaStep s.messaging a rows') {r : MessageMedia}
    (hr : r ∈ s.db.messageMedia) (hpending : r.uploadStatus = .pending)
    (hc : ∀ pid now mediaId dto, a = .completeMedia pid now →
      s.messaging.calls pid = .completing mediaId dto → mediaId ≠ r.id) : r ∈ rows' := by
  cases hm with
  | same hrows =>
      rw [hrows]
      exact hr
  | announced ha hrows =>
      rw [hrows]
      exact List.mem_append_left _ hr
  | @completed pid now mediaId dto ha hcall hrows =>
      have hne := hc pid now mediaId dto ha hcall
      rw [hrows]
      refine Rows.mem_updateMany.mpr ⟨r, hr, ?_⟩
      rw [if_neg (by simpa using Ne.symm hne)]
  | @committed pid t n new w hcall hrows =>
      rw [hrows]
      refine List.mem_append_left _ (Rows.mem_updateMany.mpr ⟨r, hr, ?_⟩)
      rw [if_neg]
      intro hb
      have hcomplete := h.bound_complete hcall hr hb
      rw [hpending] at hcomplete
      cases hcomplete

theorem message_inv (hours : Option Int) (h : Inv s) (hc : Unclaimed s (.message a)) :
    Inv (step hours s (.message a)) := by
  simp only [step]
  split
  · rename_i hissuable
    have hok := Transactions.step_ok h.messaging a fun hf => hf.elim
    obtain ⟨hmedia, hsources⟩ := Transactions.exec_media s.messaging a
    refine ⟨hok.inv, hok.consistent h.consistent, ?_, ?_, ?_⟩
    · rcases h.origin hmedia with ⟨now, mediaId, userId, presigned, dto, rfl, hrows⟩ | horigin
      · show Unshared (Transactions.exec s.messaging _).1.db.messageMedia
        rw [hrows]
        refine h.unshared.append ?_
        intro q hq key hk
        rcases hk with hb | ht
        · obtain rfl : presigned.bucketKey = key := hb
          exact not_hasKey_of_unused (by simpa [issuable] using hissuable) hq
        · cases ht
      · exact h.unshared.of_origin hok.inv.mediaIds horigin
    · intro pid y hy
      refine complete_row hmedia ?_
      rcases hsources pid y hy with ⟨x, hx, hkeys⟩ | ⟨hy, hbound⟩
      · obtain ⟨p, hp, hcomplete, hpx⟩ := h.sources pid x hx
        exact ⟨p, hp, hcomplete, hpx.trans hkeys⟩
      · obtain ⟨messageId, hid⟩ := Option.isSome_iff_exists.mp hbound
        exact ⟨y, hy, (h.consistent y hy messageId hid).1, rfl⟩
    · refine h.sweep.kept ?_
      intro r hr hpending hclaimed
      refine h.pending_row hmedia hr hpending ?_
      intro pid now mediaId dto ha hcall heq
      subst ha
      rw [heq] at hcall
      exact hc r.id dto hcall hclaimed
  · exact h

end Statements

/-! ## Every step -/

section Steps

variable {hours : Option Int} {s : State}

theorem Inv.sweep_to (h : Inv s) {w : Sweep} (hw : SweepOk s.db.messageMedia w) :
    Inv { s with sweep := w } :=
  ⟨h.messaging, h.consistent, h.unshared, h.sources, hw⟩

theorem step_inv (a : Act) (h : Inv s) (hc : Unclaimed s a) : Inv (step hours s a) := by
  cases a with
  | message a => exact message_inv hours h hc
  | findStale now stale =>
      simp only [step]
      split
      · split
        · rename_i hperm
          refine h.sweep_to (.next ?_ fun id hid => by cases hid)
          intro m hm
          exact findStale_listed ((List.isPerm_iff.mp hperm).mem_iff.mp hm)
        · exact h
      · exact h
  | deleteObject result => exact h.sweep_to (h.sweep.delete result)
  | deleteMany =>
      simp only [step]
      split
      · rename_i ids hsweep
        split
        · exact h
        · have hreclaimable := h.sweep.reclaimable
          rw [hsweep] at hreclaimable
          exact h.removeRows hreclaimable
      · exact h
  | fail => exact h.sweep_to (sweepOk_idle _)

/-- No statement of a call takes a row away. -/
theorem row_kept (h : Inv s) {a : Act} (ha : a ≠ .deleteMany) {r : MessageMedia}
    (hr : r ∈ s.db.messageMedia) : ∃ r' ∈ (step hours s a).db.messageMedia, r'.id = r.id := by
  cases a with
  | message a =>
      simp only [step]
      split
      · have hok := Transactions.step_ok h.messaging a fun hf => hf.elim
        obtain ⟨r', hr', hprogress, _⟩ := hok.evolves.rows r hr
        exact ⟨r', hr', hprogress.id⟩
      · exact ⟨r, hr, rfl⟩
  | findStale now stale =>
      simp only [step]
      split
      · split <;> exact ⟨r, hr, rfl⟩
      · exact ⟨r, hr, rfl⟩
  | deleteObject result => exact ⟨r, hr, rfl⟩
  | deleteMany => exact absurd rfl ha
  | fail => exact ⟨r, hr, rfl⟩

theorem spares (a : Act) (h : Inv s) : Spares hours s a where
  rows r hr hgone := by
    by_cases ha : a = .deleteMany
    · subst ha
      simp only [step] at hgone
      split at hgone
      · rename_i ids hsweep
        split at hgone
        · exact absurd rfl (hgone r hr)
        · have hreclaimable := h.sweep.reclaimable
          rw [hsweep] at hreclaimable
          refine h.waiting hr (hreclaimable r.id ?_)
          by_contra hid
          exact hgone r (mem_removeRows.mpr ⟨hr, hid⟩) rfl
      · exact absurd rfl (hgone r hr)
    · obtain ⟨r', hr', hid⟩ := row_kept h ha hr
      exact absurd hid (hgone r' hr')
  objects _ key _ hkey r hr hcomplete := h.sweep.target_spared h.unshared hkey hr hcomplete

end Steps

/-- The rows the sweep has listed and not given up are still pending: the one whose objects it is
deleting, and those whose objects are gone and that wait for the final deletion. -/
def Holds (s : State) : Prop := ∀ id ∈ s.sweep.claimed, Waiting s.db.messageMedia id

theorem Inv.holds {s : State} (h : Inv s) : Holds s := by
  intro id hid
  rcases List.mem_append.mp hid with hid | hid
  · obtain ⟨m, hm, rfl⟩ := List.mem_map.mp hid
    obtain ⟨r, hr, hrid, hpending, _⟩ := h.sweep.stale m hm
    exact ⟨r, hr, hrid, hpending⟩
  · exact h.sweep.reclaimable id hid

/-- As long as no upload is completed between the query that lists it and the end of that
sweep's work on it, no sweep deletes a row that is complete or bound, or an object of a
complete row, whatever else the calls do in between; and a row whose objects it deletes stays
pending until the sweep deletes the row or gives it up. -/
theorem sweep_spares (hours : Option Int) {db : Db} (h : Sound db) (acts : List Act)
    (hc : Along (step hours) Unclaimed (start db) acts) :
    Along (step hours) (Spares hours) (start db) acts ∧ Always (step hours) Holds (start db) acts := by
  constructor
  · exact along_of_along (fun _ a h hc => step_inv a h hc) (fun _ a h _ => spares a h) acts (start db)
      (start_inv h) hc
  · exact (always_of_along (fun _ a h hc => step_inv a h hc) acts (start db) (start_inv h) hc).mono
      fun _ hi => hi.holds

/-- The store before anything was sent or uploaded. -/
theorem sound_start (db : Db) : Sound (Transactions.start db).db := by
  refine ⟨List.nodup_nil, List.nodup_nil, ?_, ?_⟩
  · intro r hr
    cases hr
  · intro u hu
    cases hu

def pictureDto : InitMediaDto :=
  { mediaType := .image, filename := "cat.png", mimeType := "image/png", sizeBytes := 1
    mediaCiphertextHash := "h" }

/-- Alice announces an upload, and a day later a sweep lists it. -/
def listed : List Act :=
  [.message (.initUpload 0 "p1" "alice" ⟨"https://bucket/p1", "media/alice/p1.png"⟩ pictureDto),
   .findStale 90000000 [⟨"p1", "media/alice/p1.png", none⟩]]

/-- The upload is completed while the sweep is at its first deletion. -/
def completedMeanwhile : List Act :=
  listed ++
  [.message (.completeUpload 0 "alice" "p1" ⟨1⟩), .message (.completeMedia 0 90000001),
   .deleteObject (.ok ())]

def emptyDb : Db := (Transactions.start Messaging.sampleDb).db

theorem completed_upload_swept :
    ¬ ∀ (hours : Option Int) (db : Db) (acts : List Act), Sound db →
      Along (step hours) (Spares hours) (start db) acts := by
  intro h
  have hrun := h none emptyDb completedMeanwhile (sound_start _)
  have hlast := (hrun (listed ++ [.message (.completeUpload 0 "alice" "p1" ⟨1⟩),
    .message (.completeMedia 0 90000001)]) (.deleteObject (.ok ())) (List.prefix_refl _)).objects
      (.ok ()) "media/alice/p1.png" rfl (by decide)
  revert hlast
  unfold HasKey
  decide

/-- Another upload is completed beside the sweep. -/
def otherCompleted : List Act :=
  [.message (.initUpload 89999990 "p2" "bob" ⟨"https://bucket/p2", "media/bob/p2.png"⟩ pictureDto)] ++
  listed ++
  [.message (.completeUpload 0 "bob" "p2" ⟨1⟩), .deleteObject (.ok ()),
   .message (.completeMedia 0 90000001), .deleteMany]

theorem other_upload_spared :
    ((run (step none) (start emptyDb) otherCompleted).db.messageMedia.map (·.id) = ["p2"]) ∧
    Along (step none) (Spares none) (start emptyDb) otherCompleted ∧
    Always (step none) Holds (start emptyDb) otherCompleted := by
  refine ⟨by decide, sweep_spares none (sound_start _) otherCompleted ?_⟩
  simp only [otherCompleted, listed, List.cons_append, List.nil_append, along_cons]
  refine ⟨trivial, trivial, trivial, trivial, trivial, ?_, trivial, along_nil _ _ _⟩
  intro mediaId dto hcall
  obtain ⟨rfl, _⟩ := Transactions.Call.completing.inj hcall
  decide

end Birgap.Messaging.OrphanSweep
