import Birgap.Messages.Delete
import Birgap.Common.Crypto

/-!
# Reclaiming the objects of a deleted message

`MediaService.cleanupMessageMedia`. Forwarded copies share the object of their source, so a
key is scheduled for deletion only if a count finds no row of another message with it. Both
counts look at the `bucketKey` column, also the one for a thumbnail, and neither asks
whether the other message is deleted.
-/
namespace Birgap.Messages

set_option autoImplicit false

open Birgap.Lib Birgap.Common

def mediaOf (messageId : Id) (db : Db) : List MessageMedia :=
  db.messageMedia.filter (·.messageId == some messageId)

/-- The count `{ bucketKey: key, messageId: { not: messageId } }`. -/
def otherRefs (key : String) (messageId : Id) (db : Db) : Nat :=
  db.messageMedia.countP fun r => r.bucketKey == key && sqlNe r.messageId messageId

/-- One round of the loop, run alone: the keys it adds jobs for. -/
def cleanupRow (messageId : Id) (db : Db) (m : MessageMedia) : List String :=
  (if otherRefs m.bucketKey messageId db = 0 then [m.bucketKey] else []) ++
    match truthy m.thumbnailBucketKey with
    | none => []
    | some key => if otherRefs key messageId db = 0 then [key] else []

/-- `cleanupMessageMedia`, run alone with every job added. -/
def cleanupMessageMedia (messageId : Id) (db : Db) : List String :=
  (mediaOf messageId db).flatMap (cleanupRow messageId db)

/-- No row of another message has the key; unbound rows are not counted. -/
theorem otherRefs_eq_zero {key : String} {messageId : Id} {db : Db} :
    otherRefs key messageId db = 0 ↔
      ∀ r ∈ db.messageMedia, r.bucketKey = key → ∀ id, r.messageId = some id → id = messageId := by
  unfold otherRefs
  rw [List.countP_eq_zero]
  constructor
  · intro h r hr hkey id hid
    by_contra hne
    apply h r hr
    simp [hkey, hid, sqlNe, hne]
  · intro h r hr hsel
    simp only [Bool.and_eq_true, beq_iff_eq] at hsel
    obtain ⟨hkey, hother⟩ := hsel
    cases hid : r.messageId with
    | none => simp [hid, sqlNe] at hother
    | some id =>
        rw [h r hr hkey id hid] at hid
        simp [hid, sqlNe] at hother

theorem mem_mediaOf {messageId : Id} {db : Db} {r : MessageMedia} :
    r ∈ mediaOf messageId db ↔ r ∈ db.messageMedia ∧ r.messageId = some messageId := by
  rw [mediaOf, List.mem_filter, beq_iff_eq]

/-- The key of an attachment is scheduled exactly when no other message has a row with it. -/
theorem mem_cleanupMessageMedia {messageId : Id} {db : Db} {r : MessageMedia}
    (hr : r ∈ mediaOf messageId db) :
    r.bucketKey ∈ cleanupMessageMedia messageId db ↔ otherRefs r.bucketKey messageId db = 0 := by
  constructor
  · intro h
    obtain ⟨m, _, hm⟩ := List.mem_flatMap.mp h
    unfold cleanupRow at hm
    rcases List.mem_append.mp hm with hm | hm
    · split at hm
      · rename_i hzero
        rw [List.mem_singleton.mp hm]
        exact hzero
      · cases hm
    · split at hm
      · cases hm
      · split at hm
        · rename_i hzero
          rw [List.mem_singleton.mp hm]
          exact hzero
        · cases hm
  · intro h
    refine List.mem_flatMap.mpr ⟨r, hr, List.mem_append_left _ ?_⟩
    rw [if_pos h]
    exact List.mem_singleton_self _

end Birgap.Messages
