import Birgap.Groups.Fanout
import Birgap.Lib.Slices

/-!
# The chunks of an edit fan-out

The update of the envelopes is an increment, so a device in two slices would count twice and a
device in none would keep its old text. The slices of the loop are disjoint and leave nothing
out, which makes the loop one update of all devices.
-/
namespace Birgap.Groups.EditChunks

set_option autoImplicit false

open Birgap.Lib Birgap.Lib.Slices Birgap.Messages

/-- The condition of the update. -/
def isTarget (messageId : Id) (deviceIds : List Id) (e : MessageEnvelope) : Bool :=
  e.messageId == messageId && deviceIds.contains e.recipientDeviceId

/-- What the update writes. -/
def refreshed (now : Time) (ciphertext : Ciphertext) (e : MessageEnvelope) : MessageEnvelope :=
  { e with ciphertext, envelopeVersion := e.envelopeVersion + 1, updatedAt := now }

/-- `updateMany` over one chunk: the count it reports and the rows it leaves. -/
def updateCounted (now : Time) (messageId : Id) (ciphertext : Ciphertext) (chunk : List Id)
    (rows : List MessageEnvelope) : Nat × List MessageEnvelope :=
  (rows.countP (isTarget messageId chunk), updateChunk now messageId ciphertext chunk rows)

def chunkSize : Nat := 100

/-- The loop of `GroupEditFanoutProcessor.process`: `updatedCount` and the envelopes. -/
def updateInChunks (now : Time) (messageId : Id) (ciphertext : Ciphertext) (deviceIds : List Id)
    (rows : List MessageEnvelope) : Nat × List MessageEnvelope :=
  loop chunkSize (by decide) (fun chunk (updatedCount, rows) =>
    let result := updateCounted now messageId ciphertext chunk rows
    (updatedCount + result.1, result.2)) deviceIds 0 (0, rows)

section Updates

variable {now : Time} {messageId : Id} {ciphertext : Ciphertext} {a b : List Id}
  {rows : List MessageEnvelope}

theorem isTarget_append (e : MessageEnvelope) :
    isTarget messageId (a ++ b) e = (isTarget messageId a e || isTarget messageId b e) := by
  unfold isTarget
  rw [List.contains_append, Bool.and_or_distrib_left]

/-- No envelope belongs to two disjoint lists of devices. -/
theorem isTarget_disjoint (hdisjoint : ∀ d ∈ a, d ∉ b) {e : MessageEnvelope}
    (he : isTarget messageId a e = true) : isTarget messageId b e = false := by
  unfold isTarget at he ⊢
  obtain ⟨_, hmem⟩ := Bool.and_eq_true_iff.mp he
  have hnot : b.contains e.recipientDeviceId = false := by
    rw [List.contains_eq_mem, decide_eq_false_iff_not]
    exact hdisjoint _ (List.contains_iff_mem.mp hmem)
  rw [hnot, Bool.and_false]

theorem updateChunk_nil : updateChunk now messageId ciphertext [] rows = rows := by
  unfold updateChunk
  apply Rows.updateMany_eq_self
  intro e _
  simp

theorem updateChunk_eq : updateChunk now messageId ciphertext a rows =
    rows.map fun e => if isTarget messageId a e then refreshed now ciphertext e else e := rfl

/-- An update leaves the device and the message as they are. -/
theorem isTarget_refreshed (e : MessageEnvelope) :
    isTarget messageId a (refreshed now ciphertext e) = isTarget messageId a e := rfl

/-- Two updates over disjoint devices are one update. -/
theorem updateChunk_updateChunk (hdisjoint : ∀ d ∈ a, d ∉ b) :
    updateChunk now messageId ciphertext b (updateChunk now messageId ciphertext a rows) =
      updateChunk now messageId ciphertext (a ++ b) rows := by
  rw [updateChunk_eq, updateChunk_eq, updateChunk_eq, List.map_map]
  apply List.map_congr_left
  intro e _
  rw [Function.comp_apply, isTarget_append]
  cases ha : isTarget messageId a e with
  | true =>
      rw [if_pos rfl, isTarget_refreshed, isTarget_disjoint hdisjoint ha, Bool.true_or, if_pos rfl]
      exact if_neg Bool.false_ne_true
  | false => rw [if_neg Bool.false_ne_true, Bool.false_or]

/-- What the second update finds is what it would have found before the first. -/
theorem countP_updateChunk (c : List Id) :
    (updateChunk now messageId ciphertext a rows).countP (isTarget messageId c) =
      rows.countP (isTarget messageId c) := by
  rw [updateChunk_eq, List.countP_map]
  apply List.countP_congr
  intro e _
  rw [Function.comp_apply]
  split
  · rw [isTarget_refreshed]
  · exact Iff.rfl

theorem countP_append_target (hdisjoint : ∀ d ∈ a, d ∉ b) :
    rows.countP (isTarget messageId (a ++ b)) =
      rows.countP (isTarget messageId a) + rows.countP (isTarget messageId b) := by
  induction rows with
  | nil => rfl
  | cons e rows ih =>
      have hboth : isTarget messageId a e = true → isTarget messageId b e = false :=
        isTarget_disjoint hdisjoint
      rw [List.countP_cons, List.countP_cons, List.countP_cons, ih, isTarget_append]
      cases ha : isTarget messageId a e with
      | true =>
          rw [hboth ha]
          simp only [Bool.true_or, if_true, Bool.false_eq_true, if_false]
          omega
      | false =>
          simp only [Bool.false_or, Bool.false_eq_true, if_false]
          omega

end Updates

/-- What the loop has done of the devices handed over so far. -/
def Done (now : Time) (messageId : Id) (ciphertext : Ciphertext) (rows : List MessageEnvelope)
    (done : List Id) (s : Nat × List MessageEnvelope) : Prop :=
  s = updateCounted now messageId ciphertext done rows

theorem updateInChunks_eq (now : Time) (messageId : Id) (ciphertext : Ciphertext)
    {deviceIds : List Id} (hdistinct : deviceIds.Nodup) (rows : List MessageEnvelope) :
    updateInChunks now messageId ciphertext deviceIds rows =
      updateCounted now messageId ciphertext deviceIds rows := by
  apply loop_rule (I := Done now messageId ciphertext rows)
  · unfold Done updateCounted
    rw [updateChunk_nil]
    congr 1
    symm
    rw [List.countP_eq_zero]
    intro e _
    simp [isTarget]
  · intro done chunk rest s hall hs
    rw [hall] at hdistinct
    have hdisjoint : ∀ d ∈ done, d ∉ chunk := by
      intro d hd hc
      exact (List.nodup_append.mp (List.nodup_append.mp hdistinct).1).2.2 d hd d hc rfl
    unfold Done at hs ⊢
    rw [hs]
    unfold updateCounted
    dsimp only
    rw [updateChunk_updateChunk hdisjoint, countP_updateChunk, countP_append_target hdisjoint]

/-- The chunks that `editFanout` cuts in advance are the slices of the loop. -/
theorem editFanout_updateInChunks (now : Time) (job : GroupEditFanoutJobData) {db : Db}
    (hdevices : Rows.Unique (·.id) db.devices) :
    editFanout now job db =
      { db with
        messageEnvelopes := (updateInChunks now job.messageId job.ciphertext
          ((targetDevices job.groupId job.senderDeviceId db).map (·.id)) db.messageEnvelopes).2 } := by
  have hdistinct : ((targetDevices job.groupId job.senderDeviceId db).map (·.id)).Nodup :=
    hdevices.filter _
  rw [updateInChunks_eq now job.messageId job.ciphertext hdistinct, editFanout_eq]
  congr 1
  rw [← flatten_editChunks] at hdistinct ⊢
  apply foldl_rule (I := fun done rows =>
    rows = updateChunk now job.messageId job.ciphertext done db.messageEnvelopes)
  · exact updateChunk_nil.symm
  · intro done chunk rest rows hall hrows
    rw [hall] at hdistinct
    rw [hrows]
    apply updateChunk_updateChunk
    intro d hd hc
    exact (List.nodup_append.mp (List.nodup_append.mp hdistinct).1).2.2 d hd d hc rfl

/-- The table and the count after the loop are those of one update of all target devices, which
rewrites their envelopes of the message, once each, and no other. -/
theorem chunked_edit (now : Time) (messageId : Id) (ciphertext : Ciphertext) (deviceIds : List Id)
    (hdistinct : deviceIds.Nodup) (rows : List MessageEnvelope) :
    (updateInChunks now messageId ciphertext deviceIds rows).2 =
      updateChunk now messageId ciphertext deviceIds rows ∧
    (updateInChunks now messageId ciphertext deviceIds rows).2 = rows.map (fun e =>
      if e.messageId = messageId ∧ e.recipientDeviceId ∈ deviceIds then
        { e with ciphertext, envelopeVersion := e.envelopeVersion + 1, updatedAt := now }
      else e) ∧
    (updateInChunks now messageId ciphertext deviceIds rows).1 =
      (rows.filter fun e => e.messageId = messageId ∧ e.recipientDeviceId ∈ deviceIds).length := by
  have htarget : ∀ e, isTarget messageId deviceIds e = true ↔
      e.messageId = messageId ∧ e.recipientDeviceId ∈ deviceIds := by
    intro e
    simp [isTarget]
  rw [updateInChunks_eq now messageId ciphertext hdistinct]
  refine ⟨rfl, ?_, ?_⟩
  · apply List.map_congr_left
    intro e _
    exact if_congr (htarget e) rfl rfl
  · show rows.countP (isTarget messageId deviceIds) = _
    rw [List.countP_eq_length_filter]
    congr 1
    apply List.filter_congr
    intro e _
    rw [Bool.eq_iff_iff, htarget e, decide_eq_true_eq]

def exampleEnvelope (messageId deviceId : Id) : MessageEnvelope :=
  { id := messageId ++ deviceId, messageId, recipientUserId := "u", recipientDeviceId := deviceId
    ciphertext := "old", createdAt := 1, updatedAt := 1 }

/-- Devices in any number. -/
def exampleDevice (i : Nat) : Id := String.ofList (List.replicate i 'd')

theorem exampleDevice_injective : Function.Injective exampleDevice := by
  intro i j h
  have hlength := congrArg String.length h
  simpa [exampleDevice] using hlength

/-- An edit for 250 devices takes three chunks; the envelopes of the first and of the last are
rewritten once each, another message and another device are left alone. -/
theorem chunked_edit_many :
    2 * chunkSize < ((List.range 250).map exampleDevice).length ∧
    updateInChunks 5 "m" "new" ((List.range 250).map exampleDevice)
      [exampleEnvelope "m" (exampleDevice 3), exampleEnvelope "n" (exampleDevice 3),
        exampleEnvelope "m" (exampleDevice 249), exampleEnvelope "m" (exampleDevice 250)] =
      (2, [refreshed 5 "new" (exampleEnvelope "m" (exampleDevice 3)),
        exampleEnvelope "n" (exampleDevice 3),
        refreshed 5 "new" (exampleEnvelope "m" (exampleDevice 249)),
        exampleEnvelope "m" (exampleDevice 250)]) := by
  have hdistinct : ((List.range 250).map exampleDevice).Nodup :=
    List.nodup_range.map exampleDevice_injective
  refine ⟨by simp [chunkSize], Prod.ext ?_ ?_⟩
  · rw [(chunked_edit 5 "m" "new" _ hdistinct _).2.2]
    simp [exampleEnvelope, exampleDevice_injective.eq_iff]
  · rw [(chunked_edit 5 "m" "new" _ hdistinct _).2.1]
    simp [exampleEnvelope, refreshed, exampleDevice_injective.eq_iff]

end Birgap.Groups.EditChunks
