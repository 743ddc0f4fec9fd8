import Birgap.Messages.Edit
import Birgap.Common.Crypto

/-!
# Forwarding a message

The parts of `MessagesService.forward` around its targets: the checks it makes once, the
validation of a target, the key derived for it, and the result recorded for it.
-/
namespace Birgap.Messages

set_option autoImplicit false

open Birgap.Lib Birgap.Lib.Tx Birgap.Common

inductive TargetType where
  | direct
  | group
  deriving DecidableEq

structure ForwardTargetDto where
  type : TargetType
  recipientUserId : Option Id := none
  groupId : Option Id := none
  envelopes : Option (List MessageEnvelopeDto) := none
  ciphertext : Option Ciphertext := none

structure ForwardMessageDto where
  sourceMessageId : Id
  senderDeviceId : Id
  idempotencyKey : String
  targets : List ForwardTargetDto

/-- The entry of a target in the answer; `error` is the error whose message the source
stores. -/
structure ForwardResult where
  targetType : TargetType
  targetId : Id
  success : Bool
  messageId : Option Id := none
  error : Option Err := none

def validateDirectTarget (target : ForwardTargetDto) :
    Except Err (Id × List MessageEnvelopeDto) :=
  match truthy target.recipientUserId with
  | none => .error (.badRequest "recipientUserId is required for direct targets")
  | some recipientUserId =>
      match target.envelopes.getD [] with
      | [] => .error (.badRequest "envelopes are required for direct targets")
      | e :: es => .ok (recipientUserId, e :: es)

def validateGroupTarget (target : ForwardTargetDto) : Except Err (Id × Ciphertext) :=
  match truthy target.groupId with
  | none => .error (.badRequest "groupId is required for group targets")
  | some groupId =>
      match target.ciphertext with
      | none => .error (.badRequest "ciphertext is required for group targets")
      | some ciphertext => .ok (groupId, ciphertext)

theorem validateDirectTarget_ok {target : ForwardTargetDto} {recipientUserId : Id}
    {envelopes : List MessageEnvelopeDto}
    (h : validateDirectTarget target = .ok (recipientUserId, envelopes)) :
    target.recipientUserId = some recipientUserId := by
  unfold validateDirectTarget at h
  split at h
  · cases h
  · rename_i x hx
    split at h
    · cases h
    · obtain ⟨rfl, _⟩ := Prod.mk.inj (Except.ok.inj h)
      exact truthy_some hx

theorem validateGroupTarget_ok {target : ForwardTargetDto} {groupId : Id} {ciphertext : Ciphertext}
    (h : validateGroupTarget target = .ok (groupId, ciphertext)) :
    target.groupId = some groupId := by
  unfold validateGroupTarget at h
  split at h
  · cases h
  · rename_i x hx
    split at h
    · cases h
    · obtain ⟨rfl, _⟩ := Prod.mk.inj (Except.ok.inj h)
      exact truthy_some hx

/-- A call of `forward` inside its loop; the number of results is the index of the target
it is at. -/
structure Forwarding where
  userId : Id
  dto : ForwardMessageDto
  sourceMedia : List MessageMedia
  contentType : MessageContentType
  results : List ForwardResult := []

/-- The checks and reads before the loop. -/
def startForward (userId : Id) (dto : ForwardMessageDto) (db : Db) : Except Err Forwarding := do
  assertActiveDevice userId dto.senderDeviceId db
  let sourceMessage ← assertMessageAccess userId dto.sourceMessageId db
  ensure sourceMessage.deletedAt.isNone (.forbidden "Cannot forward a deleted message")
  let sourceMedia := (db.messageMedia.filter (·.messageId == some dto.sourceMessageId)).insertionSort
    fun a b => a.createdAt ≤ b.createdAt
  pure { userId, dto, sourceMedia, contentType := sourceMessage.contentType }

/-- The key of the `i`-th target. -/
def ForwardMessageDto.perTargetKey (dto : ForwardMessageDto) (i : Nat) : String :=
  dto.idempotencyKey ++ ":" ++ toString i

def Forwarding.perTargetKey (f : Forwarding) : String := f.dto.perTargetKey f.results.length

def ForwardTargetDto.targetId (target : ForwardTargetDto) : Id :=
  match target.type with
  | .direct => target.recipientUserId.getD ""
  | .group => target.groupId.getD ""

def ForwardTargetDto.result (target : ForwardTargetDto) : Except Err Id → ForwardResult
  | .ok messageId =>
      { targetType := target.type, targetId := target.targetId, success := true
        messageId := some messageId }
  | .error e =>
      { targetType := target.type, targetId := target.targetId, success := false, error := some e }

/-- Record how the current target ended and go on to the next. -/
def Forwarding.push (f : Forwarding) (outcome : Except Err Id) : Forwarding :=
  match f.dto.targets[f.results.length]? with
  | none => f
  | some target => { f with results := f.results ++ [target.result outcome] }

/-- The arguments of `forwardToDirect` for the current target. -/
def Forwarding.toDirect (f : Forwarding) (recipientUserId : Id)
    (envelopes : List MessageEnvelopeDto) : Forward :=
  { senderUserId := f.userId, senderDeviceId := f.dto.senderDeviceId
    idempotencyKey := f.perTargetKey, recipientUserId, envelopes, sourceMedia := f.sourceMedia
    contentType := f.contentType }

theorem Forwarding.push_userId (f : Forwarding) (outcome : Except Err Id) :
    (f.push outcome).userId = f.userId := by
  unfold Forwarding.push
  split <;> rfl

theorem Forwarding.push_dto (f : Forwarding) (outcome : Except Err Id) :
    (f.push outcome).dto = f.dto := by
  unfold Forwarding.push
  split <;> rfl

theorem Forwarding.push_sourceMedia (f : Forwarding) (outcome : Except Err Id) :
    (f.push outcome).sourceMedia = f.sourceMedia := by
  unfold Forwarding.push
  split <;> rfl

/-- What is forwarded are the attachments of the source, as they are stored when it starts. -/
theorem startForward_media {userId : Id} {dto : ForwardMessageDto} {db : Db} {f : Forwarding}
    (h : startForward userId dto db = .ok f) :
    ∀ x ∈ f.sourceMedia, x ∈ db.messageMedia ∧ x.messageId = some f.dto.sourceMessageId := by
  unfold startForward at h
  obtain ⟨_, _, h⟩ := bind_ok.mp h
  obtain ⟨source, _, h⟩ := bind_ok.mp h
  obtain ⟨_, _, h⟩ := bind_ok.mp h
  obtain rfl := Except.ok.inj h
  intro x hx
  obtain ⟨hm, hid⟩ := List.mem_filter.mp ((List.mem_insertionSort _).mp hx)
  exact ⟨hm, beq_iff_eq.mp hid⟩

theorem startForward_ok {userId : Id} {dto : ForwardMessageDto} {db : Db} {f : Forwarding}
    (h : startForward userId dto db = .ok f) :
    f.userId = userId ∧ f.dto = dto ∧ f.results = [] ∧
      assertActiveDevice userId dto.senderDeviceId db = .ok () := by
  unfold startForward at h
  obtain ⟨⟨⟩, hdevice, h⟩ := bind_ok.mp h
  obtain ⟨source, _, h⟩ := bind_ok.mp h
  obtain ⟨_, _, h⟩ := bind_ok.mp h
  obtain rfl := Except.ok.inj h
  exact ⟨rfl, rfl, rfl, hdevice⟩

end Birgap.Messages
