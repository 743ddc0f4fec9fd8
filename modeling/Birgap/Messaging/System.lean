import Birgap.Messages.Forward
import Birgap.Messages.Sequence
import Birgap.Groups.Queue
import Birgap.Devices.Cap

/-!
# The messaging services under concurrency

One system of all the calls that create messages: `MessagesService.send`, `forward` with
its direct and group targets, and `GroupsService.queueGroupMessage`, together with the
fan-out worker and the operations on devices. A direct transaction is one step, a group
transaction one step for each of its statements, and every look-up outside a transaction is
a step of its own, so a run is an interleaving of the statements of any number of calls.
-/
namespace Birgap.Messaging

set_option autoImplicit false

open Birgap.Lib Birgap.Lib.Tx Birgap.Messages Birgap.Groups Birgap.Auth

structure SendGroupMessageDto where
  senderDeviceId : Id
  idempotencyKey : String
  contentType : Option MessageContentType := none
  replyToMessageId : Option Id := none
  mediaIds : List Id := []
  ciphertext : Ciphertext

/-- A request to a direct thread, by itself or for the current target of a forward. -/
inductive DirectTask where
  | send (senderUserId : Id) (dto : SendMessageDto)
  | forward (f : Forwarding) (recipientUserId : Id) (envelopes : List MessageEnvelopeDto)

/-- A request to a group, by itself or for the current target of a forward. -/
inductive GroupTask where
  | message (senderUserId groupId : Id) (dto : SendGroupMessageDto)
  | forward (f : Forwarding) (groupId : Id) (ciphertext : Ciphertext)

namespace DirectTask

def senderUserId : DirectTask → Id
  | .send senderUserId _ => senderUserId
  | .forward f _ _ => f.userId

def senderDeviceId : DirectTask → Id
  | .send _ dto => dto.senderDeviceId
  | .forward f _ _ => f.dto.senderDeviceId

def idempotencyKey : DirectTask → String
  | .send _ dto => dto.idempotencyKey
  | .forward f _ _ => f.perTargetKey

def forwarding : DirectTask → Option Forwarding
  | .send _ _ => none
  | .forward f _ _ => some f

def tx (ctx : Ctx) : DirectTask → Db → Except Err (Serialized × Db)
  | .send senderUserId dto => sendTx ctx senderUserId dto
  | .forward f recipientUserId envelopes => (f.toDirect recipientUserId envelopes).tx ctx

end DirectTask

namespace GroupTask

def request : GroupTask → GroupRequest
  | .message senderUserId groupId dto =>
      { senderUserId, groupId, senderDeviceId := dto.senderDeviceId
        idempotencyKey := dto.idempotencyKey, ciphertext := dto.ciphertext
        payload := .message dto.contentType dto.replyToMessageId dto.mediaIds }
  | .forward f groupId ciphertext =>
      { senderUserId := f.userId, groupId, senderDeviceId := f.dto.senderDeviceId
        idempotencyKey := f.perTargetKey, ciphertext
        payload := .forward f.contentType f.sourceMedia }

def forwarding : GroupTask → Option Forwarding
  | .message _ _ _ => none
  | .forward f _ _ => some f

end GroupTask

/-- How far a call has come. `sending` is past the first look-up of its key and `recovering`
past a violated unique index; the next five are the phases of a group transaction up to
the job of its message; `forwarding` is between two targets. -/
inductive Call where
  | idle
  | sending (t : DirectTask)
  | recovering (t : DirectTask)
  | entered (t : GroupTask)
  | checked (t : GroupTask)
  | numbered (t : GroupTask) (sequence : Nat)
  | validated (t : GroupTask) (sequence : Nat) (replyToMessageId : Option Id)
  | enqueueing (t : GroupTask) (m : Message)
  | forwarding (f : Forwarding)

/-- The forward a call belongs to. -/
def Call.forwardOf : Call → Option Forwarding
  | .idle => none
  | .sending t => t.forwarding
  | .recovering t => t.forwarding
  | .entered t => t.forwarding
  | .checked t => t.forwarding
  | .numbered t _ => t.forwarding
  | .validated t _ _ => t.forwarding
  | .enqueueing t _ => t.forwarding
  | .forwarding f => some f

/-- What a call returns with success. -/
inductive Returned where
  | sent (senderUserId : Id) (dto : SendMessageDto) (response : Serialized)
  | queued (senderUserId groupId : Id) (dto : SendGroupMessageDto) (messageId : Id) (queued : Bool)
  | forwarded (f : Forwarding)

/-- The end of `send`, or of one target of `forward`. -/
def DirectTask.settle : DirectTask → Except Err Serialized → Call × Option Returned
  | .send senderUserId dto, .ok response => (.idle, some (.sent senderUserId dto response))
  | .send _ _, .error _ => (.idle, none)
  | .forward f _ _, .ok created => (.forwarding (f.push (.ok created.message.id)), none)
  | .forward f _ _, .error e => (.forwarding (f.push (.error e)), none)

/-- The end of `queueGroupMessage`, or of one target of `forward`. -/
def GroupTask.settle : GroupTask → Except Err (Id × Bool) → Call × Option Returned
  | .message senderUserId groupId dto, .ok (messageId, queued) =>
      (.idle, some (.queued senderUserId groupId dto messageId queued))
  | .message _ _ _, .error _ => (.idle, none)
  | .forward f _ _, .ok (messageId, _) => (.forwarding (f.push (.ok messageId)), none)
  | .forward f _ _, .error e => (.forwarding (f.push (.error e)), none)

/-- The store, the calls, and every job added to the fan-out queue so far. -/
structure State where
  db : Db
  calls : Nat → Call
  jobs : List GroupFanoutJobData

/-- One statement of the call with number `pid`, one execution of the job at a position of
the queue, or an operation on devices. `fail` throws where the call is. -/
inductive Act where
  | send (pid : Nat) (senderUserId : Id) (dto : SendMessageDto)
  | queueGroupMessage (pid : Nat) (senderUserId groupId : Id) (dto : SendGroupMessageDto)
  | forward (pid : Nat) (userId : Id) (dto : ForwardMessageDto)
  | target (pid : Nat)
  | tx (pid : Nat) (ctx : Ctx)
  | recover (pid : Nat)
  | txCheck (pid : Nat)
  | readMax (pid : Nat)
  | validate (pid : Nat) (maxAttachments : Nat)
  | commit (pid : Nat) (now : Time) (messageId : Id) (mediaId : Nat → Id)
  | enqueue (pid : Nat)
  | fail (pid : Nat) (e : Err)
  | fanout (index : Nat) (now : Time) (envelopeId : Nat → Id)
  | device (op : Devices.Op)

def State.set (s : State) (pid : Nat) (c : Call) : State :=
  { s with calls := Function.update s.calls pid c }

def State.finish (s : State) (pid : Nat) (o : Call × Option Returned) : State × Option Returned :=
  (s.set pid o.1, o.2)

/-- The first look-up of a direct request. -/
def enterDirect (s : State) (pid : Nat) (t : DirectTask) : State × Option Returned :=
  match findByKey t.senderDeviceId t.idempotencyKey s.db with
  | some existing => s.finish pid (t.settle (.ok (serializeMessage existing s.db)))
  | none => (s.set pid (.sending t), none)

/-- The membership check and the first look-up of a group request. -/
def enterGroup (s : State) (pid : Nat) (t : GroupTask) : State × Option Returned :=
  if !isMember t.request.groupId t.request.senderUserId s.db then
    s.finish pid (t.settle (.error (.forbidden "You are not a member of this group")))
  else
    match findByKey t.request.senderDeviceId t.request.idempotencyKey s.db with
    | some existing => s.finish pid (t.settle (.ok (existing.id, false)))
    | none => (s.set pid (.entered t), none)

/-- The next round of the loop of `forward`, or its end. -/
def nextTarget (s : State) (pid : Nat) (f : Forwarding) : State × Option Returned :=
  match f.dto.targets[f.results.length]? with
  | none => (s.set pid .idle, some (.forwarded f))
  | some target =>
      match target.type with
      | .direct =>
          match validateDirectTarget target with
          | .error e => (s.set pid (.forwarding (f.push (.error e))), none)
          | .ok (recipientUserId, envelopes) =>
              enterDirect s pid (.forward f recipientUserId envelopes)
      | .group =>
          match validateGroupTarget target with
          | .error e => (s.set pid (.forwarding (f.push (.error e))), none)
          | .ok (groupId, ciphertext) => enterGroup s pid (.forward f groupId ciphertext)

/-- An error thrown where the call is: it ends a request, and is recorded by a forward for
its current target. -/
def Call.throw (e : Err) : Call → Call
  | .sending t => (t.settle (.error e)).1
  | .recovering t => (t.settle (.error e)).1
  | .entered t => (t.settle (.error e)).1
  | .checked t => (t.settle (.error e)).1
  | .numbered t _ => (t.settle (.error e)).1
  | .validated t _ _ => (t.settle (.error e)).1
  | .enqueueing t _ => (t.settle (.error e)).1
  | .idle => .idle
  | .forwarding _ => .idle

/-- One step, with what a call returns in it. -/
def exec (env : AuthEnv) (configuredMax : Option Int) (s : State) : Act → State × Option Returned
  | .send pid senderUserId dto =>
      match s.calls pid with
      | .idle => enterDirect s pid (.send senderUserId dto)
      | _ => (s, none)
  | .queueGroupMessage pid senderUserId groupId dto =>
      match s.calls pid with
      | .idle => enterGroup s pid (.message senderUserId groupId dto)
      | _ => (s, none)
  | .forward pid userId dto =>
      match s.calls pid with
      | .idle =>
          match startForward userId dto s.db with
          | .error _ => (s, none)
          | .ok f => (s.set pid (.forwarding f), none)
      | _ => (s, none)
  | .target pid =>
      match s.calls pid with
      | .forwarding f => nextTarget s pid f
      | _ => (s, none)
  | .tx pid ctx =>
      match s.calls pid with
      | .sending t =>
          match t.tx ctx s.db with
          | .ok (created, db) => { s with db := db }.finish pid (t.settle (.ok created))
          | .error .uniqueConstraint => (s.set pid (.recovering t), none)
          | .error e => s.finish pid (t.settle (.error e))
      | _ => (s, none)
  | .recover pid =>
      match s.calls pid with
      | .recovering t =>
          match findByKey t.senderDeviceId t.idempotencyKey s.db with
          | some duplicate => s.finish pid (t.settle (.ok (serializeMessage duplicate s.db)))
          | none => s.finish pid (t.settle (.error .uniqueConstraint))
      | _ => (s, none)
  | .txCheck pid =>
      match s.calls pid with
      | .entered t =>
          match findByKey t.request.senderDeviceId t.request.idempotencyKey s.db with
          | some existing => (s.set pid (.enqueueing t existing), none)
          | none => (s.set pid (.checked t), none)
      | _ => (s, none)
  | .readMax pid =>
      match s.calls pid with
      | .checked t => (s.set pid (.numbered t (nextSequence t.request.groupId s.db)), none)
      | _ => (s, none)
  | .validate pid maxAttachments =>
      match s.calls pid with
      | .numbered t sequence =>
          match validatePayload maxAttachments t.request s.db with
          | .ok replyTo => (s.set pid (.validated t sequence replyTo), none)
          | .error e => s.finish pid (t.settle (.error e))
      | _ => (s, none)
  | .commit pid now messageId mediaId =>
      match s.calls pid with
      | .validated t sequence replyTo =>
          let m := groupMessage now messageId t.request sequence replyTo
          match commitGroupMessage now mediaId m t.request s.db with
          | .ok db => ({ s with db := db }.set pid (.enqueueing t m), none)
          | .error e => s.finish pid (t.settle (.error e))
      | _ => (s, none)
  | .enqueue pid =>
      match s.calls pid with
      | .enqueueing t m =>
          { s with jobs := s.jobs ++ [fanoutJob t.request m] }.finish pid (t.settle (.ok (m.id, true)))
      | _ => (s, none)
  | .fail pid e => (s.set pid ((s.calls pid).throw e), none)
  | .fanout index now envelopeId =>
      match s.jobs[index]? with
      | some job => ({ s with db := (Groups.fanout now envelopeId job s.db).2 }, none)
      | none => (s, none)
  | .device op => ({ s with db := Devices.step env configuredMax s.db op }, none)

def step (env : AuthEnv) (configuredMax : Option Int) (s : State) (a : Act) : State :=
  (exec env configuredMax s a).1

def answer (env : AuthEnv) (configuredMax : Option Int) (s : State) (a : Act) : Option Returned :=
  (exec env configuredMax s a).2

/-- No messages, threads, envelopes and jobs; any users, members, devices and attachments. -/
def start (db : Db) : State :=
  { db := { db with directThreads := [], messages := [], messageEnvelopes := [] }
    calls := fun _ => .idle, jobs := [] }

/-- Three users with a device each, two of them in a group. -/
def sampleDb : Db :=
  { devices :=
      [{ id := "d1", userId := "alice", platform := .ios, identityPublicKey := "k1", createdAt := 0 },
       { id := "d2", userId := "bob", platform := .ios, identityPublicKey := "k2", createdAt := 0 },
       { id := "d3", userId := "mallory", platform := .web, identityPublicKey := "k3", createdAt := 0 }]
    groupMembers :=
      [{ groupId := "g1", userId := "alice" }, { groupId := "g1", userId := "mallory" }] }

def sampleCtx (messageId : Id) : Ctx :=
  { now := 10, messageId, threadId := "t1"
    envelopeId := fun i => messageId ++ "-e" ++ toString i
    mediaId := fun i => messageId ++ "-m" ++ toString i }

/-- A message to Bob that names Alice's device. -/
def sampleDto (idempotencyKey : String) : SendMessageDto :=
  { senderDeviceId := "d1", recipientUserId := "bob", idempotencyKey, envelopes := [⟨"d2", "c"⟩] }

/-- A group message from a device, up to its commit. -/
def groupSend (pid : Nat) (senderUserId senderDeviceId : Id) (idempotencyKey : String)
    (messageId : Id) : List Act :=
  [.queueGroupMessage pid senderUserId "g1" { senderDeviceId, idempotencyKey, ciphertext := "c" },
   .txCheck pid, .readMax pid, .validate pid 10, .commit pid 10 messageId fun _ => "x"]

end Birgap.Messaging
