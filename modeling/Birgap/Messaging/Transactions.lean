import Birgap.Messaging.System
import Birgap.Messages.Delete
import Birgap.Lib.Locks

/-!
# The transactions of a message, statement by statement

The calls that create messages once more, now with every statement of a transaction a step
of its own, next to uploads and deletions. The isolation level is READ COMMITTED: a
statement reads what is committed when it runs, a transaction keeps its writes to itself
until it commits, and the rows and index entries it wrote stay locked until then. No
transaction here reads a table it has written to, so what a statement reads is the
committed store.
-/
namespace Birgap.Messaging.Transactions

set_option autoImplicit false

open Birgap.Lib Birgap.Lib.Run Birgap.Lib.Tx Birgap.Messages Birgap.Groups

/-- What a transaction locks: the pair and the row of a thread, the entries of a message
in its unique indexes, envelopes, and attachment rows. -/
inductive Lock where
  | pair (userAId userBId : Id)
  | threadId (id : Id)
  | messageId (id : Id)
  | messageKey (senderDeviceId : Id) (idempotencyKey : String)
  | threadSequence (threadId : Id) (threadSequence : Nat)
  | groupSequence (groupId : Id) (threadSequence : Nat)
  | envelopeId (id : Id)
  | mediaId (id : Id)
  deriving DecidableEq

/-- A request to a direct thread or to a group. -/
inductive Task where
  | direct (t : DirectTask)
  | group (t : GroupTask)

namespace Task

def senderUserId : Task → Id
  | .direct t => t.senderUserId
  | .group t => t.request.senderUserId

def senderDeviceId : Task → Id
  | .direct t => t.senderDeviceId
  | .group t => t.request.senderDeviceId

def idempotencyKey : Task → String
  | .direct t => t.idempotencyKey
  | .group t => t.request.idempotencyKey

def forwarding : Task → Option Forwarding
  | .direct t => t.forwarding
  | .group t => t.forwarding

/-- The attachments a request names; a forward names none. -/
def mediaIds : Task → List Id
  | .direct (.send _ dto) => dto.mediaIds
  | .group (.message _ _ dto) => dto.mediaIds
  | _ => []

/-- The attachments a forward clones. -/
def sourceMedia (t : Task) : List MessageMedia :=
  match t.forwarding with
  | none => []
  | some f => f.sourceMedia

end Task

/-- The thread a transaction updates, with the row its upsert inserted, if it did. -/
structure ThreadWrites where
  threadId : Id
  created : List DirectThread

/-- What a transaction has when its message is numbered; a group has no thread row. -/
structure Numbered where
  recipientDeviceIds : List Id := []
  threads : Option ThreadWrites := none
  sequence : Nat

structure NewMessage where
  message : Message
  envelopes : List MessageEnvelope

/-- The rows the binding update matched, and the clones a forward inserted. -/
structure MediaWrites where
  bound : List Id := []
  clones : List MessageMedia := []

/-- How far a call has come. From `checked` to `attached` it is inside its transaction:
past the look-ups, with its number, past the reply target, past the ownership read, past
the insert of the message, past the attachment statement. -/
inductive Call where
  | idle
  | entered (t : Task)
  | checked (t : Task) (recipientDeviceIds : List Id)
  | numbered (t : Task) (n : Numbered)
  | replied (t : Task) (n : Numbered) (replyToMessageId : Option Id)
  | owned (t : Task) (n : Numbered) (replyToMessageId : Option Id)
  | inserted (t : Task) (n : Numbered) (new : NewMessage)
  | attached (t : Task) (n : Numbered) (new : NewMessage) (w : MediaWrites)
  | recovering (t : Task)
  | enqueueing (t : Task) (m : Message) (created : Bool)
  | forwarding (f : Forwarding)
  | completing (mediaId : Id) (dto : CompleteMediaDto)
  | hiding (userId messageId : Id)
  | deleting (userId messageId : Id) (deletedBy : DeletedBy)

/-- What a call returns with success; `created` tells a new message from an earlier one
under the same key. -/
inductive Returned where
  | sent (t : Task) (m : Message) (created : Bool)
  | forwarded (f : Forwarding)

/-- The committed store, the calls, and the locks of the open transactions. -/
structure State where
  db : Db
  calls : Nat → Call
  locks : Locks.Table Lock := []

/-- One statement of the call with number `pid`, or an upload being announced. `fail`
throws where the call is. -/
inductive Act where
  | initUpload (now : Time) (mediaId userId : Id) (presigned : PresignedUpload) (dto : InitMediaDto)
  | completeUpload (pid : Nat) (userId mediaId : Id) (dto : CompleteMediaDto)
  | completeMedia (pid : Nat) (now : Time)
  | send (pid : Nat) (senderUserId : Id) (dto : SendMessageDto)
  | queueGroupMessage (pid : Nat) (senderUserId groupId : Id) (dto : SendGroupMessageDto)
  | forward (pid : Nat) (userId : Id) (dto : ForwardMessageDto)
  | target (pid : Nat)
  | check (pid : Nat)
  | number (pid : Nat) (ctx : Ctx)
  | replyTarget (pid : Nat)
  | own (pid : Nat) (ctx : Ctx)
  | insert (pid : Nat) (ctx : Ctx)
  | attach (pid : Nat) (ctx : Ctx)
  | commit (pid : Nat)
  | recover (pid : Nat)
  | enqueue (pid : Nat)
  | fail (pid : Nat) (e : Err)
  | delete (pid : Nat) (limit : EditLimit) (now : Time) (userId messageId : Id)
      (dto : DeleteMessageDto)
  | deleteWrite (pid : Nat) (now : Time)

/-- The end of a request, or of one target of `forward`. -/
def Task.settle (t : Task) (outcome : Except Err (Message × Bool)) : Call × Option Returned :=
  match t.forwarding, outcome with
  | none, .ok (m, created) => (.idle, some (.sent t m created))
  | none, .error _ => (.idle, none)
  | some f, .ok (m, _) => (.forwarding (f.push (.ok m.id)), none)
  | some f, .error e => (.forwarding (f.push (.error e)), none)

namespace State

def set (s : State) (pid : Nat) (c : Call) : State :=
  { s with calls := Function.update s.calls pid c }

/-- Leave a transaction, by its commit or by a rollback. -/
def leave (s : State) (pid : Nat) (c : Call) : State :=
  { s with calls := Function.update s.calls pid c, locks := Locks.release s.locks pid }

def finish (s : State) (pid : Nat) (o : Call × Option Returned) : State × Option Returned :=
  (s.leave pid o.1, o.2)

/-- Go on inside a transaction with some locks more; while another one holds one of them
the statement waits. -/
def lock (s : State) (pid : Nat) (ks : List Lock) (c : Call) : State :=
  if Locks.free s.locks pid ks then
    { s with calls := Function.update s.calls pid c, locks := Locks.acquire s.locks pid ks }
  else s

end State

/-! ## The statements of a transaction -/

/-- The upsert of the thread and its increment; the two are one step, for the increment is
relative and the first of them already locks the row. -/
def numberThread (threadId : Id) (pair : Id × Id) (db : Db) : Except Err (ThreadWrites × Nat) := do
  let (thread, db₁) ← upsertThread threadId pair.1 pair.2 db
  let (sequencedThread, _) ← incrementSequence thread.id db₁
  let stored := db.directThreads.any fun t => t.userAId == pair.1 && t.userBId == pair.2
  pure ({ threadId := thread.id, created := if stored then [] else [thread] },
    sequencedThread.latestSequence)

def DirectTask.recipientUserId : DirectTask → Id
  | .send _ dto => dto.recipientUserId
  | .forward _ recipientUserId _ => recipientUserId

def DirectTask.envelopes : DirectTask → List MessageEnvelopeDto
  | .send _ dto => dto.envelopes
  | .forward _ _ envelopes => envelopes

def DirectTask.pair (t : DirectTask) : Id × Id :=
  canonicalDirectPair t.senderUserId (DirectTask.recipientUserId t)

/-- The read of the reply target; a forward replies to nothing. -/
def Task.checkReply (t : Task) (n : Numbered) (db : Db) : Except Err (Option Id) :=
  match t with
  | .direct (.send _ dto) =>
      Messages.checkReply (fun m => m.threadId == n.threads.map (·.threadId))
        "Reply target is not in the same thread" dto.replyToMessageId db
  | .group (.message _ groupId dto) =>
      Messages.checkReply (·.groupId == some groupId) "Reply target is not in the same group"
        dto.replyToMessageId db
  | _ => .ok none

/-- The message a transaction inserts, with its envelopes. -/
def Task.newMessage (ctx : Ctx) (t : Task) (n : Numbered) (replyToMessageId : Option Id) :
    NewMessage :=
  match t with
  | .direct d =>
      let row : Message :=
        { id := ctx.messageId, threadId := n.threads.map (·.threadId)
          senderUserId := d.senderUserId, senderDeviceId := d.senderDeviceId
          idempotencyKey := d.idempotencyKey, threadSequence := n.sequence, createdAt := ctx.now }
      { message :=
          match d with
          | .send _ dto => { row with contentType := dto.contentType.getD .text, replyToMessageId }
          | .forward f _ _ => { row with contentType := f.contentType, forwarded := true }
        envelopes := directEnvelopes ctx d.senderUserId (DirectTask.recipientUserId d)
          n.recipientDeviceIds (DirectTask.envelopes d) }
  | .group g =>
      { message := groupMessage ctx.now ctx.messageId g.request n.sequence replyToMessageId
        envelopes := [] }

/-- The entries an insert makes in the unique indexes. -/
def NewMessage.locks (new : NewMessage) : List Lock :=
  [.messageId new.message.id, .messageKey new.message.senderDeviceId new.message.idempotencyKey] ++
  (new.message.threadId.map fun id => .threadSequence id new.message.threadSequence).toList ++
  (new.message.groupId.map fun id => .groupSequence id new.message.threadSequence).toList ++
  new.envelopes.map fun e => .envelopeId e.id

/-- The condition of the binding update. -/
def bindable (senderUserId : Id) (mediaIds : List Id) (m : MessageMedia) : Bool :=
  mediaIds.contains m.id && m.userId == senderUserId && m.messageId.isNone

/-- The rows a forward inserts for the attachments of its source. -/
def forwardClones (ctx : Ctx) (forwarderUserId newMessageId : Id)
    (sourceMedia : List MessageMedia) : List MessageMedia :=
  sourceMedia.zipIdx.map fun (m, i) =>
    { m with
      id := ctx.mediaId i, userId := forwarderUserId, messageId := some newMessageId
      uploadStatus := .complete, uploadedAt := some ctx.now, createdAt := ctx.now }

/-- The attachment statement: the binding update of a request, or the clones of a forward.
The number of rows the update matched is not looked at. -/
def Task.mediaWrites (ctx : Ctx) (t : Task) (messageId : Id) (db : Db) : Except Err MediaWrites :=
  let clones := forwardClones ctx t.senderUserId messageId t.sourceMedia
  match Rows.insertAll (fun a b => a.id == b.id) clones db.messageMedia with
  | none => .error .uniqueConstraint
  | some _ =>
      .ok { bound := (db.messageMedia.filter (bindable t.senderUserId t.mediaIds)).map (·.id)
            clones }

def MediaWrites.locks (w : MediaWrites) : List Lock :=
  w.bound.map .mediaId ++ w.clones.map fun m => .mediaId m.id

def Numbered.writeThreads (n : Numbered) (rows : List DirectThread) : List DirectThread :=
  match n.threads with
  | none => rows
  | some w => Rows.updateMany (·.id == w.threadId) bump (rows ++ w.created)

def MediaWrites.write (w : MediaWrites) (messageId : Id) (rows : List MessageMedia) :
    List MessageMedia :=
  Rows.updateMany (fun m => w.bound.contains m.id)
    (fun m => { m with messageId := some messageId }) rows ++ w.clones

/-- The writes of a transaction, applied to the committed store at its commit. -/
def commitWrites (n : Numbered) (new : NewMessage) (w : MediaWrites) (db : Db) : Db :=
  { db with
    directThreads := n.writeThreads db.directThreads
    messages := db.messages ++ [new.message]
    messageEnvelopes := db.messageEnvelopes ++ new.envelopes
    messageMedia := w.write new.message.id db.messageMedia }

/-! ## The step -/

/-- The first look-ups of a request. -/
def enter (s : State) (pid : Nat) (t : Task) : State × Option Returned :=
  match t with
  | .group g =>
      if !isMember g.request.groupId g.request.senderUserId s.db then
        s.finish pid (t.settle (.error (.forbidden "You are not a member of this group")))
      else
        match findByKey t.senderDeviceId t.idempotencyKey s.db with
        | some existing => s.finish pid (t.settle (.ok (existing, false)))
        | none => (s.set pid (.entered t), none)
  | .direct _ =>
      match findByKey t.senderDeviceId t.idempotencyKey s.db with
      | some existing => s.finish pid (t.settle (.ok (existing, false)))
      | none => (s.set pid (.entered t), none)

/-- What the first look-ups come to: an outsider, a message under the key, or neither. -/
theorem enter_cases (s : State) (pid : Nat) (t : Task) :
    (∃ g, t = .group g ∧ isMember g.request.groupId g.request.senderUserId s.db = false ∧
      enter s pid t =
        s.finish pid (t.settle (.error (.forbidden "You are not a member of this group")))) ∨
    ((∀ g, t = .group g → isMember g.request.groupId g.request.senderUserId s.db = true) ∧
      ((∃ existing, findByKey t.senderDeviceId t.idempotencyKey s.db = some existing ∧
          enter s pid t = s.finish pid (t.settle (.ok (existing, false)))) ∨
        (findByKey t.senderDeviceId t.idempotencyKey s.db = none ∧
          enter s pid t = (s.set pid (.entered t), none)))) := by
  unfold enter
  cases t with
  | direct d =>
      right
      constructor
      · intro g hg
        cases hg
      · dsimp only
        cases findByKey (Task.direct d).senderDeviceId (Task.direct d).idempotencyKey s.db with
        | some existing => exact Or.inl ⟨existing, rfl, rfl⟩
        | none => exact Or.inr ⟨rfl, rfl⟩
  | group g =>
      cases hmember : isMember g.request.groupId g.request.senderUserId s.db with
      | false => exact Or.inl ⟨g, rfl, hmember, by simp [hmember]⟩
      | true =>
          right
          constructor
          · intro g' hg'
            obtain rfl := Task.group.inj hg'
            exact hmember
          · dsimp only
            rw [if_neg (by simp [hmember])]
            cases findByKey (Task.group g).senderDeviceId (Task.group g).idempotencyKey s.db with
            | some existing => exact Or.inl ⟨existing, rfl, rfl⟩
            | none => exact Or.inr ⟨rfl, rfl⟩

/-- The next round of the loop of `forward`, or its end. -/
def nextTarget (s : State) (pid : Nat) (f : Forwarding) : State × Option Returned :=
  match f.dto.targets[f.results.length]? with
  | none => (s.set pid .idle, some (.forwarded f))
  | some target =>
      match target.type with
      | .direct =>
          match validateDirectTarget target with
          | .error e => (s.set pid (.forwarding (f.push (.error e))), none)
          | .ok (recipientUserId, envelopes) =>
              enter s pid (.direct (.forward f recipientUserId envelopes))
      | .group =>
          match validateGroupTarget target with
          | .error e => (s.set pid (.forwarding (f.push (.error e))), none)
          | .ok (groupId, ciphertext) => enter s pid (.group (.forward f groupId ciphertext))

/-- An error inside a transaction rolls it back. A direct request looks its key up again
when a unique index was violated. -/
def State.abort (s : State) (pid : Nat) (t : Task) (e : Err) : State × Option Returned :=
  match t, e with
  | .direct _, .uniqueConstraint => (s.leave pid (.recovering t), none)
  | _, _ => s.finish pid (t.settle (.error e))

/-- The look-ups at the start of a transaction: the devices, or the key once more. -/
def checkTask (s : State) (pid : Nat) (t : Task) : State × Option Returned :=
  match t with
  | .direct d =>
      match routeDevices d.senderUserId d.senderDeviceId (DirectTask.recipientUserId d)
          (DirectTask.envelopes d) s.db with
      | .ok recipientDeviceIds => (s.set pid (.checked t recipientDeviceIds), none)
      | .error e => s.abort pid t e
  | .group _ =>
      match findByKey t.senderDeviceId t.idempotencyKey s.db with
      | some existing => (s.leave pid (.enqueueing t existing false), none)
      | none => (s.set pid (.checked t []), none)

def numberTask (ctx : Ctx) (s : State) (pid : Nat) (t : Task) (recipientDeviceIds : List Id) :
    State × Option Returned :=
  match t with
  | .direct d =>
      match numberThread ctx.threadId (DirectTask.pair d) s.db with
      | .ok (threads, sequence) =>
          (s.lock pid [.pair (DirectTask.pair d).1 (DirectTask.pair d).2, .threadId threads.threadId]
            (.numbered t { recipientDeviceIds, threads := some threads, sequence }), none)
      | .error e => s.abort pid t e
  | .group g =>
      (s.set pid (.numbered t { sequence := nextSequence g.request.groupId s.db }), none)

/-- One step, with what a call returns in it. -/
def exec (s : State) : Act → State × Option Returned
  | .initUpload now mediaId userId presigned dto =>
      -- the insert waits for a transaction that has just inserted the same id
      if s.locks.any (·.1 == .mediaId mediaId) then (s, none)
      else
        match Messages.initUpload now mediaId userId presigned dto s.db with
        | .ok (_, db) => ({ s with db := db }, none)
        | .error _ => (s, none)
  | .completeUpload pid userId mediaId dto =>
      match s.calls pid with
      | .idle =>
          match completeChecks userId mediaId s.db with
          | .ok _ => (s.set pid (.completing mediaId dto), none)
          | .error _ => (s, none)
      | _ => (s, none)
  | .completeMedia pid now =>
      match s.calls pid with
      | .completing mediaId dto =>
          if s.locks.any (·.1 == .mediaId mediaId) then (s, none)
          else
            match Messages.completeMedia now mediaId dto s.db with
            | .ok (_, db) => ({ s with db := db }.set pid .idle, none)
            | .error _ => (s.set pid .idle, none)
      | _ => (s, none)
  | .send pid senderUserId dto =>
      match s.calls pid with
      | .idle => enter s pid (.direct (.send senderUserId dto))
      | _ => (s, none)
  | .queueGroupMessage pid senderUserId groupId dto =>
      match s.calls pid with
      | .idle => enter s pid (.group (.message senderUserId groupId dto))
      | _ => (s, none)
  | .forward pid userId dto =>
      match s.calls pid with
      | .idle =>
          match startForward userId dto s.db with
          | .error _ => (s, none)
          | .ok f => (s.set pid (.forwarding f), none)
      | _ => (s, none)
  | .target pid =>
      match s.calls pid with
      | .forwarding f => nextTarget s pid f
      | _ => (s, none)
  | .check pid =>
      match s.calls pid with
      | .entered t => checkTask s pid t
      | _ => (s, none)
  | .number pid ctx =>
      match s.calls pid with
      | .checked t recipientDeviceIds => numberTask ctx s pid t recipientDeviceIds
      | _ => (s, none)
  | .replyTarget pid =>
      match s.calls pid with
      | .numbered t n =>
          match t.checkReply n s.db with
          | .ok replyTo => (s.set pid (.replied t n replyTo), none)
          | .error e => s.abort pid t e
      | _ => (s, none)
  | .own pid ctx =>
      match s.calls pid with
      | .replied t n replyTo =>
          match assertAttachmentsOwned ctx.maxAttachments t.senderUserId t.mediaIds s.db with
          | .ok () => (s.set pid (.owned t n replyTo), none)
          | .error e => s.abort pid t e
      | _ => (s, none)
  | .insert pid ctx =>
      match s.calls pid with
      | .owned t n replyTo =>
          let new := t.newMessage ctx n replyTo
          match createMessage new.message new.envelopes s.db with
          | .ok _ => (s.lock pid new.locks (.inserted t n new), none)
          | .error e => s.abort pid t e
      | _ => (s, none)
  | .attach pid ctx =>
      match s.calls pid with
      | .inserted t n new =>
          match t.mediaWrites ctx new.message.id s.db with
          | .ok w => (s.lock pid w.locks (.attached t n new w), none)
          | .error e => s.abort pid t e
      | _ => (s, none)
  | .commit pid =>
      match s.calls pid with
      | .attached t n new w =>
          let committed := { s with db := commitWrites n new w s.db }
          match t with
          | .direct _ => committed.finish pid (t.settle (.ok (new.message, true)))
          | .group _ => (committed.leave pid (.enqueueing t new.message true), none)
      | _ => (s, none)
  | .recover pid =>
      match s.calls pid with
      | .recovering t =>
          match findByKey t.senderDeviceId t.idempotencyKey s.db with
          | some duplicate => s.finish pid (t.settle (.ok (duplicate, false)))
          | none => s.finish pid (t.settle (.error .uniqueConstraint))
      | _ => (s, none)
  | .enqueue pid =>
      match s.calls pid with
      | .enqueueing t m created => s.finish pid (t.settle (.ok (m, created)))
      | _ => (s, none)
  | .fail pid e =>
      match s.calls pid with
      | .entered t => s.finish pid (t.settle (.error e))
      | .checked t _ => s.finish pid (t.settle (.error e))
      | .numbered t _ => s.finish pid (t.settle (.error e))
      | .replied t _ _ => s.finish pid (t.settle (.error e))
      | .owned t _ _ => s.finish pid (t.settle (.error e))
      | .inserted t _ _ => s.finish pid (t.settle (.error e))
      | .attached t _ _ _ => s.finish pid (t.settle (.error e))
      | .recovering t => s.finish pid (t.settle (.error e))
      | .enqueueing t _ _ => s.finish pid (t.settle (.error e))
      | _ => (s.leave pid .idle, none)
  | .delete pid limit now userId messageId dto =>
      match s.calls pid with
      | .idle =>
          match deleteAccess userId messageId dto s.db with
          | .error _ => (s, none)
          | .ok message =>
              match dto.scope with
              | .forMe => (s.set pid (.hiding userId messageId), none)
              | .forEveryone =>
                  match assertDeletable limit now userId message s.db with
                  | .error _ => (s, none)
                  | .ok deletedBy => (s.set pid (.deleting userId messageId deletedBy), none)
      | _ => (s, none)
  | .deleteWrite pid now =>
      match s.calls pid with
      | .hiding userId messageId =>
          ({ s with db := hideMessage userId messageId s.db }.set pid .idle, none)
      | .deleting userId messageId deletedBy =>
          match deleteTx now userId messageId deletedBy s.db with
          | .ok (_, db) => ({ s with db := db }.set pid .idle, none)
          | .error _ => (s.set pid .idle, none)
      | _ => (s, none)

def step (s : State) (a : Act) : State := (exec s a).1

def answer (s : State) (a : Act) : Option Returned := (exec s a).2

/-- No call has begun. -/
def idle (db : Db) : State := { db, calls := fun _ => .idle }

/-- No call has begun and nothing has been sent or uploaded; any users, members, devices. -/
def start (db : Db) : State :=
  idle { db with directThreads := [], messages := [], messageEnvelopes := [], messageMedia := [] }

/-! ## A transaction that nothing comes in between -/

/-- Binding the matched rows by their ids at the commit is the binding update. -/
theorem write_bound {rows : List MessageMedia} (hu : Rows.Unique (·.id) rows) (userId : Id)
    (mediaIds : List Id) (messageId : Id) :
    MediaWrites.write { bound := (rows.filter (bindable userId mediaIds)).map (·.id) } messageId rows =
      Rows.updateMany (bindable userId mediaIds) (fun m => { m with messageId := some messageId })
        rows := by
  simp only [MediaWrites.write, List.append_nil, Rows.updateMany]
  apply List.map_congr_left
  intro r hr
  have hiff : ((rows.filter (bindable userId mediaIds)).map (·.id)).contains r.id =
      bindable userId mediaIds r := by
    rw [Bool.eq_iff_iff, List.contains_iff_mem, List.mem_map]
    constructor
    · rintro ⟨r₀, hr₀, hid⟩
      obtain ⟨hr₀, hb⟩ := List.mem_filter.mp hr₀
      obtain rfl := hu.eq hr₀ hr hid
      exact hb
    · intro hb
      exact ⟨r, List.mem_filter.mpr ⟨hr, hb⟩, rfl⟩
  rw [hiff]

theorem write_clones (clones : List MessageMedia) (messageId : Id) (rows : List MessageMedia) :
    MediaWrites.write { clones } messageId rows = rows ++ clones := by
  simp [MediaWrites.write, Rows.updateMany]

theorem mediaWrites_request (ctx : Ctx) {t : Task} (ht : t.forwarding = none) (messageId : Id)
    (db : Db) : t.mediaWrites ctx messageId db =
      .ok { bound := (db.messageMedia.filter (bindable t.senderUserId t.mediaIds)).map (·.id) } := by
  simp [Task.mediaWrites, Task.sourceMedia, ht, forwardClones, Rows.insertAll]

/-- The thread rows at the commit are those the upsert and the increment left. -/
theorem numberThread_of {threadId : Id} {pair : Id × Id} {db db₁ db₂ : Db}
    {thread sequenced : DirectThread} (hu : upsertThread threadId pair.1 pair.2 db = .ok (thread, db₁))
    (hi : incrementSequence thread.id db₁ = .ok (sequenced, db₂)) :
    ∃ created, numberThread threadId pair db =
        .ok ({ threadId := thread.id, created }, sequenced.latestSequence) ∧
      db₂ = { db with
        directThreads := Rows.updateMany (·.id == thread.id) bump (db.directThreads ++ created) } := by
  have hdb₂ := (incrementSequence_ok hi).2
  unfold numberThread
  rw [hu]
  simp only [bind, Except.bind, hi, pure, Except.pure]
  rcases upsertThread_ok hu with ⟨hmem, ha, hb, rfl⟩ | ⟨hnew, _, rfl, rfl⟩
  · have hstored : (db₁.directThreads.any fun t => t.userAId == pair.1 && t.userBId == pair.2) =
        true := List.any_eq_true.mpr ⟨thread, hmem, by simp [ha, hb]⟩
    refine ⟨[], by rw [hstored]; rfl, ?_⟩
    rw [hdb₂, List.append_nil]
  · have hstored : (db.directThreads.any fun t => t.userAId == pair.1 && t.userBId == pair.2) =
        false := by
      rw [List.any_eq_false]
      intro x hx hp
      simp only [Bool.and_eq_true, beq_iff_eq] at hp
      exact hnew x hx (Prod.ext hp.1 hp.2)
    exact ⟨_, by rw [hstored]; rfl, hdb₂⟩

theorem mediaWrites_forward {ctx : Ctx} {t : Task} (ht : t.mediaIds = []) {messageId : Id}
    {db db' : Db} (hc : cloneMediaForForward ctx.now ctx.mediaId t.senderUserId messageId t.sourceMedia
      db = .ok db') :
    t.mediaWrites ctx messageId db =
      .ok { clones := forwardClones ctx t.senderUserId messageId t.sourceMedia } ∧
    db' = { db with messageMedia :=
      db.messageMedia ++ forwardClones ctx t.senderUserId messageId t.sourceMedia } := by
  unfold cloneMediaForForward at hc
  simp only at hc
  split at hc
  · cases hc
  · rename_i rows hrows
    obtain rfl := Except.ok.inj hc
    have hrows' : Rows.insertAll (fun a b : MessageMedia => a.id == b.id)
        (forwardClones ctx t.senderUserId messageId t.sourceMedia) db.messageMedia = some rows :=
      hrows
    refine ⟨?_, ?_⟩
    · simp only [Task.mediaWrites, hrows', ht]
      simp [bindable]
    · rw [Rows.insertAll_eq hrows']

theorem free_of_own {locks : Locks.Table Lock} {pid : Nat} (h : ∀ l ∈ locks, l.2 = pid)
    (ks : List Lock) : Locks.free locks pid ks = true := by
  apply List.all_eq_true.mpr
  intro l hl
  simp [h l hl]

theorem acquire_own {locks : Locks.Table Lock} {pid : Nat} (h : ∀ l ∈ locks, l.2 = pid)
    (ks : List Lock) : ∀ l ∈ Locks.acquire locks pid ks, l.2 = pid := by
  rintro ⟨k, q⟩ hl
  rcases Locks.mem_acquire.mp hl with hl | ⟨_, hq⟩
  · exact h _ hl
  · exact hq

/-- The statements of a transaction after its number, in their order. -/
def afterNumber (pid : Nat) (ctx : Ctx) : List Act :=
  [.replyTarget pid, .own pid ctx, .insert pid ctx, .attach pid ctx, .commit pid]

/-- A numbered transaction that meets no error and no lock of another commits its writes. -/
theorem run_afterNumber {s : State} {pid : Nat} {ctx : Ctx} {t : Task} {n : Numbered}
    {replyTo : Option Id} {db₁ : Db} {w : MediaWrites} (hcall : s.calls pid = .numbered t n)
    (hlocks : ∀ l ∈ s.locks, l.2 = pid) (hreply : t.checkReply n s.db = .ok replyTo)
    (hown : assertAttachmentsOwned ctx.maxAttachments t.senderUserId t.mediaIds s.db = .ok ())
    (hcreate : createMessage (t.newMessage ctx n replyTo).message
      (t.newMessage ctx n replyTo).envelopes s.db = .ok db₁)
    (hw : t.mediaWrites ctx (t.newMessage ctx n replyTo).message.id s.db = .ok w) :
    (run step s (afterNumber pid ctx)).db = commitWrites n (t.newMessage ctx n replyTo) w s.db := by
  have hfree := free_of_own hlocks (t.newMessage ctx n replyTo).locks
  have hfree' := free_of_own (acquire_own hlocks (t.newMessage ctx n replyTo).locks) w.locks
  simp only [afterNumber, run_cons, run_nil, step, exec, hcall, hreply, State.set,
    Function.update_self, hown, hcreate, State.lock, hfree, ↓reduceIte, hw, hfree']
  cases t <;> rfl

/-- The insert does not look at the threads. -/
theorem createMessage_threads {m : Message} {envelopes : List MessageEnvelope} {db db₁ : Db}
    {threads : List DirectThread}
    (h : createMessage m envelopes { db with directThreads := threads } = .ok db₁) :
    ∃ db₂, createMessage m envelopes db = .ok db₂ := by
  unfold createMessage at h ⊢
  split at h
  · cases h
  · rename_i hclash
    rw [if_neg hclash]
    split at h
    · cases h
    · rename_i hdevice
      rw [if_neg hdevice]
      cases hrows : Rows.insertAll envelopeClash envelopes db.messageEnvelopes with
      | none =>
          simp only [hrows] at h
          cases h
      | some rows => exact ⟨_, rfl⟩

/-- The look-ups and the number of a direct transaction. -/
theorem run_toNumber {s : State} {pid : Nat} {ctx : Ctx} {d : DirectTask} {ids : List Id}
    {threads : ThreadWrites} {sequence : Nat} (hcall : s.calls pid = .entered (.direct d))
    (hlocks : s.locks = [])
    (hroute : routeDevices d.senderUserId d.senderDeviceId (DirectTask.recipientUserId d)
      (DirectTask.envelopes d) s.db = .ok ids)
    (hnumber : numberThread ctx.threadId (DirectTask.pair d) s.db = .ok (threads, sequence)) :
    ∃ s', run step s [.check pid, .number pid ctx] = s' ∧ s'.db = s.db ∧
      s'.calls pid = .numbered (.direct d)
        { recipientDeviceIds := ids, threads := some threads, sequence } ∧
      ∀ l ∈ s'.locks, l.2 = pid := by
  refine ⟨_, rfl, ?_⟩
  simp only [run_cons, run_nil, step, exec, hcall, checkTask, hroute, State.set,
    Function.update_self, numberTask, hnumber, State.lock, hlocks, Locks.free, List.all_nil,
    ↓reduceIte]
  exact ⟨trivial, trivial, acquire_own (fun l hl => by cases hl) _⟩

/-- The transaction of `send`, taken as a whole elsewhere, is the run of its statements. -/
theorem run_send {s : State} {pid : Nat} {ctx : Ctx} {senderUserId : Id} {dto : SendMessageDto}
    {db' : Db} {r : Serialized} (hu : Rows.Unique (·.id) s.db.messageMedia)
    (hcall : s.calls pid = .entered (.direct (.send senderUserId dto))) (hlocks : s.locks = [])
    (htx : sendTx ctx senderUserId dto s.db = .ok (r, db')) :
    (run step s ([.check pid, .number pid ctx] ++ afterNumber pid ctx)).db = db' := by
  obtain ⟨ids, thread, db₁, sequenced, db₂, replyTo, db₃, hroute, hupsert, hincrement, hreply, hown,
    hcreate, _, rfl⟩ := sendTx_cases htx
  obtain ⟨created, hnumber, rfl⟩ := numberThread_of hupsert hincrement
  obtain ⟨s', hs', hdb, hcall', hlocks'⟩ := run_toNumber hcall hlocks hroute hnumber
  obtain ⟨db₄, hcreate'⟩ := createMessage_threads hcreate
  obtain ⟨_, _, rfl⟩ := createMessage_ok hcreate
  rw [run_append, hs']
  -- the reads of the statements see the same tables with or without the thread's own writes
  rw [← hdb] at hreply hown hcreate'
  rw [run_afterNumber hcall' hlocks' hreply hown hcreate' (mediaWrites_request ctx rfl _ _), hdb]
  unfold commitWrites
  rw [write_bound hu]
  rfl

/-- So is the transaction of `forwardToDirect`. -/
theorem run_forward {s : State} {pid : Nat} {ctx : Ctx} {f : Forwarding} {recipientUserId : Id}
    {envelopes : List MessageEnvelopeDto} {db' : Db} {r : Serialized}
    (hcall : s.calls pid = .entered (.direct (.forward f recipientUserId envelopes)))
    (hlocks : s.locks = []) (htx : (f.toDirect recipientUserId envelopes).tx ctx s.db = .ok (r, db')) :
    (run step s ([.check pid, .number pid ctx] ++ afterNumber pid ctx)).db = db' := by
  obtain ⟨ids, thread, db₁, sequenced, db₂, db₃, hroute, hupsert, hincrement, hcreate, _, hclone⟩ :=
    forwardTx_cases htx
  obtain ⟨created, hnumber, rfl⟩ := numberThread_of hupsert hincrement
  obtain ⟨s', hs', hdb, hcall', hlocks'⟩ := run_toNumber hcall hlocks hroute hnumber
  obtain ⟨db₅, hcreate'⟩ := createMessage_threads hcreate
  obtain ⟨_, _, rfl⟩ := createMessage_ok hcreate
  obtain ⟨hw, rfl⟩ := mediaWrites_forward
    (t := .direct (.forward f recipientUserId envelopes)) rfl hclone
  rw [run_append, hs']
  rw [← hdb] at hcreate'
  have hw' : Task.mediaWrites ctx (.direct (.forward f recipientUserId envelopes)) ctx.messageId
      s'.db = _ := hdb ▸ hw
  rw [run_afterNumber hcall' hlocks' rfl rfl hcreate' hw', hdb]
  unfold commitWrites
  rw [write_clones]
  rfl

/-- And a group transaction, from its look-up on. -/
theorem run_group {s : State} {pid : Nat} {ctx : Ctx} {g : GroupTask} {replyTo : Option Id} {db' : Db}
    (hu : Rows.Unique (·.id) s.db.messageMedia) (hcall : s.calls pid = .entered (.group g))
    (hlocks : s.locks = [])
    (hnew : findByKey g.request.senderDeviceId g.request.idempotencyKey s.db = none)
    (hvalidate : validatePayload ctx.maxAttachments g.request s.db = .ok replyTo)
    (hcommit : commitGroupMessage ctx.now ctx.mediaId
      (groupMessage ctx.now ctx.messageId g.request (nextSequence g.request.groupId s.db) replyTo)
      g.request s.db = .ok db') :
    (run step s ([.check pid, .number pid ctx] ++ afterNumber pid ctx)).db = db' := by
  have hlookup : findByKey (Task.group g).senderDeviceId (Task.group g).idempotencyKey s.db = none :=
    hnew
  obtain ⟨s', hs', hdb, hcall', hlocks'⟩ : ∃ s', run step s [.check pid, .number pid ctx] = s' ∧
      s'.db = s.db ∧ s'.calls pid = .numbered (.group g)
        { sequence := nextSequence g.request.groupId s.db } ∧ ∀ l ∈ s'.locks, l.2 = pid := by
    refine ⟨_, rfl, ?_⟩
    simp only [run_cons, run_nil, step, exec, hcall, checkTask, hlookup, State.set,
      Function.update_self, numberTask, hlocks]
    exact ⟨trivial, trivial, fun l hl => by cases hl⟩
  generalize nextSequence g.request.groupId s.db = sequence at hcall' hcommit
  unfold commitGroupMessage at hcommit
  obtain ⟨db₁, hcreate, hcommit⟩ := bind_ok.mp hcommit
  obtain ⟨_, _, hdb₁⟩ := createMessage_ok hcreate
  rw [run_append, hs']
  rw [← hdb] at hcreate
  cases g with
  | message senderUserId groupId dto =>
      obtain ⟨replyTo', hreply, hvalidate⟩ := bind_ok.mp hvalidate
      obtain ⟨⟨⟩, hown, hvalidate⟩ := bind_ok.mp hvalidate
      obtain rfl := Except.ok.inj hvalidate
      obtain rfl := Except.ok.inj hcommit
      rw [← hdb] at hreply hown
      rw [run_afterNumber hcall' hlocks' hreply hown hcreate
        (mediaWrites_request ctx rfl _ _), hdb]
      unfold commitWrites
      rw [write_bound hu, hdb₁]
      rfl
  | forward f groupId ciphertext =>
      obtain rfl := Except.ok.inj hvalidate
      rw [hdb₁] at hcommit
      obtain ⟨hw, rfl⟩ := mediaWrites_forward (t := .group (.forward f groupId ciphertext)) rfl hcommit
      have hw' : Task.mediaWrites ctx (.group (.forward f groupId ciphertext)) ctx.messageId s'.db =
          _ := hdb ▸ hw
      rw [run_afterNumber hcall' hlocks' rfl rfl hcreate hw', hdb]
      unfold commitWrites
      rw [write_clones]
      rfl

end Birgap.Messaging.Transactions
