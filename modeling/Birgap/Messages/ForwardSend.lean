import Birgap.Messages.Admission

/-!
# Forwarding to a user is sending

`forwardToDirect` repeats the transaction of `send`. Run on one store with the same draws,
the two reject with the same error, or leave stores that differ in the `forwarded` flag of
the new message and in the attachment rows copied for it.
-/
namespace Birgap.Messages

set_option autoImplicit false

open Birgap.Lib Birgap.Lib.Tx

/-- The message to the same recipient that a forward repeats. -/
def Forward.asSend (f : Forward) : SendMessageDto :=
  { senderDeviceId := f.senderDeviceId, recipientUserId := f.recipientUserId
    idempotencyKey := f.idempotencyKey, contentType := some f.contentType
    envelopes := f.envelopes }

/-- The row of a forwarded message. -/
def asForwarded (m : Message) : Message := { m with forwarded := true }

/-- A row copied for a forwarded message; only its content is that of the source. -/
structure CloneFor (now : Time) (userId messageId : Id) (x c : MessageMedia) : Prop where
  content : c = { x with
    id := c.id, userId := c.userId, messageId := c.messageId, uploadStatus := c.uploadStatus
    uploadedAt := c.uploadedAt, createdAt := c.createdAt }
  owner : c.userId = userId
  bound : c.messageId = some messageId
  complete : c.uploadStatus = .complete
  written : c.uploadedAt = some now ∧ c.createdAt = now

/-- The copies a forward makes of its source's attachments. -/
def clonesFor (ctx : Ctx) (userId : Id) (source : List MessageMedia) : List MessageMedia :=
  source.zipIdx.map fun (m, i) =>
    { m with
      id := ctx.mediaId i, userId, messageId := some ctx.messageId
      uploadStatus := .complete, uploadedAt := some ctx.now, createdAt := ctx.now }

/-- The attachment ids drawn for the copies are new. -/
structure DrawnMedia (ctx : Ctx) (db : Db) : Prop where
  mediaId : ∀ x ∈ db.messageMedia, ∀ i, x.id ≠ ctx.mediaId i
  mediaIds : Function.Injective ctx.mediaId

/-- The statements that only one of the two transactions issues succeed. -/
def Ctx.SharedOnly (ctx : Ctx) : Prop :=
  ctx.fails .replyTarget = false ∧ ctx.fails .attachments = false ∧ ctx.fails .media = false

/-- The store of the send, as the forward leaves it. -/
def forwardedDb (ctx : Ctx) (userId : Id) (source : List MessageMedia) (db : Db) : Db :=
  { db with
    messages := Rows.updateMany (·.id == ctx.messageId) asForwarded db.messages
    messageMedia := db.messageMedia ++ clonesFor ctx userId source }

/-! ## The copies -/

theorem clonesFor_forall (ctx : Ctx) (userId : Id) (source : List MessageMedia) :
    List.Forall₂ (CloneFor ctx.now userId ctx.messageId) source (clonesFor ctx userId source) := by
  have hfrom : ∀ (source : List MessageMedia) (k : Nat),
      List.Forall₂ (CloneFor ctx.now userId ctx.messageId) source
        ((source.zipIdx k).map fun (m, i) =>
          { m with
            id := ctx.mediaId i, userId, messageId := some ctx.messageId
            uploadStatus := .complete, uploadedAt := some ctx.now, createdAt := ctx.now }) := by
    intro source
    induction source with
    | nil =>
        intro k
        exact List.Forall₂.nil
    | cons x source ih =>
        intro k
        exact List.Forall₂.cons ⟨rfl, rfl, rfl, rfl, rfl, rfl⟩ (ih (k + 1))
  exact hfrom source 0

/-- Copies with new ids are inserted. -/
theorem cloneMediaForForward_new {ctx : Ctx} {db : Db} (hd : DrawnMedia ctx db) (userId : Id)
    (source : List MessageMedia) :
    cloneMediaForForward ctx.now ctx.mediaId userId ctx.messageId source db =
      .ok { db with messageMedia := db.messageMedia ++ clonesFor ctx userId source } := by
  obtain ⟨rows, hrows⟩ : ∃ rows, Rows.insertAll (fun a b => a.id == b.id)
      (clonesFor ctx userId source) db.messageMedia = some rows := by
    rw [Rows.insertAll_some_iff]
    constructor
    · intro c hc x hx
      obtain ⟨⟨m, i⟩, _, rfl⟩ := List.mem_map.mp hc
      exact beq_eq_false_iff_ne.mpr (hd.mediaId x hx i).symm
    · unfold clonesFor
      rw [List.pairwise_map]
      refine (zipIdx_pairwise source).imp ?_
      intro a b hne
      exact beq_eq_false_iff_ne.mpr fun he => hne (hd.mediaIds he).symm
  unfold cloneMediaForForward
  unfold clonesFor at hrows ⊢
  dsimp only
  rw [hrows, Rows.insertAll_eq hrows]

/-! ## The transaction -/

theorem bindMedia_nil (userId messageId : Id) (db : Db) : bindMedia userId [] messageId db = db := by
  unfold bindMedia
  rw [Rows.updateMany_eq_self]
  intro x _
  simp

/-- The flag is in no index, so the insert goes the same way with it and without it. -/
theorem createMessage_asForwarded (m : Message) (envelopes : List MessageEnvelope) (db : Db) :
    createMessage (asForwarded m) envelopes db =
      (fun db' => { db' with messages := Rows.updateMany (·.id == m.id) asForwarded db'.messages }) <$>
        createMessage m envelopes db := by
  have hclash : messageClash (asForwarded m) = messageClash m := rfl
  have hdevice : (asForwarded m).senderDeviceId = m.senderDeviceId := rfl
  unfold createMessage
  rw [hclash, hdevice]
  cases hany : db.messages.any (messageClash m) with
  | true => rfl
  | false =>
      cases hstored : db.devices.any (·.id == m.senderDeviceId) with
      | false => rfl
      | true =>
          cases hrows : Rows.insertAll envelopeClash envelopes db.messageEnvelopes with
          | none => rfl
          | some rows =>
              have hold : Rows.updateMany (·.id == m.id) asForwarded db.messages = db.messages := by
                apply Rows.updateMany_eq_self
                intro x hx
                have hfree := List.any_eq_false.mp hany x hx
                simp only [messageClash, Bool.or_eq_true, beq_iff_eq, not_or] at hfree
                simpa using Ne.symm hfree.1.1.1
              have hmarked : Rows.updateMany (·.id == m.id) asForwarded (db.messages ++ [m]) =
                  db.messages ++ [asForwarded m] := by
                unfold Rows.updateMany at hold ⊢
                rw [List.map_append, hold, List.map_singleton, if_pos (beq_self_eq_true m.id)]
              show Except.ok _ = Except.ok { db with messages := _, messageEnvelopes := rows }
              rw [hmarked]

/-- The answer of the send, as the forward gives it. -/
def asForwardedAnswer (r : Serialized) : Serialized := { r with message := asForwarded r.message }

/-- The transaction of the forward does what that of the send does, marks its message and
adds the copies. -/
theorem forwardTx_eq {ctx : Ctx} {f : Forward} {db : Db} (hshared : ctx.SharedOnly)
    (hd : DrawnMedia ctx db) :
    f.tx ctx db = (fun p => (asForwardedAnswer p.1, forwardedDb ctx f.senderUserId f.sourceMedia p.2)) <$>
      sendTx ctx f.senderUserId f.asSend db := by
  obtain ⟨hreply, hattachments, hmedia⟩ := hshared
  have hexec : ∀ stmt, ctx.fails stmt = false → ctx.exec stmt = .ok () := by
    intro stmt h
    unfold Ctx.exec
    rw [h]
    rfl
  unfold Forward.tx forwardTx sendTx
  rw [hexec _ hreply, hexec _ hattachments, hexec _ hmedia, map_bind]
  refine bind_congr fun _ => ?_
  rw [map_bind]
  refine bind_congr fun ids => ?_
  dsimp only
  rw [map_bind]
  refine bind_congr fun _ => ?_
  rw [map_bind]
  refine bind_congr_ok fun ⟨thread, db₁⟩ hupsert => ?_
  dsimp only
  rw [map_bind]
  refine bind_congr fun _ => ?_
  rw [map_bind]
  refine bind_congr_ok fun ⟨sequenced, db₂⟩ hincrement => ?_
  -- the send looks for no reply target and no attachments
  show _ = _ <$> (ctx.exec .messageCreate >>= _)
  rw [map_bind]
  refine bind_congr fun _ => ?_
  let m := sentMessage ctx f.senderUserId f.asSend thread sequenced none
  show createMessage (asForwarded m) _ db₂ >>= _ = _ <$> (createMessage m _ db₂ >>= _)
  rw [createMessage_asForwarded, bind_map_left, map_bind]
  refine bind_congr_ok fun db₃ hcreate => ?_
  have hsame := createMessage_media hupsert hincrement hcreate
  have hd₃ : DrawnMedia ctx { db₃ with
      messages := Rows.updateMany (·.id == m.id) asForwarded db₃.messages } := by
    refine ⟨?_, hd.mediaIds⟩
    show ∀ x ∈ db₃.messageMedia, _
    rw [hsame]
    exact hd.mediaId
  show cloneMediaForForward _ _ _ _ _ _ >>= _ = _ <$> (ctx.exec .commit >>= _)
  rw [cloneMediaForForward_new hd₃, map_bind]
  show ctx.exec .commit >>= _ = _
  refine bind_congr fun _ => ?_
  show _ = Except.ok (_, forwardedDb ctx f.senderUserId f.sourceMedia (bindMedia _ [] _ db₃))
  rw [bindMedia_nil]
  rfl

/-- Forwarding to a user under a new key is sending: the same requests are accepted, the
others are rejected with the same error, and the stores differ in the flag of the new message
and in one copied row for each attachment of the source. -/
theorem forwardToDirect_is_send {ctx : Ctx} {f : Forward} {db : Db} (hshared : ctx.SharedOnly)
    (hd : DrawnMedia ctx db) (hnew : findByKey f.senderDeviceId f.idempotencyKey db = none) :
    ((∃ sent, (forwardToDirect ctx f db).1 = .ok sent) ↔
      ∃ sent, (send ctx f.senderUserId f.asSend db).1 = .ok sent) ∧
    (∀ e, (forwardToDirect ctx f db).1 = .error e ↔
      (send ctx f.senderUserId f.asSend db).1 = .error e) ∧
    (∀ e, (send ctx f.senderUserId f.asSend db).1 = .error e →
      (send ctx f.senderUserId f.asSend db).2 = db ∧ (forwardToDirect ctx f db).2 = db) ∧
    ∀ sent, (send ctx f.senderUserId f.asSend db).1 = .ok sent →
      (forwardToDirect ctx f db).1 =
        .ok { sent with response := asForwardedAnswer sent.response } ∧
      ∃ clones, List.Forall₂ (CloneFor ctx.now f.senderUserId ctx.messageId) f.sourceMedia clones ∧
        (forwardToDirect ctx f db).2 =
          { (send ctx f.senderUserId f.asSend db).2 with
            messages := Rows.updateMany (·.id == ctx.messageId) asForwarded
              (send ctx f.senderUserId f.asSend db).2.messages
            messageMedia := (send ctx f.senderUserId f.asSend db).2.messageMedia ++ clones } := by
  have hnew' : findByKey f.asSend.senderDeviceId f.asSend.idempotencyKey db = none := hnew
  unfold forwardToDirect send
  rw [idempotently_new hnew, idempotently_new hnew', forwardTx_eq hshared hd]
  cases sendTx ctx f.senderUserId f.asSend db with
  | error e =>
      refine ⟨?_, fun _ => Iff.rfl, fun _ _ => ⟨rfl, rfl⟩, ?_⟩
      · exact iff_of_false (fun ⟨_, h⟩ => by cases h) (fun ⟨_, h⟩ => by cases h)
      · intro sent h
        cases h
  | ok p =>
      refine ⟨iff_of_true ⟨_, rfl⟩ ⟨_, rfl⟩, ?_, ?_, ?_⟩
      · intro e
        constructor
        · intro h
          cases h
        · intro h
          cases h
      · intro e h
        cases h
      · intro sent h
        obtain rfl := Except.ok.inj h
        exact ⟨rfl, _, clonesFor_forall ctx f.senderUserId f.sourceMedia, rfl⟩

/-- Alice forwards a message with a picture to Bob. -/
def pictureForward : Forward :=
  { senderUserId := "alice", senderDeviceId := "d1", idempotencyKey := "request:0"
    recipientUserId := "bob", envelopes := [⟨"d2", "c"⟩], contentType := .text
    sourceMedia :=
      [{ id := "p1", userId := "carol", messageId := some "m0", mediaType := .image
         bucketKey := "b", mimeType := "image/png", sizeBytes := 1, filename := "p.png"
         mediaCiphertextHash := "h", createdAt := 0 }] }

/-- Both are accepted, and the forward stores one more row. -/
theorem pictureForward_is_send :
    (∃ sent, (forwardToDirect pairCtx pictureForward pairDb).1 = .ok sent) ∧
      ((forwardToDirect pairCtx pictureForward pairDb).2.messageMedia).length = 1 := by
  have hd : DrawnMedia pairCtx pairDb := ⟨by simp [pairDb], replicate_injective 'm'⟩
  obtain ⟨hiff, _, _, hstores⟩ :=
    forwardToDirect_is_send (f := pictureForward) ⟨rfl, rfl, rfl⟩ hd (by decide)
  obtain ⟨sent, hsent⟩ : ∃ sent, (send pairCtx "alice" pictureForward.asSend pairDb).1 = .ok sent :=
    ⟨_, rfl⟩
  obtain ⟨_, clones, hclones, hstore⟩ := hstores sent hsent
  refine ⟨hiff.mpr ⟨sent, hsent⟩, ?_⟩
  rw [hstore]
  show ((send pairCtx "alice" pictureForward.asSend pairDb).2.messageMedia ++ clones).length = 1
  rw [List.length_append, ← hclones.length_eq]
  decide

end Birgap.Messages
