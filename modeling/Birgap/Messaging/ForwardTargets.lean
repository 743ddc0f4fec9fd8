import Birgap.Messaging.System
import Birgap.Messages.ForwardSend
import Birgap.Lib.Batch

/-!
# The targets of a forward

`MessagesService.forward` run alone: one target after another, each by `forwardToDirect` or
`forwardToGroup`, and what a target throws is recorded in its entry of the answer. The loop is
the batch of its targets, and it is what the system of all calls does when no other call takes
a step in between.
-/
namespace Birgap.Messaging

set_option autoImplicit false

open Birgap.Lib Birgap.Lib.Tx Birgap.Lib.Batch Birgap.Lib.Run Birgap.Messages Birgap.Groups
  Birgap.Auth

/-- The database and the fan-out queue. -/
structure Store where
  db : Db
  jobs : List GroupFanoutJobData

/-- Where a validated target goes. -/
inductive Destination where
  | direct (recipientUserId : Id) (envelopes : List MessageEnvelopeDto)
  | group (groupId : Id) (ciphertext : Ciphertext)

/-- The validation of a target, by its type. -/
def destination (target : ForwardTargetDto) : Except Err Destination :=
  match target.type with
  | .direct => do
      let (recipientUserId, envelopes) ← validateDirectTarget target
      pure (.direct recipientUserId envelopes)
  | .group => do
      let (groupId, ciphertext) ← validateGroupTarget target
      pure (.group groupId ciphertext)

/-- The transaction of `forwardToGroup`. -/
def groupTx (ctx : Ctx) (r : GroupRequest) (db : Db) : Except Err (Message × Db) :=
  match findByKey r.senderDeviceId r.idempotencyKey db with
  | some existing => .ok (existing, db)
  | none => do
      let message := groupMessage ctx.now ctx.messageId r (nextSequence r.groupId db) none
      let db ← commitGroupMessage ctx.now ctx.mediaId message r db
      pure (message, db)

/-- `MessagesService.forwardToGroup`, when the queue takes the job. -/
def forwardToGroup (ctx : Ctx) (r : GroupRequest) (s : Store) : Except Err Id × Store :=
  if !isMember r.groupId r.senderUserId s.db then
    (.error (.forbidden "You are not a member of this group"), s)
  else
    match findByKey r.senderDeviceId r.idempotencyKey s.db with
    | some existing => (.ok existing.id, s)
    | none =>
        match atomically (groupTx ctx r) s.db with
        | (.error e, db) => (.error e, { s with db })
        | (.ok message, db) => (.ok message.id, { db, jobs := s.jobs ++ [fanoutJob r message] })

/-- The arguments of `forwardToDirect` for a target. -/
def directRequest (f : Forwarding) (idempotencyKey : String) (recipientUserId : Id)
    (envelopes : List MessageEnvelopeDto) : Forward :=
  { senderUserId := f.userId, senderDeviceId := f.dto.senderDeviceId, idempotencyKey
    recipientUserId, envelopes, sourceMedia := f.sourceMedia, contentType := f.contentType }

/-- The arguments of `forwardToGroup` for a target. -/
def groupRequest (f : Forwarding) (idempotencyKey : String) (groupId : Id)
    (ciphertext : Ciphertext) : GroupRequest :=
  { senderUserId := f.userId, groupId, senderDeviceId := f.dto.senderDeviceId, idempotencyKey
    ciphertext, payload := .forward f.contentType f.sourceMedia }

/-- One target by itself: its validation, and the forward to where it goes. -/
def forwardTarget (ctx : Ctx) (f : Forwarding) (idempotencyKey : String) (target : ForwardTargetDto)
    (s : Store) : Except Err Id × Store :=
  match destination target with
  | .error e => (.error e, s)
  | .ok (.direct recipientUserId envelopes) =>
      match forwardToDirect ctx (directRequest f idempotencyKey recipientUserId envelopes) s.db with
      | (.ok sent, db) => (.ok sent.response.message.id, { s with db })
      | (.error e, db) => (.error e, { s with db })
  | .ok (.group groupId ciphertext) =>
      forwardToGroup ctx (groupRequest f idempotencyKey groupId ciphertext) s

/-- The loop of `forward`; `ctx i` is what target `i` draws. -/
def forwardLoop (ctx : Nat → Ctx) : List ForwardTargetDto → Forwarding → Store → Forwarding × Store
  | [], f, s => (f, s)
  | target :: targets, f, s =>
      let (outcome, s) := forwardTarget (ctx f.results.length) f f.perTargetKey target s
      forwardLoop ctx targets (f.push outcome) s

/-- `MessagesService.forward`. -/
def forward (ctx : Nat → Ctx) (userId : Id) (dto : ForwardMessageDto) (s : Store) :
    Except Err (List ForwardResult) × Store :=
  match startForward userId dto s.db with
  | .error e => (.error e, s)
  | .ok f =>
      let (f, s) := forwardLoop ctx dto.targets f s
      (.ok f.results, s)

/-! ## The loop as a batch -/

/-- The targets of a forward as steps, each with its own key. -/
def targetSteps (ctx : Nat → Ctx) (f : Forwarding) : List (Store → Except Err Id × Store) :=
  f.dto.targets.zipIdx.map fun (target, i) => forwardTarget (ctx i) f (f.dto.perTargetKey i) target

/-- The loop remembers its answers in the forward and reads nothing else of them. -/
theorem forwardTarget_push (ctx : Ctx) (f : Forwarding) (o : Except Err Id) (key : String)
    (target : ForwardTargetDto) :
    forwardTarget ctx (f.push o) key target = forwardTarget ctx f key target := by
  unfold Forwarding.push
  split <;> rfl

theorem push_results {f : Forwarding} {target : ForwardTargetDto}
    (h : f.dto.targets[f.results.length]? = some target) (o : Except Err Id) :
    (f.push o).results = f.results ++ [target.result o] := by
  unfold Forwarding.push
  rw [h]

/-- The rounds that are left, from any round on. -/
theorem forwardLoop_eq (ctx : Nat → Ctx) (targets : List ForwardTargetDto) :
    ∀ (f : Forwarding) (s : Store), f.dto.targets.drop f.results.length = targets →
      (forwardLoop ctx targets f s).2 = (runAll ((targets.zipIdx f.results.length).map
        fun (target, i) => forwardTarget (ctx i) f (f.dto.perTargetKey i) target) s).2 ∧
      (forwardLoop ctx targets f s).1.results = f.results ++
        List.zipWith ForwardTargetDto.result targets
          (runAll ((targets.zipIdx f.results.length).map
            fun (target, i) => forwardTarget (ctx i) f (f.dto.perTargetKey i) target) s).1 := by
  induction targets with
  | nil =>
      intro f s _
      exact ⟨rfl, (List.append_nil _).symm⟩
  | cons target targets ih =>
      intro f s hdrop
      have hget : f.dto.targets[f.results.length]? = some target := by
        rw [← List.head?_drop, hdrop]
        rfl
      have hrest : f.dto.targets.drop (f.results.length + 1) = targets := by
        rw [← List.drop_drop, hdrop]
        rfl
      let o := (forwardTarget (ctx f.results.length) f f.perTargetKey target s).1
      let s' := (forwardTarget (ctx f.results.length) f f.perTargetKey target s).2
      have hlength : (f.push o).results.length = f.results.length + 1 := by
        rw [push_results hget, List.length_append]
        rfl
      have hdrop' : (f.push o).dto.targets.drop (f.push o).results.length = targets := by
        rw [hlength, Forwarding.push_dto]
        exact hrest
      obtain ⟨hstore, hresults⟩ := ih (f.push o) s' hdrop'
      simp only [forwardTarget_push, Forwarding.push_dto, hlength] at hstore hresults
      refine ⟨hstore, hresults.trans ?_⟩
      rw [push_results hget, List.append_assoc]
      rfl

/-- The answer and the store of a forward are those of the batch of its targets. -/
theorem forward_eq {ctx : Nat → Ctx} {userId : Id} {dto : ForwardMessageDto} {s : Store}
    {f : Forwarding} (h : startForward userId dto s.db = .ok f) :
    forward ctx userId dto s =
      (.ok (List.zipWith ForwardTargetDto.result dto.targets (runAll (targetSteps ctx f) s).1),
        (runAll (targetSteps ctx f) s).2) := by
  obtain ⟨_, hdto, hresults, _⟩ := startForward_ok h
  have hdrop : f.dto.targets.drop f.results.length = dto.targets := by
    rw [hdto, hresults]
    rfl
  obtain ⟨hstore, hentries⟩ := forwardLoop_eq ctx dto.targets f s hdrop
  have hsteps : targetSteps ctx f = (dto.targets.zipIdx f.results.length).map
      fun (target, i) => forwardTarget (ctx i) f (f.dto.perTargetKey i) target := by
    unfold targetSteps
    rw [hdto, hresults]
    rfl
  unfold forward
  rw [h, hsteps]
  dsimp only
  rw [hstore, hentries, hresults, List.nil_append]

theorem targetSteps_getElem? (ctx : Nat → Ctx) (f : Forwarding) (i : Nat) :
    (targetSteps ctx f)[i]? =
      (f.dto.targets[i]?).map fun target => forwardTarget (ctx i) f (f.dto.perTargetKey i) target := by
  unfold targetSteps
  rw [List.getElem?_map, List.getElem?_zipIdx]
  cases f.dto.targets[i]? with
  | none => rfl
  | some target =>
      simp only [Option.map_some, Nat.zero_add]

/-! ## The loop in the system -/

/-- The statements of one round of the loop, undisturbed; those that the target does not
come to change nothing. -/
def roundActs (pid : Nat) (ctx : Ctx) : List Act :=
  [.target pid, .tx pid ctx, .recover pid, .txCheck pid, .readMax pid,
   .validate pid ctx.maxAttachments, .commit pid ctx.now ctx.messageId ctx.mediaId, .enqueue pid]

section Alone

variable {env : AuthEnv} {configuredMax : Option Int} {pid : Nat} {ctx : Ctx}

/-- The state after a round. -/
def afterRound (s : State) (pid : Nat) (f : Forwarding) (o : Except Err Id × Store) : State :=
  { db := o.2.db, calls := Function.update s.calls pid (.forwarding (f.push o.1)), jobs := o.2.jobs }

/-- Between two targets the other statements of a call do nothing. -/
theorem run_between (ctx : Ctx) {s : State} {f : Forwarding} (h : s.calls pid = .forwarding f) {acts : List Act}
    (hacts : acts <:+ [.tx pid ctx, .recover pid, .txCheck pid, .readMax pid,
      .validate pid ctx.maxAttachments, .commit pid ctx.now ctx.messageId ctx.mediaId, .enqueue pid]) :
    run (step env configuredMax) s acts = s := by
  have hstill : ∀ a ∈ acts, step env configuredMax s a = s := by
    intro a ha
    have hmem := hacts.subset ha
    simp only [List.mem_cons, List.not_mem_nil, or_false] at hmem
    rcases hmem with rfl | rfl | rfl | rfl | rfl | rfl | rfl <;> simp only [step, exec, h]
  clear hacts
  induction acts with
  | nil => rfl
  | cons a acts ih =>
      rw [run_cons, hstill a List.mem_cons_self]
      exact ih fun a' ha' => hstill a' (List.mem_cons_of_mem _ ha')

/-- A round that is over stays so. -/
theorem run_afterRound (ctx : Ctx) {s : State} {f : Forwarding} {o : Except Err Id × Store}
    {acts : List Act} (hacts : acts <:+ [.tx pid ctx, .recover pid, .txCheck pid, .readMax pid,
      .validate pid ctx.maxAttachments, .commit pid ctx.now ctx.messageId ctx.mediaId, .enqueue pid]) :
    run (step env configuredMax) (afterRound s pid f o) acts = afterRound s pid f o :=
  run_between ctx (Function.update_self _ _ _) hacts

/-- The round of a direct target. -/
theorem round_direct (s : State) (f : Forwarding) (recipientUserId : Id)
    (envelopes : List MessageEnvelopeDto) :
    run (step env configuredMax) (enterDirect s pid (.forward f recipientUserId envelopes)).1
        (roundActs pid ctx).tail =
      afterRound s pid f
        (match forwardToDirect ctx (directRequest f f.perTargetKey recipientUserId envelopes) s.db with
        | (.ok sent, db) => (.ok sent.response.message.id, { db, jobs := s.jobs })
        | (.error e, db) => (.error e, { db, jobs := s.jobs })) := by
  let t := DirectTask.forward f recipientUserId envelopes
  let r := directRequest f f.perTargetKey recipientUserId envelopes
  show run _ (enterDirect s pid t).1 _ = afterRound s pid f (match forwardToDirect ctx r s.db with
    | (.ok sent, db) => _
    | (.error e, db) => _)
  have htx : t.tx ctx s.db = r.tx ctx s.db := rfl
  unfold enterDirect forwardToDirect
  cases hfind : findByKey t.senderDeviceId t.idempotencyKey s.db with
  | some existing =>
      have hfind' : findByKey r.senderDeviceId r.idempotencyKey s.db = some existing := hfind
      unfold idempotently
      rw [hfind']
      apply run_between ctx
      · exact Function.update_self _ _ _
      · exact List.suffix_rfl
  | none =>
      have hfind' : findByKey r.senderDeviceId r.idempotencyKey s.db = none := hfind
      rw [idempotently_new hfind']
      show run _ _ (Act.tx pid ctx :: Act.recover pid :: _) = _
      rw [run_cons]
      cases hout : r.tx ctx s.db with
      | ok p =>
          have hstep : step env configuredMax (s.set pid (.sending t)) (.tx pid ctx) =
              afterRound s pid f (.ok p.1.message.id, { db := p.2, jobs := s.jobs }) := by
            simp only [afterRound, step, exec, State.set, State.finish, Function.update_self,
              Function.update_idem, htx, hout]
            rfl
          rw [hstep]
          exact run_afterRound ctx (List.suffix_cons _ _)
      | error e =>
          by_cases hunique : e = .uniqueConstraint
          · subst hunique
            have hstep : step env configuredMax (s.set pid (.sending t)) (.tx pid ctx) =
                s.set pid (.recovering t) := by
              simp only [step, exec, State.set, Function.update_self, Function.update_idem, htx, hout]
            have hrecover : step env configuredMax (s.set pid (.recovering t)) (.recover pid) =
                afterRound s pid f (.error .uniqueConstraint, { db := s.db, jobs := s.jobs }) := by
              simp only [afterRound, step, exec, State.set, State.finish, Function.update_self,
                Function.update_idem, hfind]
              rfl
            rw [hstep, run_cons, hrecover]
            exact run_afterRound ctx ((List.suffix_cons _ _).trans (List.suffix_cons _ _))
          · have hstep : step env configuredMax (s.set pid (.sending t)) (.tx pid ctx) =
                afterRound s pid f (.error e, { db := s.db, jobs := s.jobs }) := by
              simp only [afterRound, step, exec, State.set, State.finish, Function.update_self,
                Function.update_idem, htx, hout]
              rfl
            rw [hstep]
            exact run_afterRound ctx (List.suffix_cons _ _)

/-- The round of a group target. -/
theorem round_group (s : State) (f : Forwarding) (groupId : Id) (ciphertext : Ciphertext) :
    run (step env configuredMax) (enterGroup s pid (.forward f groupId ciphertext)).1
        (roundActs pid ctx).tail =
      afterRound s pid f (forwardToGroup ctx (groupRequest f f.perTargetKey groupId ciphertext)
        { db := s.db, jobs := s.jobs }) := by
  let t := GroupTask.forward f groupId ciphertext
  show run _ (enterGroup s pid t).1 _ = afterRound s pid f (forwardToGroup ctx t.request _)
  unfold enterGroup forwardToGroup
  by_cases hmember : (!isMember t.request.groupId t.request.senderUserId s.db) = true
  · rw [if_pos hmember, if_pos hmember]
    apply run_between ctx
    · exact Function.update_self _ _ _
    · exact List.suffix_rfl
  · rw [if_neg hmember, if_neg hmember]
    cases hfind : findByKey t.request.senderDeviceId t.request.idempotencyKey s.db with
    | some existing =>
        apply run_between ctx
        · exact Function.update_self _ _ _
        · exact List.suffix_rfl
    | none =>
        let sequence := nextSequence t.request.groupId s.db
        let m := groupMessage ctx.now ctx.messageId t.request sequence none
        have hidle : ∀ a, a = Act.tx pid ctx ∨ a = Act.recover pid →
            step env configuredMax (s.set pid (.entered t)) a = s.set pid (.entered t) := by
          rintro a (rfl | rfl) <;> simp only [step, exec, State.set, Function.update_self]
        have hcheck : step env configuredMax (s.set pid (.entered t)) (.txCheck pid) =
            s.set pid (.checked t) := by
          simp only [step, exec, State.set, Function.update_self, Function.update_idem, hfind]
        have hread : step env configuredMax (s.set pid (.checked t)) (.readMax pid) =
            s.set pid (.numbered t sequence) := by
          simp only [step, exec, State.set, Function.update_self, Function.update_idem, sequence]
        have hvalidate : step env configuredMax (s.set pid (.numbered t sequence))
            (.validate pid ctx.maxAttachments) = s.set pid (.validated t sequence none) := by
          have hpayload : validatePayload ctx.maxAttachments t.request s.db = .ok none := rfl
          simp only [step, exec, State.set, Function.update_self, Function.update_idem, hpayload]
        show run _ _ [Act.tx pid ctx, .recover pid, .txCheck pid, .readMax pid,
          .validate pid ctx.maxAttachments, .commit pid ctx.now ctx.messageId ctx.mediaId,
          .enqueue pid] = _
        rw [run_cons, hidle _ (Or.inl rfl), run_cons, hidle _ (Or.inr rfl), run_cons, hcheck, run_cons,
          hread, run_cons, hvalidate, run_cons]
        have hgroup : groupTx ctx t.request s.db =
            commitGroupMessage ctx.now ctx.mediaId m t.request s.db >>= fun db => pure (m, db) := by
          unfold groupTx
          rw [hfind]
        dsimp only
        unfold atomically
        rw [hgroup]
        cases hcommit : commitGroupMessage ctx.now ctx.mediaId m t.request s.db with
        | error e =>
            have hstep : step env configuredMax (s.set pid (.validated t sequence none))
                (.commit pid ctx.now ctx.messageId ctx.mediaId) =
                afterRound s pid f (.error e, { db := s.db, jobs := s.jobs }) := by
              simp only [afterRound, step, exec, State.set, State.finish, Function.update_self,
                Function.update_idem, sequence, m, hcommit]
              rfl
            rw [hstep]
            exact run_afterRound ctx (List.suffix_append [_, _, _, _, _, _] [_])
        | ok db =>
            have hstep : step env configuredMax (s.set pid (.validated t sequence none))
                (.commit pid ctx.now ctx.messageId ctx.mediaId) =
                ({ s with db := db }.set pid (.enqueueing t m)) := by
              simp only [step, exec, State.set, Function.update_self, Function.update_idem, sequence, m,
                hcommit]
            have henqueue : step env configuredMax ({ s with db := db }.set pid (.enqueueing t m))
                (.enqueue pid) =
                afterRound s pid f (.ok m.id, { db, jobs := s.jobs ++ [fanoutJob t.request m] }) := by
              simp only [afterRound, step, exec, State.set, State.finish, Function.update_self,
                Function.update_idem]
              rfl
            rw [hstep, run_cons, henqueue]
            rfl

/-- A round of the loop with no other call in between is its target by itself. -/
theorem round_alone {s : State} {f : Forwarding} {target : ForwardTargetDto}
    (hcall : s.calls pid = .forwarding f) (htarget : f.dto.targets[f.results.length]? = some target) :
    run (step env configuredMax) s (roundActs pid ctx) =
      afterRound s pid f
        (forwardTarget ctx f f.perTargetKey target { db := s.db, jobs := s.jobs }) := by
  have hfirst : step env configuredMax s (.target pid) = (nextTarget s pid f).1 := by
    simp only [step, exec, hcall]
  show run _ (step env configuredMax s (.target pid)) (roundActs pid ctx).tail = _
  rw [hfirst]
  unfold nextTarget forwardTarget destination
  rw [htarget]
  dsimp only
  cases target.type with
  | direct =>
      dsimp only
      cases hvalid : validateDirectTarget target with
      | error e =>
          apply run_between ctx
          · exact Function.update_self _ _ _
          · exact List.suffix_rfl
      | ok p => exact round_direct s f p.1 p.2
  | group =>
      dsimp only
      cases hvalid : validateGroupTarget target with
      | error e =>
          apply run_between ctx
          · exact Function.update_self _ _ _
          · exact List.suffix_rfl
      | ok p => exact round_group s f p.1 p.2

/-- The rounds of a whole forward, undisturbed, are its loop. -/
theorem rounds_alone (ctx : Nat → Ctx) (targets : List ForwardTargetDto) :
    ∀ (f : Forwarding) (s : State), s.calls pid = .forwarding f →
      f.dto.targets.drop f.results.length = targets →
      run (step env configuredMax) s
          ((targets.zipIdx f.results.length).flatMap fun (_, i) => roundActs pid (ctx i)) =
        let o := forwardLoop ctx targets f { db := s.db, jobs := s.jobs }
        { db := o.2.db, calls := Function.update s.calls pid (.forwarding o.1), jobs := o.2.jobs } := by
  induction targets with
  | nil =>
      intro f s hcall _
      show s = _
      simp only [forwardLoop, ← hcall, Function.update_eq_self]
  | cons target targets ih =>
      intro f s hcall hdrop
      have hget : f.dto.targets[f.results.length]? = some target := by
        rw [← List.head?_drop, hdrop]
        rfl
      have hrest : f.dto.targets.drop (f.results.length + 1) = targets := by
        rw [← List.drop_drop, hdrop]
        rfl
      let o := forwardTarget (ctx f.results.length) f f.perTargetKey target { db := s.db, jobs := s.jobs }
      have hlength : (f.push o.1).results.length = f.results.length + 1 := by
        rw [push_results hget, List.length_append]
        rfl
      have hdrop' : (f.push o.1).dto.targets.drop (f.push o.1).results.length = targets := by
        rw [hlength, Forwarding.push_dto]
        exact hrest
      have hnext := ih (f.push o.1) (afterRound s pid f o) (Function.update_self _ _ _) hdrop'
      rw [List.zipIdx_cons, List.flatMap_cons, run_append, round_alone hcall hget]
      rw [hlength] at hnext
      refine hnext.trans ?_
      simp only [afterRound, Function.update_idem]
      rfl

theorem forwardLoop_dto (ctx : Nat → Ctx) (targets : List ForwardTargetDto) :
    ∀ (f : Forwarding) (s : Store), (forwardLoop ctx targets f s).1.dto = f.dto := by
  induction targets with
  | nil => exact fun _ _ => rfl
  | cons target targets ih =>
      intro f s
      exact (ih _ _).trans (Forwarding.push_dto f _)

/-- The whole request: its start, its rounds, and the round that finds no target left and
returns the entries. -/
theorem forward_alone (ctx : Nat → Ctx) {s s' : State} {userId : Id} {dto : ForwardMessageDto}
    {f : Forwarding} (hidle : s.calls pid = .idle) (hstart : startForward userId dto s.db = .ok f)
    (hrun : run (step env configuredMax) s (.forward pid userId dto ::
      dto.targets.zipIdx.flatMap fun (_, i) => roundActs pid (ctx i)) = s') :
    ∃ g, answer env configuredMax s' (.target pid) = some (.forwarded g) ∧
      forward ctx userId dto { db := s.db, jobs := s.jobs } =
        (.ok g.results, { db := s'.db, jobs := s'.jobs }) := by
  obtain ⟨_, hdto, hresults, _⟩ := startForward_ok hstart
  have hstep : step env configuredMax s (.forward pid userId dto) = s.set pid (.forwarding f) := by
    simp only [step, exec, hidle, hstart]
  have hdrop : f.dto.targets.drop f.results.length = dto.targets := by
    rw [hdto, hresults]
    rfl
  have hrounds : run (step env configuredMax) (s.set pid (.forwarding f))
      ((dto.targets.zipIdx f.results.length).flatMap fun (_, i) => roundActs pid (ctx i)) = _ :=
    rounds_alone ctx dto.targets f (s.set pid (.forwarding f)) (Function.update_self _ _ _) hdrop
  rw [hresults] at hrounds
  rw [run_cons, hstep] at hrun
  have hs' := hrun.symm.trans hrounds
  let o := forwardLoop ctx dto.targets f { db := s.db, jobs := s.jobs }
  have hlength : o.1.results.length = dto.targets.length := by
    rw [(forwardLoop_eq ctx dto.targets f _ hdrop).2, hresults, List.nil_append, List.length_zipWith,
      runAll_length, List.length_map, List.length_zipIdx, Nat.min_self]
  have hcall : s'.calls pid = .forwarding o.1 := by
    rw [hs']
    exact Function.update_self _ _ _
  have hnone : o.1.dto.targets[o.1.results.length]? = none := by
    rw [forwardLoop_dto, hdto, hlength]
    exact List.getElem?_eq_none (Nat.le_refl _)
  refine ⟨o.1, ?_, ?_⟩
  · simp only [answer, exec, hcall, nextTarget, hnone]
  · unfold forward
    rw [hstart, hs']
    rfl

end Alone

end Birgap.Messaging
