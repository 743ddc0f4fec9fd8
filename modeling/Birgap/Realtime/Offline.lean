import Birgap.Lib.Component
import Birgap.Messages.Queries
import Birgap.Messages.Statements
import Birgap.Realtime.Feed

/-!
# Between the stored and the live

The senders store the envelopes of a message and announce them afterwards, or never when the
process stops in between. A client that joins the room of its device and then reads what is
pending misses nothing: an envelope that was announced before it joined is pending until somebody
marks it READ, and one that is announced later arrives.
-/
namespace Birgap.Realtime.Offline

set_option autoImplicit false

open Birgap.Lib Birgap.Lib.Run Birgap.Auth Birgap.Messages
open Birgap.Realtime.Gateway (NewEnvelope Room received announcedTo)

/-- The gateway, and the senders that have stored envelopes without having announced them yet. -/
structure State where
  gate : Gateway.State
  senders : Nat → Option (List MessageEnvelope)

/-- `store` is the transaction of `send` or of a forward, or the insert of a fan-out; `write` is a
statement of an ack, of a mark-all-read request or of an edit. No other write reaches the
envelopes: those are `rest`. -/
inductive Act where
  | gateway (a : Gateway.Act)
  | store (pid : Nat) (rows : List MessageEnvelope)
  | announce (pid : Nat)
  | stop (pid : Nat)
  | write (w : Statement)
  | rest (db : Db)

/-- `@@unique([messageId, recipientDeviceId])`. -/
def sameKey (e e' : MessageEnvelope) : Bool :=
  e.messageId == e'.messageId && e.recipientDeviceId == e'.recipientDeviceId

/-- The columns that no insert gives have their defaults. -/
def created (e : MessageEnvelope) : MessageEnvelope :=
  { e with status := .pending, deliveredAt := none, readAt := none, envelopeVersion := 1 }

/-- What is stored already is skipped. -/
def insertMissing (rows : List MessageEnvelope) (db : Db) : Db :=
  { db with
    messageEnvelopes := Rows.createManySkip sameKey (rows.map created) db.messageEnvelopes }

def announced (e : MessageEnvelope) : NewEnvelope :=
  { recipientDeviceId := e.recipientDeviceId, recipientUserId := e.recipientUserId
    messageId := e.messageId, ciphertext := e.ciphertext }

/-- The act as the gateway sees it; announcements and writes are those of the senders. -/
def gateAct (s : State) : Act → Gateway.Act
  | .gateway (.store _) => .store s.gate.db
  | .gateway (.messageCreated _) => .store s.gate.db
  | .gateway a => a
  | .store pid rows =>
      match s.senders pid with
      | none => .store (insertMissing rows s.gate.db)
      | some _ => .store s.gate.db
  | .announce pid =>
      match s.senders pid with
      | none => .store s.gate.db
      | some rows => .messageCreated (rows.map announced)
  | .stop _ => .store s.gate.db
  | .write w => .store (w.exec s.gate.db)
  | .rest db => .store { db with messageEnvelopes := s.gate.db.messageEnvelopes }

def sendersAfter (s : State) : Act → Nat → Option (List MessageEnvelope)
  | .store pid rows =>
      match s.senders pid with
      | none => Function.update s.senders pid (some rows)
      | some _ => s.senders
  | .announce pid => Function.update s.senders pid none
  | .stop pid => Function.update s.senders pid none
  | _ => s.senders

section

variable (env : AuthEnv)

def step (s : State) (a : Act) : State :=
  { gate := Gateway.step env s.gate (gateAct s a), senders := sendersAfter s a }

def gate : Component (step env) (Gateway.step env) where
  view := State.gate
  act := gateAct
  view_step _ _ := rfl

end

def start (db : Db) : State := { gate := Gateway.start db, senders := fun _ => none }

variable {env : AuthEnv}

/-- A row for the message and the device of `e`. -/
def RowOf (e row : MessageEnvelope) : Prop :=
  row.messageId = e.messageId ∧ row.recipientDeviceId = e.recipientDeviceId

/-- What a sender is about to announce is stored. -/
def Backed (s : State) : Prop :=
  ∀ pid rows, s.senders pid = some rows → ∀ e ∈ rows, ∃ row ∈ s.gate.db.messageEnvelopes, RowOf e row

theorem stored_insertMissing {rows : List MessageEnvelope} {e : MessageEnvelope} (he : e ∈ rows)
    (db : Db) : ∃ row ∈ (insertMissing rows db).messageEnvelopes, RowOf e row := by
  obtain ⟨row, hrow, rfl | hsame⟩ := Rows.createManySkip_covers sameKey
    (List.mem_map_of_mem (f := created) he) db.messageEnvelopes
  · exact ⟨created e, hrow, rfl, rfl⟩
  · obtain ⟨hmessage, hdevice⟩ := Bool.and_eq_true_iff.mp hsame
    exact ⟨row, hrow, (beq_iff_eq.mp hmessage).symm, (beq_iff_eq.mp hdevice).symm⟩

/-! ## What marks an envelope READ -/

/-- The statement marks the row READ: it is one of a READ ack of the message by the user or by the
device of the row, or of a request of the user to mark the whole thread. -/
def marksRead (row : MessageEnvelope) (db : Db) : Statement → Bool
  | .readAll _ userId messageId _ => row.messageId == messageId && row.recipientUserId == userId
  | .ackOne _ messageId deviceId .read _ =>
      row.messageId == messageId && row.recipientDeviceId == deviceId
  | .markAllRead _ key =>
      row.recipientUserId == key.userId &&
        (Unread.messageOf row db).any (Unread.inThread key.threadType key.threadId)
  | _ => false

theorem isPending_of_status {e e' : MessageEnvelope} (h : e'.status = e.status) :
    isPending e' = isPending e := by
  unfold isPending
  rw [h]

/-- A statement rewrites the rows, and one that is pending stays so unless it is marked READ. -/
theorem exec_pending (db : Db) (w : Statement) :
    ∃ g, Delivery.KeepsKeys g ∧ (w.exec db).messageEnvelopes = db.messageEnvelopes.map g ∧
      ∀ e, isPending e = true → isPending (g e) = true ∨ marksRead e db w = true := by
  have hkept : ∀ (p : MessageEnvelope → Bool) (f : MessageEnvelope → MessageEnvelope),
      Delivery.KeepsKeys f → (∀ e, (f e).status = e.status) →
      ∃ g, Delivery.KeepsKeys g ∧
        Rows.updateMany p f db.messageEnvelopes = db.messageEnvelopes.map g ∧
        ∀ e, isPending e = true → isPending (g e) = true ∨ marksRead e db w = true := by
    intro p f hf hstatus
    refine ⟨_, Delivery.keepsKeys_if hf, rfl, ?_⟩
    intro e he
    refine Or.inl ?_
    split
    · exact (isPending_of_status (hstatus e)).trans he
    · exact he
  cases w with
  | readAll now userId messageId deliveredAt =>
      obtain ⟨g, hg, hstatus, hrows⟩ := Delivery.keepsKeys_readAll now userId messageId deliveredAt
      refine ⟨g, hg, hrows _, ?_⟩
      intro e he
      rcases hstatus e with hsame | ⟨_, hmessage, huser⟩
      · exact Or.inl ((isPending_of_status hsame).trans he)
      · exact Or.inr (by simp [marksRead, hmessage, huser])
  | ackOne now messageId deviceId status deliveredAt =>
      obtain ⟨g, hg, hstatus, hrows⟩ :=
        Delivery.keepsKeys_ackOne now messageId deviceId status deliveredAt
      refine ⟨g, hg, hrows _, ?_⟩
      intro e he
      have hge := hstatus e
      split at hge
      · rename_i hkey
        cases status with
        | read => exact Or.inr (by simp [marksRead, hkey])
        | delivered => exact Or.inl (by simp [isPending, hge])
      · exact Or.inl ((isPending_of_status hge).trans he)
  | markAllRead now key =>
      refine ⟨_, Delivery.keepsKeys_if ?_, rfl, ?_⟩
      · exact ⟨fun _ => rfl, fun _ => rfl, fun _ => rfl, fun _ => rfl⟩
      · intro e he
        split
        · rename_i hunread
          simp only [Unread.unreadEnvelope, Bool.and_eq_true] at hunread
          exact Or.inr (by simp only [marksRead, hunread, Bool.and_self])
        · exact Or.inl he
  | claimEdit now messageId idempotencyKey =>
      refine ⟨id, ⟨fun _ => rfl, fun _ => rfl, fun _ => rfl, fun _ => rfl⟩, ?_, fun e he => Or.inl he⟩
      exact (List.map_id _).symm
  | refreshEnvelope now messageId x =>
      exact hkept _ _ ⟨fun _ => rfl, fun _ => rfl, fun _ => rfl, fun _ => rfl⟩ fun _ => rfl
  | updateChunk now messageId ciphertext chunk =>
      exact hkept _ _ ⟨fun _ => rfl, fun _ => rfl, fun _ => rfl, fun _ => rfl⟩ fun _ => rfl

/-! ## What a step does to the envelopes -/

/-- The gateway itself writes no envelope. -/
theorem gateway_envelopes {s : Gateway.State} {a : Gateway.Act} (ha : ∀ db, a ≠ .store db) :
    (Gateway.step env s a).db.messageEnvelopes = s.db.messageEnvelopes := by
  rcases Gateway.step_db env s a with hsame | hstore | ⟨c, ticketId, deviceId, hconsumed⟩
  · rw [hsame]
  · exact absurd hstore (ha _)
  · rw [hconsumed]
    rfl

/-- An act leaves the envelopes, inserts some, or rewrites them by a statement. -/
theorem step_envelopes (env : AuthEnv) (s : State) (a : Act) :
    (step env s a).gate.db.messageEnvelopes = s.gate.db.messageEnvelopes ∨
    (∃ rows, (step env s a).gate.db = insertMissing rows s.gate.db) ∨
    ∃ w, a = .write w ∧ (step env s a).gate.db = w.exec s.gate.db := by
  cases a with
  | gateway b =>
      cases b with
      | store db => exact Or.inl rfl
      | messageCreated envelopes => exact Or.inl rfl
      | _ => exact Or.inl (gateway_envelopes fun db h => by cases h)
  | store pid rows =>
      cases hsender : s.senders pid with
      | none =>
          refine Or.inr (Or.inl ⟨rows, ?_⟩)
          simp only [step, gateAct, hsender]
          rfl
      | some held =>
          refine Or.inl ?_
          simp only [step, gateAct, hsender]
          rfl
  | announce pid =>
      refine Or.inl ?_
      simp only [step, gateAct]
      split
      · rfl
      · exact gateway_envelopes fun db h => by cases h
  | stop pid => exact Or.inl rfl
  | write w => exact Or.inr (Or.inr ⟨w, rfl, rfl⟩)
  | rest db => exact Or.inl rfl

/-- What is stored stays. -/
theorem step_stored (env : AuthEnv) (s : State) (a : Act) {e : MessageEnvelope}
    (h : ∃ row ∈ s.gate.db.messageEnvelopes, RowOf e row) :
    ∃ row ∈ (step env s a).gate.db.messageEnvelopes, RowOf e row := by
  obtain ⟨row, hrow, hof⟩ := h
  rcases step_envelopes env s a with hsame | ⟨rows, hinsert⟩ | ⟨w, _, hwrite⟩
  · exact ⟨row, hsame ▸ hrow, hof⟩
  · refine ⟨row, ?_, hof⟩
    rw [hinsert]
    exact Rows.mem_createManySkip_of_mem hrow
  · obtain ⟨g, hg, hrows, _⟩ := exec_pending s.gate.db w
    refine ⟨g row, ?_, (hg.messageId row).trans hof.1, (hg.device row).trans hof.2⟩
    rw [hwrite, hrows]
    exact List.mem_map_of_mem hrow

theorem run_stored (env : AuthEnv) (acts : List Act) {e : MessageEnvelope} :
    ∀ s, (∃ row ∈ s.gate.db.messageEnvelopes, RowOf e row) →
      ∃ row ∈ (run (step env) s acts).gate.db.messageEnvelopes, RowOf e row :=
  run_invariant (fun s a h => step_stored env s a h) acts

theorem step_backed (env : AuthEnv) (s : State) (a : Act) (h : Backed s) : Backed (step env s a) := by
  intro pid rows hsender e he
  have hheld : s.senders pid = some rows →
      ∃ row ∈ (step env s a).gate.db.messageEnvelopes, RowOf e row :=
    fun hs => step_stored env s a (h pid rows hs e he)
  have hsender : sendersAfter s a pid = some rows := hsender
  have hcleared : ∀ pid', Function.update s.senders pid' none pid = some rows →
      ∃ row ∈ (step env s a).gate.db.messageEnvelopes, RowOf e row := by
    intro pid' hs
    by_cases hpid : pid = pid'
    · rw [hpid, Function.update_self] at hs
      cases hs
    · rw [Function.update_of_ne hpid] at hs
      exact hheld hs
  cases a with
  | store pid' rows' =>
      cases hsender' : s.senders pid' with
      | some held =>
          simp only [sendersAfter, hsender'] at hsender
          exact hheld hsender
      | none =>
          simp only [sendersAfter, hsender'] at hsender
          by_cases hpid : pid = pid'
          · rw [hpid, Function.update_self] at hsender
            obtain rfl := Option.some.inj hsender
            have hdb : (step env s (.store pid' rows')).gate.db = insertMissing rows' s.gate.db := by
              simp only [step, gateAct, hsender']
              rfl
            rw [hdb]
            exact stored_insertMissing he s.gate.db
          · rw [Function.update_of_ne hpid] at hsender
            exact hheld hsender
  | announce pid' => exact hcleared pid' hsender
  | stop pid' => exact hcleared pid' hsender
  | gateway b => exact hheld hsender
  | write w => exact hheld hsender
  | rest db => exact hheld hsender

theorem start_backed (db : Db) : Backed (start db) := by
  intro pid rows hsender
  cases hsender

/-! ## Every run -/

/-- The row was READ when the run began, or a statement of the run has marked it READ. -/
def MarkedRead (env : AuthEnv) (db : Db) (acts : List Act) (row : MessageEnvelope) : Prop :=
  (∃ row₀ ∈ db.messageEnvelopes, RowOf row row₀ ∧ row₀.status = .read) ∨
    ∃ pre w rest, acts = pre ++ .write w :: rest ∧
      marksRead row (run (step env) (start db) pre).gate.db w = true

/-- No row is out of the pending ones without having been marked READ. -/
def Accounted (env : AuthEnv) (db : Db) (acts : List Act) (s : State) : Prop :=
  ∀ row ∈ s.gate.db.messageEnvelopes, isPending row = true ∨ MarkedRead env db acts row

theorem MarkedRead.snoc {db : Db} {acts : List Act} {row : MessageEnvelope}
    (h : MarkedRead env db acts row) (a : Act) : MarkedRead env db (acts ++ [a]) row := by
  rcases h with hstart | ⟨pre, w, rest, rfl, hmarks⟩
  · exact Or.inl hstart
  · exact Or.inr ⟨pre, w, rest ++ [a], by simp, hmarks⟩

/-- Only the keys of a row and its user decide whether it is marked. -/
theorem marksRead_congr {row row' : MessageEnvelope} (hmessage : row'.messageId = row.messageId)
    (hdevice : row'.recipientDeviceId = row.recipientDeviceId)
    (huser : row'.recipientUserId = row.recipientUserId) (db : Db) (w : Statement) :
    marksRead row' db w = marksRead row db w := by
  unfold marksRead Unread.messageOf
  rw [hmessage, hdevice, huser]

theorem MarkedRead.rewrite {g : MessageEnvelope → MessageEnvelope} (hg : Delivery.KeepsKeys g)
    {db : Db} {acts : List Act} {row : MessageEnvelope} (h : MarkedRead env db acts row) :
    MarkedRead env db acts (g row) := by
  rcases h with ⟨row₀, hrow₀, hof, hread⟩ | ⟨pre, w, rest, hacts, hmarks⟩
  · exact Or.inl ⟨row₀, hrow₀, ⟨hof.1.trans (hg.messageId row).symm,
      hof.2.trans (hg.device row).symm⟩, hread⟩
  · refine Or.inr ⟨pre, w, rest, hacts, ?_⟩
    rw [marksRead_congr (hg.messageId row) (hg.device row) (hg.user row)]
    exact hmarks

theorem start_accounted (env : AuthEnv) (db : Db) : Accounted env db [] (start db) := by
  intro row hrow
  cases hstatus : row.status with
  | pending => exact Or.inl (by simp [isPending, hstatus])
  | delivered => exact Or.inl (by simp [isPending, hstatus])
  | read => exact Or.inr (Or.inl ⟨row, hrow, ⟨rfl, rfl⟩, hstatus⟩)

theorem Accounted.snoc {db : Db} {acts : List Act} (a : Act)
    (h : Accounted env db acts (run (step env) (start db) acts)) :
    Accounted env db (acts ++ [a]) (step env (run (step env) (start db) acts) a) := by
  have hkept : ∀ row ∈ (run (step env) (start db) acts).gate.db.messageEnvelopes,
      isPending row = true ∨ MarkedRead env db (acts ++ [a]) row :=
    fun row hrow => (h row hrow).imp_right fun hread => hread.snoc a
  intro row hrow
  rcases step_envelopes env (run (step env) (start db) acts) a with
    hsame | ⟨rows, hinsert⟩ | ⟨w, rfl, hwrite⟩
  · exact hkept row (hsame ▸ hrow)
  · rw [hinsert] at hrow
    rcases Rows.mem_createManySkip hrow with hrow | hnew
    · exact hkept row hrow
    · obtain ⟨e, _, rfl⟩ := List.mem_map.mp hnew
      exact Or.inl rfl
  · obtain ⟨g, hg, hrows, hpending⟩ := exec_pending (run (step env) (start db) acts).gate.db w
    rw [hwrite, hrows] at hrow
    obtain ⟨row₀, hrow₀, rfl⟩ := List.mem_map.mp hrow
    rcases hkept row₀ hrow₀ with hpend | hread
    · refine (hpending row₀ hpend).imp_right fun hmarks => ?_
      have hmarked : MarkedRead env db (acts ++ [.write w]) row₀ :=
        Or.inr ⟨acts, w, [], rfl, hmarks⟩
      exact hmarked.rewrite hg
    · exact Or.inr (hread.rewrite hg)

theorem run_accounted (env : AuthEnv) (db : Db) (acts : List Act) :
    Accounted env db acts (run (step env) (start db) acts) :=
  run_history (I := Accounted env db) (start_accounted env db) (fun _ a h => h.snoc a) acts

/-- The envelope is announced in the run, from the state `s`. -/
def Announces (env : AuthEnv) (s : State) (acts : List Act) (e : MessageEnvelope) : Prop :=
  ∃ pre pid rest rows, acts = pre ++ .announce pid :: rest ∧
    (run (step env) s pre).senders pid = some rows ∧ e ∈ rows

/-- An announced envelope is stored from then on. -/
theorem announced_stored {db : Db} {acts : List Act} {e : MessageEnvelope}
    (h : Announces env (start db) acts e) :
    ∃ row ∈ (run (step env) (start db) acts).gate.db.messageEnvelopes, RowOf e row := by
  obtain ⟨pre, pid, rest, rows, rfl, hsender, he⟩ := h
  have hbacked : Backed (run (step env) (start db) pre) :=
    run_invariant (fun s a h => step_backed env s a h) pre (start db) (start_backed db)
  rw [run_append]
  exact run_stored env _ _ (hbacked pid rows hsender e he)

/-- The gateway sees every announcement. -/
theorem announced_seen {s : State} {acts : List Act} {e : MessageEnvelope}
    (h : Announces env s acts e) :
    announced e ∈ ((gate env).acts s acts).flatMap (announcedTo e.recipientDeviceId) := by
  obtain ⟨pre, pid, rest, rows, rfl, hsender, he⟩ := h
  rw [Component.acts_append, Component.acts_cons, List.flatMap_append, List.flatMap_cons]
  refine List.mem_append_right _ (List.mem_append_left _ ?_)
  have hact : (gate env).act (run (step env) s pre) (.announce pid) =
      .messageCreated (rows.map announced) := by
    show gateAct (run (step env) s pre) (.announce pid) = _
    simp only [gateAct, hsender]
  rw [hact]
  exact List.mem_filter.mpr ⟨List.mem_map_of_mem he, beq_self_eq_true _⟩

/-- An announcement falls into the first part of a run or into the rest of it. -/
theorem announces_append {s : State} {before acts : List Act} {e : MessageEnvelope}
    (h : Announces env s (before ++ acts) e) :
    Announces env s before e ∨ Announces env (run (step env) s before) acts e := by
  obtain ⟨pre, pid, rest, rows, hsplit, hsender, he⟩ := h
  rcases List.append_eq_append_iff.mp hsplit with ⟨mid, rfl, hacts⟩ | ⟨mid, rfl, hrest⟩
  · rw [run_append] at hsender
    exact Or.inr ⟨mid, pid, rest, rows, hacts, hsender, he⟩
  · cases mid with
    | nil =>
        rw [List.append_nil]
        exact Or.inr ⟨[], pid, rest, rows, hrest.symm, hsender, he⟩
    | cons a mid =>
        obtain ⟨rfl, _⟩ := List.cons_eq_cons.mp hrest
        exact Or.inl ⟨pre, pid, mid, rows, rfl, hsender, he⟩

theorem start_gate (before : List Act) (db : Db) :
    (run (step env) (start db) before).gate =
      run (Gateway.step env) (Gateway.start db) ((gate env).acts (start db) before) :=
  (gate env).view_run before (start db)

/-- The row is pending, and whoever reads on from before it with `getPending` until a page is not
full gets it. -/
def Awaits (row : MessageEnvelope) (db : Db) : Prop :=
  isPending row = true ∧
    ∀ (sequenceOf : Id → Nat) (order : Paging.OrderBy fun e : MessageEnvelope => sequenceOf e.id)
      (userId : Id) (after limit : Option Nat) (page : PendingPage),
      getPending sequenceOf order userId row.recipientDeviceId after limit db = .ok page →
      page.hasMore = false → (∀ a, after = some a → a < sequenceOf row.id) →
      pendingEnvelope sequenceOf db row ∈ page.envelopes

theorem awaits_of_pending {row : MessageEnvelope} {db : Db} (hrow : row ∈ db.messageEnvelopes)
    (hpending : isPending row = true) : Awaits row db := by
  refine ⟨hpending, ?_⟩
  intro sequenceOf order userId after limit page hpage hmore hafter
  unfold getPending at hpage
  split at hpage
  · cases hpage
  · obtain rfl := Except.ok.inj hpage
    simp only [beq_eq_false_iff_ne] at hmore
    refine List.mem_map_of_mem ?_
    rw [List.length_take] at hmore
    rw [List.take_of_length_le (by omega)]
    apply order.mem_arrange.mpr
    refine List.mem_filter.mpr ⟨List.mem_filter.mpr ⟨hrow, beq_self_eq_true _⟩, ?_⟩
    rw [hpending, Bool.true_and, Option.all_eq_true]
    exact fun a ha => decide_eq_true (hafter a ha)

/-- The device has a row for the envelope, which awaits it unless it has been marked READ. -/
def CatchesUp (env : AuthEnv) (db : Db) (acts : List Act) (e : MessageEnvelope) : Prop :=
  ∃ row ∈ deviceEnvelopes e.recipientDeviceId (run (step env) (start db) acts).gate.db,
    row.messageId = e.messageId ∧
      (Awaits row (run (step env) (start db) acts).gate.db ∨ MarkedRead env db acts row)

theorem catchesUp_of_stored {db : Db} {acts : List Act} {e : MessageEnvelope}
    (h : ∃ row ∈ (run (step env) (start db) acts).gate.db.messageEnvelopes, RowOf e row) :
    CatchesUp env db acts e := by
  obtain ⟨row, hrow, hmessage, hdevice⟩ := h
  refine ⟨row, List.mem_filter.mpr ⟨hrow, beq_iff_eq.mpr hdevice⟩, hmessage, ?_⟩
  exact (run_accounted env db acts row hrow).imp_left (awaits_of_pending hrow)

/-- One envelope is announced while "a" is still joining and read later, and one comes afterwards. -/
def early : MessageEnvelope :=
  { id := "e1", messageId := "m1", recipientUserId := "alice", recipientDeviceId := "d1"
    ciphertext := "c1", createdAt := 1000, updatedAt := 1000 }

def late : MessageEnvelope := { early with id := "e2", messageId := "m2" }

def storing : List Act :=
  [.gateway (.connect "a" (some "ticket-1") none 1000), .gateway (.find "a"), .store 0 [early],
   .gateway (.session "a"), .gateway (.device "a")]

def whileJoining : List Act :=
  storing ++ .announce 0 :: [.gateway (.commit "a"), .gateway (.enter "a"), .gateway (.enterDevice "a")]

def afterwards : List Act :=
  [.store 1 [late], .write (.ackOne 1001 "m1" "d1" .read none), .announce 1]

end Birgap.Realtime.Offline
