import Birgap.Messages.Queries
import Birgap.Messages.Statements

/-!
# The loop over pending envelopes

A client fetches pages of `getPending`, each after the `envelopeSequence` of the last
envelope it got, while the statements of acks, mark-all-read requests, edits and inserts go
on between the pages. The sequence is unique and never changes, so an envelope that stays pending is either
received or still ahead of the cursor, whatever happens to the others.
-/
namespace Birgap.Messages.Pending

set_option autoImplicit false

open Birgap.Lib Birgap.Lib.Run Birgap.Lib.Paging Birgap.Messages.Delivery

/-- The store with the column `envelopeSequence`, and the client: its cursor, what it has
received, and whether its loop has ended. -/
structure State where
  db : Db
  sequenceOf : Id → Nat
  after : Option Nat := none
  received : List PendingEnvelope := []
  done : Bool := false

/-- A statement of another request, a new envelope, or a round of the client. -/
inductive Act where
  | write (w : Statement)
  | insert (e : MessageEnvelope) (sequence : Nat)
  | fetch

/-- A new row draws a number above those drawn before it; one that violates an index is
not stored. -/
def insertEnvelope (e : MessageEnvelope) (sequence : Nat) (s : State) : State :=
  if s.db.messageEnvelopes.any (envelopeClash e) then s
  else if s.db.messageEnvelopes.all fun x => decide (s.sequenceOf x.id < sequence) then
    { s with
      db := { s.db with messageEnvelopes := s.db.messageEnvelopes ++ [e] }
      sequenceOf := Function.update s.sequenceOf e.id sequence }
  else s

/-- One round of the client's loop. The numbers are unique, so the order leaves no choice. -/
def fetch (userId deviceId : Id) (limit : Option Nat) (s : State) : State :=
  if s.done then s
  else
    match getPending s.sequenceOf (.stable _) userId deviceId s.after limit s.db with
    | .error _ => s
    | .ok page =>
        { s with
          received := s.received ++ page.envelopes
          after := if page.hasMore then page.envelopes.getLast?.map (·.envelopeSequence)
            else s.after
          done := !page.hasMore }

def step (userId deviceId : Id) (limit : Option Nat) (s : State) : Act → State
  | .write w => { s with db := w.exec s.db }
  | .insert e sequence => insertEnvelope e sequence s
  | .fetch => fetch userId deviceId limit s

def start (db : Db) (sequenceOf : Id → Nat) : State := { db, sequenceOf }

/-! ## One page -/

/-- The rows a page is taken from. -/
def ahead (deviceId : Id) (s : State) : List MessageEnvelope :=
  (deviceEnvelopes deviceId s.db).filter fun e =>
    isPending e && s.after.all fun a => decide (a < s.sequenceOf e.id)

def page (deviceId : Id) (limit : Option Nat) (s : State) : List MessageEnvelope :=
  ((OrderBy.stable fun e : MessageEnvelope => s.sequenceOf e.id).arrange
    (ahead deviceId s)).take (limit.getD 50)

/-- A round on an active device, by the page it fetches. -/
theorem fetch_eq {userId deviceId : Id} {limit : Option Nat} {s : State} (hdone : s.done = false)
    (hd : assertActiveDevice userId deviceId s.db = .ok ()) :
    fetch userId deviceId limit s =
      { s with
        received := s.received ++ (page deviceId limit s).map (pendingEnvelope s.sequenceOf s.db)
        after := if (page deviceId limit s).length = limit.getD 50 then
            (page deviceId limit s).getLast?.map fun e => s.sequenceOf e.id
          else s.after
        done := !decide ((page deviceId limit s).length = limit.getD 50) } := by
  unfold fetch getPending
  rw [hdone, hd]
  simp only [Bool.false_eq_true, ↓reduceIte, List.getLast?_map, Option.map_map]
  congr 1
  by_cases hfull : (page deviceId limit s).length = limit.getD 50
  · rw [if_pos hfull]
    exact if_pos (beq_iff_eq.mpr hfull)
  · rw [if_neg hfull]
    exact if_neg (mt beq_iff_eq.mp hfull)

theorem fetch_done {userId deviceId : Id} {limit : Option Nat} {s : State} (h : s.done = true) :
    fetch userId deviceId limit s = s := by
  unfold fetch
  rw [if_pos h]

theorem fetch_failed {userId deviceId : Id} {limit : Option Nat} {s : State} {e : Err}
    (hd : assertActiveDevice userId deviceId s.db = .error e) :
    fetch userId deviceId limit s = s := by
  unfold fetch getPending
  rw [hd]
  simp only [ite_self]

theorem mem_ahead {deviceId : Id} {s : State} {e : MessageEnvelope} :
    e ∈ ahead deviceId s ↔ e ∈ s.db.messageEnvelopes ∧ e.recipientDeviceId = deviceId ∧
      isPending e = true ∧ ∀ a, s.after = some a → a < s.sequenceOf e.id := by
  simp only [ahead, deviceEnvelopes, List.mem_filter, Bool.and_eq_true, beq_iff_eq,
    Option.all_eq_true, decide_eq_true_eq, and_assoc]

theorem mem_page {deviceId : Id} {limit : Option Nat} {s : State} {e : MessageEnvelope}
    (h : e ∈ page deviceId limit s) : e ∈ ahead deviceId s :=
  ((OrderBy.stable fun e : MessageEnvelope => s.sequenceOf e.id).mem_arrange).mp
    (List.mem_of_mem_take h)

/-- The numbers on a page ascend strictly. -/
theorem page_increasing {deviceId : Id} (limit : Option Nat) {s : State}
    (hn : Rows.Unique (fun e => s.sequenceOf e.id) s.db.messageEnvelopes) :
    (page deviceId limit s).Pairwise fun a b => s.sequenceOf a.id < s.sequenceOf b.id := by
  have hsorted := (OrderBy.stable fun e : MessageEnvelope => s.sequenceOf e.id).sorted
    (ahead deviceId s)
  have hdistinct : ((OrderBy.stable fun e : MessageEnvelope => s.sequenceOf e.id).arrange
      (ahead deviceId s)).Pairwise fun a b => s.sequenceOf a.id ≠ s.sequenceOf b.id := by
    apply List.pairwise_map.mp
    exact ((((OrderBy.stable _).perm _).map _).nodup_iff).mpr ((hn.filter _).filter _)
  have hstrict := (hsorted.and hdistinct).imp fun h => lt_of_le_of_ne h.1 h.2
  exact hstrict.sublist (List.take_sublist _ _)

/-- A row ahead of the cursor is on the page, or the page is full and the row still ahead of
its last number. -/
theorem page_or_later {deviceId : Id} (limit : Option Nat) {s : State}
    (hn : Rows.Unique (fun e => s.sequenceOf e.id) s.db.messageEnvelopes) {e : MessageEnvelope}
    (he : e ∈ ahead deviceId s) :
    e ∈ page deviceId limit s ∨ ((page deviceId limit s).length = limit.getD 50 ∧
      ∀ last, (page deviceId limit s).getLast? = some last →
        s.sequenceOf last.id < s.sequenceOf e.id) := by
  have hfound := (OrderBy.stable fun e : MessageEnvelope => s.sequenceOf e.id).mem_arrange.mpr he
  by_cases hp : e ∈ page deviceId limit s
  · exact Or.inl hp
  · refine Or.inr ⟨?_, ?_⟩
    · rw [page, List.length_take]
      apply min_eq_left
      by_contra hshort
      apply hp
      rw [page, List.take_of_length_le (by omega)]
      exact hfound
    · intro last hl
      rcases lt_trichotomy (s.sequenceOf last.id) (s.sequenceOf e.id) with h | h | h
      · exact h
      · have hlast := (mem_ahead.mp (mem_page (List.mem_of_getLast? hl))).1
        rw [hn.eq hlast (mem_ahead.mp he).1 h] at hl
        exact absurd (List.mem_of_getLast? hl) hp
      · exact absurd (mem_take_of_lt_last
          ((OrderBy.stable fun e : MessageEnvelope => s.sequenceOf e.id).sorted _) hl hfound h) hp

/-! ## The invariant of the loop -/

/-- The numbers are unique, what was received is stored under the number it came with, and
until the loop ends the cursor is the last number received. -/
structure Inv (s : State) : Prop where
  ids : Rows.Unique (·.id) s.db.messageEnvelopes
  numbers : Rows.Unique (fun e => s.sequenceOf e.id) s.db.messageEnvelopes
  stored : ∀ r ∈ s.received, r.envelopeSequence = s.sequenceOf r.id ∧
    ∃ e ∈ s.db.messageEnvelopes, e.id = r.id
  increasing : s.received.Pairwise fun a b => a.envelopeSequence < b.envelopeSequence
  behind : s.done = false → ∀ r ∈ s.received, ∃ a, s.after = some a ∧ r.envelopeSequence ≤ a

theorem start_inv {db : Db} {sequenceOf : Id → Nat} (hk : EnvelopeKeys db.messageEnvelopes)
    (hn : Rows.Unique (fun e => sequenceOf e.id) db.messageEnvelopes) :
    Inv (start db sequenceOf) where
  ids := hk.ids
  numbers := hn
  stored := by intro r hr; cases hr
  increasing := List.Pairwise.nil
  behind := by intro _ r hr; cases hr

theorem write_inv {s : State} (w : Statement) (h : Inv s) :
    Inv { s with db := w.exec s.db } := by
  obtain ⟨g, hg, hrows⟩ := w.exec_rewrites s.db
  refine ⟨?_, ?_, ?_, h.increasing, h.behind⟩
  · rw [hrows]
    exact Rows.unique_map hg.id h.ids
  · rw [hrows]
    exact Rows.unique_map (fun e => by rw [hg.id]) h.numbers
  · intro r hr
    obtain ⟨hnum, e, he, hid⟩ := h.stored r hr
    refine ⟨hnum, g e, ?_, (hg.id e).trans hid⟩
    rw [hrows]
    exact List.mem_map_of_mem he

/-- An insert either changes nothing or stores a row under an id and a number not yet in
use. -/
theorem insertEnvelope_cases (e : MessageEnvelope) (sequence : Nat) (s : State) :
    insertEnvelope e sequence s = s ∨
    ((∀ x ∈ s.db.messageEnvelopes, x.id ≠ e.id) ∧
      (∀ x ∈ s.db.messageEnvelopes, s.sequenceOf x.id < sequence) ∧
      insertEnvelope e sequence s =
        { s with
          db := { s.db with messageEnvelopes := s.db.messageEnvelopes ++ [e] }
          sequenceOf := Function.update s.sequenceOf e.id sequence }) := by
  unfold insertEnvelope
  split
  · exact Or.inl rfl
  · rename_i hclash
    split
    · rename_i hall
      refine Or.inr ⟨?_, ?_, rfl⟩
      · intro x hx hid
        apply hclash
        exact List.any_eq_true.mpr ⟨x, hx, by simp [envelopeClash, hid]⟩
      · intro x hx
        simpa using List.all_eq_true.mp hall x hx
    · exact Or.inl rfl

theorem insertEnvelope_inv {s : State} (e : MessageEnvelope) (sequence : Nat) (h : Inv s) :
    Inv (insertEnvelope e sequence s) := by
  rcases insertEnvelope_cases e sequence s with heq | ⟨hfresh, hlarger, heq⟩
  · rw [heq]
    exact h
  · rw [heq]
    -- the numbers of the stored rows are read at other ids
    have hsame : ∀ x ∈ s.db.messageEnvelopes,
        Function.update s.sequenceOf e.id sequence x.id = s.sequenceOf x.id :=
      fun x hx => Function.update_of_ne (hfresh x hx) _ _
    refine ⟨Rows.unique_append h.ids hfresh, ?_, ?_, h.increasing, h.behind⟩
    · apply Rows.unique_append
      · rw [Rows.Unique, List.map_congr_left hsame]
        exact h.numbers
      · intro x hx
        dsimp only
        rw [hsame x hx, Function.update_self]
        exact (hlarger x hx).ne
    · intro r hr
      obtain ⟨hnum, x, hx, hid⟩ := h.stored r hr
      refine ⟨?_, x, List.mem_append_left _ hx, hid⟩
      rw [hnum, ← hid]
      exact (hsame x hx).symm

theorem fetch_inv {userId deviceId : Id} {limit : Option Nat} (hl : 0 < limit.getD 50) {s : State}
    (h : Inv s) : Inv (fetch userId deviceId limit s) := by
  cases hdone : s.done with
  | true =>
      rw [fetch_done hdone]
      exact h
  | false =>
      cases hd : assertActiveDevice userId deviceId s.db with
      | error e =>
          rw [fetch_failed hd]
          exact h
      | ok u =>
          rw [fetch_eq hdone hd]
          -- every number received before is behind every number on the page
          have hcross : ∀ r ∈ s.received, ∀ e ∈ page deviceId limit s,
              r.envelopeSequence < s.sequenceOf e.id := by
            intro r hr e he
            obtain ⟨a, ha, hle⟩ := h.behind hdone r hr
            exact hle.trans_lt ((mem_ahead.mp (mem_page he)).2.2.2 a ha)
          refine ⟨h.ids, h.numbers, ?_, ?_, ?_⟩
          · intro r hr
            rcases List.mem_append.mp hr with hr | hr
            · exact h.stored r hr
            · obtain ⟨e, he, rfl⟩ := List.mem_map.mp hr
              exact ⟨rfl, e, (mem_ahead.mp (mem_page he)).1, rfl⟩
          · rw [List.pairwise_append]
            refine ⟨h.increasing, List.pairwise_map.mpr (page_increasing limit h.numbers), ?_⟩
            intro r hr x hx
            obtain ⟨e, he, rfl⟩ := List.mem_map.mp hx
            exact hcross r hr e he
          · intro hgo r hr
            have hfull : (page deviceId limit s).length = limit.getD 50 := by simpa using hgo
            dsimp only
            rw [if_pos hfull]
            cases hlast : (page deviceId limit s).getLast? with
            | none =>
                rw [List.getLast?_eq_none_iff.mp hlast, List.length_nil] at hfull
                omega
            | some last =>
                refine ⟨s.sequenceOf last.id, rfl, ?_⟩
                rcases List.mem_append.mp hr with hr | hr
                · exact (hcross r hr last (List.mem_of_getLast? hlast)).le
                · obtain ⟨e, he, rfl⟩ := List.mem_map.mp hr
                  exact key_le_last
                    ((OrderBy.stable fun e : MessageEnvelope => s.sequenceOf e.id).sorted _) hlast he

theorem step_inv {userId deviceId : Id} {limit : Option Nat} (hl : 0 < limit.getD 50) (s : State)
    (a : Act) (h : Inv s) : Inv (step userId deviceId limit s a) := by
  cases a with
  | write w => exact write_inv w h
  | insert e sequence => exact insertEnvelope_inv e sequence h
  | fetch => exact fetch_inv hl h

/-- No envelope is received twice. -/
theorem received_nodup {s : State} (h : Inv s) : (s.received.map (·.id)).Nodup := by
  apply List.pairwise_map.mpr
  refine List.Pairwise.imp_of_mem ?_ h.increasing
  intro a b ha hb hlt hid
  rw [(h.stored a ha).1, (h.stored b hb).1] at hlt
  have hid' : a.id = b.id := hid
  rw [hid'] at hlt
  exact lt_irrefl _ hlt

/-! ## Completeness -/

/-- The device has an envelope with this id, and it is PENDING or DELIVERED. -/
def PendingAt (deviceId id : Id) (s : State) : Prop :=
  ∃ e ∈ s.db.messageEnvelopes, e.id = id ∧ e.recipientDeviceId = deviceId ∧ isPending e = true

/-- The envelope was received, or the loop goes on and has not passed it. -/
def Covered (id : Id) (s : State) : Prop :=
  id ∈ s.received.map (·.id) ∨
    (s.done = false ∧ ∀ a, s.after = some a → a < s.sequenceOf id)

theorem insertEnvelope_covered {deviceId id : Id} {s : State} (e : MessageEnvelope) (sequence : Nat)
    (hp : s.done = false → PendingAt deviceId id s) (hc : Covered id s) :
    Covered id (insertEnvelope e sequence s) := by
  rcases insertEnvelope_cases e sequence s with heq | ⟨hfresh, _, heq⟩
  · rw [heq]
    exact hc
  · rw [heq]
    rcases hc with hc | ⟨hdone, hc⟩
    · exact Or.inl hc
    · obtain ⟨x, hx, rfl, _⟩ := hp hdone
      refine Or.inr ⟨hdone, ?_⟩
      intro a ha
      dsimp only
      rw [Function.update_of_ne (hfresh x hx)]
      exact hc a ha

theorem fetch_covered {userId deviceId id : Id} {limit : Option Nat} {s : State} (h : Inv s)
    (hp : s.done = false → PendingAt deviceId id s) (hc : Covered id s) :
    Covered id (fetch userId deviceId limit s) := by
  cases hdone : s.done with
  | true =>
      rw [fetch_done hdone]
      exact hc
  | false =>
      cases hd : assertActiveDevice userId deviceId s.db with
      | error e =>
          rw [fetch_failed hd]
          exact hc
      | ok u =>
          rw [fetch_eq hdone hd]
          rcases hc with hc | ⟨_, hc⟩
          · refine Or.inl ?_
            rw [List.map_append]
            exact List.mem_append_left _ hc
          · obtain ⟨e, he, rfl, hdev, hpend⟩ := hp hdone
            have hahead : e ∈ ahead deviceId s := mem_ahead.mpr ⟨he, hdev, hpend, hc⟩
            rcases page_or_later limit h.numbers hahead with hin | ⟨hfull, hlater⟩
            · refine Or.inl ?_
              rw [List.map_append]
              exact List.mem_append_right _ (List.mem_map_of_mem (List.mem_map_of_mem hin))
            · refine Or.inr ⟨by simp [hfull], ?_⟩
              intro a ha
              dsimp only at ha
              rw [if_pos hfull] at ha
              obtain ⟨last, hlast, rfl⟩ := Option.map_eq_some_iff.mp ha
              exact hlater last hlast

theorem step_covered {userId deviceId id : Id} {limit : Option Nat} (s : State) (a : Act)
    (h : Inv s) (hp : s.done = false → PendingAt deviceId id s) (hc : Covered id s) :
    Covered id (step userId deviceId limit s a) := by
  cases a with
  | write w => exact hc
  | insert e sequence => exact insertEnvelope_covered e sequence hp hc
  | fetch => exact fetch_covered h hp hc

/-- An envelope that is pending as long as the loop runs is covered in every state. -/
theorem run_covered {userId deviceId id : Id} {limit : Option Nat} (hl : 0 < limit.getD 50)
    (acts : List Act) (s : State) (h : Inv s) (hc : Covered id s)
    (hp : Always (step userId deviceId limit) (fun s => s.done = false → PendingAt deviceId id s)
      s acts) : Covered id (run (step userId deviceId limit) s acts) := by
  have hall := always_of_along (I := fun s => Inv s ∧ Covered id s)
    (C := fun s _ => s.done = false → PendingAt deviceId id s)
    (fun s a hs hp => ⟨step_inv hl s a hs.1, step_covered s a hs.1 hp hs.2⟩) acts s ⟨h, hc⟩
    (fun pre a hpre => hp pre ((List.prefix_append pre [a]).trans hpre))
  exact (hall acts (List.prefix_refl _)).2

/-! ## The end of the loop -/

/-- A round that does not end the loop leaves fewer rows ahead. -/
theorem fetch_fewer {userId deviceId : Id} {limit : Option Nat} (hl : 0 < limit.getD 50)
    {s : State} (hdone : s.done = false) (hd : assertActiveDevice userId deviceId s.db = .ok ()) :
    (fetch userId deviceId limit s).done = true ∨
      (ahead deviceId (fetch userId deviceId limit s)).length < (ahead deviceId s).length := by
  rw [fetch_eq hdone hd]
  by_cases hfull : (page deviceId limit s).length = limit.getD 50
  · refine Or.inr ?_
    rw [if_pos hfull]
    cases hlast : (page deviceId limit s).getLast? with
    | none =>
        rw [List.getLast?_eq_none_iff.mp hlast, List.length_nil] at hfull
        omega
    | some last =>
        have hmem := mem_page (List.mem_of_getLast? hlast)
        have hsplit : ahead deviceId
            { s with
              received := s.received ++
                (page deviceId limit s).map (pendingEnvelope s.sequenceOf s.db)
              after := (some last).map fun e => s.sequenceOf e.id
              done := !decide ((page deviceId limit s).length = limit.getD 50) } =
            (ahead deviceId s).filter
              fun e => decide (s.sequenceOf last.id < s.sequenceOf e.id) := by
          unfold ahead
          rw [List.filter_filter]
          apply List.filter_congr
          intro e _
          by_cases hlt : s.sequenceOf last.id < s.sequenceOf e.id
          · have hbefore : (s.after.all fun a => decide (a < s.sequenceOf e.id)) = true := by
              rw [Option.all_eq_true]
              intro a ha
              exact decide_eq_true (((mem_ahead.mp hmem).2.2.2 a ha).trans hlt)
            simp [hlt, hbefore]
          · simp [hlt]
        rw [hsplit]
        apply List.length_filter_lt_length_iff_exists.mpr
        exact ⟨last, hmem, by simp⟩
  · exact Or.inl (by simp [hfull])

theorem fetch_db (userId deviceId : Id) (limit : Option Nat) (s : State) :
    (fetch userId deviceId limit s).db = s.db := by
  unfold fetch
  split
  · rfl
  · split <;> rfl

theorem fetches_after_end {userId deviceId : Id} {limit : Option Nat} {s : State}
    (h : s.done = true) (n : Nat) :
    run (step userId deviceId limit) s (List.replicate n .fetch) = s := by
  induction n with
  | zero => rfl
  | succ n ih =>
      rw [List.replicate_succ, run_cons, step, fetch_done h]
      exact ih

/-- Rounds alone, on an active device, end the loop. -/
theorem fetches_end {userId deviceId : Id} {limit : Option Nat} (hl : 0 < limit.getD 50) :
    ∀ (n : Nat) (s : State), assertActiveDevice userId deviceId s.db = .ok () →
      (ahead deviceId s).length < n →
      (run (step userId deviceId limit) s (List.replicate n .fetch)).done = true := by
  intro n
  induction n with
  | zero => intro s _ h; omega
  | succ n ih =>
      intro s hd h
      rw [List.replicate_succ, run_cons, step]
      cases hdone : s.done with
      | true => rw [fetch_done hdone, fetches_after_end hdone, hdone]
      | false =>
          rcases fetch_fewer hl hdone hd with hend | hfewer
          · rw [fetches_after_end hend, hend]
          · apply ih
            · rw [fetch_db]
              exact hd
            · omega

/-- No step of the system deactivates the device. -/
theorem step_device {userId deviceId : Id} {limit : Option Nat} (s : State) (a : Act)
    (hd : assertActiveDevice userId deviceId s.db = .ok ()) :
    assertActiveDevice userId deviceId (step userId deviceId limit s a).db = .ok () := by
  have hsame : (step userId deviceId limit s a).db.devices = s.db.devices := by
    cases a with
    | write w => exact w.exec_devices s.db
    | insert e sequence =>
        rcases insertEnvelope_cases e sequence s with heq | ⟨_, _, heq⟩ <;>
          rw [step, heq]
    | fetch => rw [step, fetch_db]
  unfold assertActiveDevice at hd ⊢
  rw [hsame]
  exact hd

/-- Whatever happens between the pages, a client with a positive limit receives envelopes in
strictly increasing `envelopeSequence`, none twice; when its loop has ended it has received
every envelope of the device that was PENDING or DELIVERED as long as the loop ran, exactly
once; and from any state, with nothing else going on, its loop ends. -/
theorem pending_loop_complete (userId deviceId : Id) (limit : Option Nat)
    (hl : 0 < limit.getD 50) (db : Db) (sequenceOf : Id → Nat)
    (hk : EnvelopeKeys db.messageEnvelopes)
    (hn : Rows.Unique (fun e => sequenceOf e.id) db.messageEnvelopes)
    (hd : assertActiveDevice userId deviceId db = .ok ()) (acts : List Act) :
    let loop := step userId deviceId limit
    let s := run loop (start db sequenceOf) acts
    (s.received.map (·.envelopeSequence)).Pairwise (· < ·) ∧
    (s.received.map (·.id)).Nodup ∧
    (s.done = true → ∀ id,
      Always loop (fun s => s.done = false → PendingAt deviceId id s) (start db sequenceOf) acts →
        (s.received.map (·.id)).count id = 1) ∧
    ∃ n, (run loop s (List.replicate n .fetch)).done = true := by
  intro loop s
  have hstart := start_inv hk hn
  have hinv : Inv s := run_invariant (fun s a => step_inv hl s a) acts _ hstart
  have hactive : assertActiveDevice userId deviceId s.db = .ok () :=
    run_invariant (I := fun s => assertActiveDevice userId deviceId s.db = .ok ())
      (fun s a => step_device s a) acts _ hd
  refine ⟨List.pairwise_map.mpr hinv.increasing, received_nodup hinv, ?_, ?_⟩
  · intro hdone id hp
    have hcovered : Covered id s :=
      run_covered hl acts _ hstart (Or.inr ⟨rfl, fun a ha => by cases ha⟩) hp
    rcases hcovered with hin | ⟨hgo, _⟩
    · exact List.count_eq_one_of_mem (received_nodup hinv) hin
    · rw [hdone] at hgo
      cases hgo
  · exact ⟨_, fetches_end hl _ s hactive (Nat.lt_succ_self _)⟩

/-- The numbers of Bob's two envelopes. -/
def sampleSequence (id : Id) : Nat := if id = "e2" then 1 else 2

/-- Pages of one envelope: a full one, an ack of the other device, and the empty one that
ends the loop. -/
def sampleActs : List Act :=
  [.fetch, .write (.ackOne 10 "m1" "d3" .delivered none), .fetch]

theorem pending_loop_sample :
    (run (step "bob" "d2" (some 1)) (start sampleDb sampleSequence) sampleActs).done = true ∧
    ((run (step "bob" "d2" (some 1)) (start sampleDb sampleSequence) sampleActs).received.map
      (·.id)).count "e2" = 1 := by
  have hdone : (run (step "bob" "d2" (some 1)) (start sampleDb sampleSequence) sampleActs).done =
      true := rfl
  obtain ⟨_, _, hall, _⟩ := pending_loop_complete "bob" "d2" (some 1) (by decide) sampleDb
    sampleSequence sampleDb_keys (by decide) rfl sampleActs
  refine ⟨hdone, hall hdone "e2" ?_⟩
  simp only [sampleActs, always_cons, always_nil, PendingAt]
  decide

end Birgap.Messages.Pending
