import Mathlib.Logic.Function.Basic

/-!
# Counters of fixed windows

A key may be counted only while its window is open. The counter of a key gets its time to live
in a write of its own, some time after the first count, and is gone at some time after that
has run out. Nothing is lost of a count as long as no key can run out before its window closes.
-/
namespace Birgap.Lib.FixedWindow

set_option autoImplicit false

variable {κ : Type*} [DecidableEq κ]

structure Counter where
  value : Nat
  expiresAt : Option Nat := none
  deriving DecidableEq

abbrev Counters (κ : Type*) := κ → Option Counter

def value (c : Counters κ) (k : κ) : Nat := (c k).elim 0 (·.value)

/-- One more, keeping the time to live; a counter that was not there has none. -/
def incr (k : κ) (c : Counters κ) : Counters κ :=
  Function.update c k (some { value := value c k + 1, expiresAt := (c k).bind (·.expiresAt) })

/-- The time to live of a counter that is there. -/
def expire (k : κ) (at_ : Nat) (c : Counters κ) : Counters κ :=
  Function.update c k ((c k).map fun x => { x with expiresAt := some at_ })

/-- A counter whose time is up is dropped. -/
def drop (now : Nat) (k : κ) (c : Counters κ) : Counters κ :=
  if ((c k).bind (·.expiresAt)).any (decide <| · ≤ now) then Function.update c k none else c

/-- The windows of the keys. A time to live that is set in the window ends after it. -/
structure Windows (κ : Type*) where
  opens : κ → Nat
  closes : κ → Nat
  ttl : κ → Nat
  covers : ∀ k, closes k ≤ opens k + ttl k

/-- While the window is open the counter has counted all that were granted, and it does not
run out before. -/
structure Kept (w : Windows κ) (limit : Nat) (now : Nat) (granted : Nat) (k : κ) (c : Counters κ) :
    Prop where
  le : granted ≤ limit
  counted : now < w.closes k → granted ≤ value c k
  lasts : ∀ at_, (c k).bind (·.expiresAt) = some at_ → w.closes k ≤ at_

variable {w : Windows κ} {limit now granted : Nat} {k : κ} {c : Counters κ}

theorem value_incr (k : κ) (c : Counters κ) : value (incr k c) k = value c k + 1 := by
  simp [value, incr]

theorem value_incr_of_ne {k l : κ} (hne : k ≠ l) (c : Counters κ) :
    value (incr l c) k = value c k := by
  simp [value, incr, hne]

/-- A time to live leaves every count as it is. -/
theorem value_expire (k l : κ) (at_ : Nat) (c : Counters κ) :
    value (expire l at_ c) k = value c k := by
  unfold value expire
  by_cases hne : k = l
  · subst hne
    rw [Function.update_self]
    cases c k <;> rfl
  · rw [Function.update_of_ne hne]

theorem drop_of_ne {k l : κ} (hne : k ≠ l) (now : Nat) (c : Counters κ) :
    drop now l c k = c k := by
  unfold drop
  split
  · rw [Function.update_of_ne hne]
  · rfl

/-- A key is dropped or left alone. -/
theorem drop_self (now : Nat) (k : κ) (c : Counters κ) :
    drop now k c k = none ∨ drop now k c k = c k := by
  unfold drop
  split
  · exact .inl (Function.update_self ..)
  · exact .inr rfl

omit [DecidableEq κ] in
theorem Kept.later (h : Kept w limit now granted k c) {now' : Nat} (hle : now ≤ now') :
    Kept w limit now' granted k c :=
  { h with counted := fun hopen => h.counted (by omega) }

/-- What is done to another key. -/
theorem Kept.update_ne (h : Kept w limit now granted k c) {l : κ} (hne : k ≠ l)
    (x : Option Counter) : Kept w limit now granted k (Function.update c l x) := by
  refine ⟨h.le, ?_, ?_⟩
  · intro hopen
    unfold value
    rw [Function.update_of_ne hne]
    exact h.counted hopen
  · rw [Function.update_of_ne hne]
    exact h.lasts

/-- A count within the limit is granted, one above it is not. -/
theorem Kept.incr (h : Kept w limit now granted k c) (hopen : now < w.closes k) :
    Kept w limit now (if value (incr k c) k ≤ limit then granted + 1 else granted) k
      (incr k c) := by
  have hcounted := h.counted hopen
  refine ⟨?_, fun _ => ?_, ?_⟩
  · rw [value_incr]
    split
    · omega
    · exact h.le
  · rw [value_incr]
    split <;> omega
  · intro at_ hat
    simp only [FixedWindow.incr, Function.update_self, Option.bind_some] at hat
    exact h.lasts at_ hat

omit [DecidableEq κ] in
/-- Fewer granted than counted does no harm. -/
theorem Kept.anti (h : Kept w limit now granted k c) {granted' : Nat} (hle : granted' ≤ granted) :
    Kept w limit now granted' k c :=
  ⟨Nat.le_trans hle h.le, fun hopen => Nat.le_trans hle (h.counted hopen), h.lasts⟩

/-- A time to live that is set once the window has opened. -/
theorem Kept.expire (h : Kept w limit now granted k c) {l : κ} (hopened : w.opens l ≤ now) :
    Kept w limit now granted k (expire l (now + w.ttl l) c) := by
  by_cases hne : k = l
  · subst hne
    refine ⟨h.le, ?_, ?_⟩
    · intro hopen
      rw [value_expire]
      exact h.counted hopen
    · intro at_ hat
      have hcovers := w.covers k
      have hset : at_ = now + w.ttl k := by
        unfold FixedWindow.expire at hat
        rw [Function.update_self] at hat
        cases hc : c k with
        | none => rw [hc] at hat; cases hat
        | some x => rw [hc] at hat; exact (Option.some.inj hat).symm
      omega
  · exact h.update_ne hne _

/-- A counter that is dropped has its window behind it. -/
theorem Kept.drop (h : Kept w limit now granted k c) (l : κ) :
    Kept w limit now granted k (drop now l c) := by
  unfold FixedWindow.drop
  split
  · rename_i hdue
    by_cases hne : k = l
    · subst hne
      obtain ⟨at_, hat, hle⟩ : ∃ at_, (c k).bind (·.expiresAt) = some at_ ∧ at_ ≤ now := by
        simpa [Option.any_eq_true] using hdue
      have hlasts := h.lasts at_ hat
      refine ⟨h.le, fun hopen => ?_, ?_⟩
      · omega
      · rw [Function.update_self]
        intro at' hat'
        cases hat'
    · exact h.update_ne hne _
  · exact h

end Birgap.Lib.FixedWindow
