import Mathlib.Data.List.Basic

/-!
# Checks and transactions in `Except`

A transaction body maps the store to a result and a new store, or throws; run
atomically it keeps the old store when it throws. The `_ok` lemmas peel a body apart
into the checks that passed and the values they returned.
-/
namespace Birgap.Lib.Tx

set_option autoImplicit false

universe u v

variable {ε : Type u} {α β σ : Type v}

/-- Throw `e` unless the check passes. -/
def ensure (c : Bool) (e : ε) : Except ε Unit := if c then .ok () else .error e

/-- Run a check on every row, in order; the first failure is thrown. -/
def checkAll (check : α → Except ε Unit) : List α → Except ε Unit
  | [] => .ok ()
  | a :: as =>
      match check a with
      | .error e => .error e
      | .ok () => checkAll check as

/-- A transaction commits its writes or leaves the store as it was. -/
def atomically (tx : σ → Except ε (α × σ)) (s : σ) : Except ε α × σ :=
  match tx s with
  | .error e => (.error e, s)
  | .ok (a, s') => (.ok a, s')

/-- What a successful body keeps, the transaction keeps. -/
theorem atomically_invariant {tx : σ → Except ε (α × σ)} {I : σ → Prop} {s : σ}
    (h : ∀ a s', tx s = .ok (a, s') → I s → I s') (hs : I s) : I (atomically tx s).2 := by
  unfold atomically
  split
  · exact hs
  · rename_i a s' he
    exact h a s' he hs

theorem bind_ok {x : Except ε α} {f : α → Except ε β} {b : β} :
    (x >>= f) = .ok b ↔ ∃ a, x = .ok a ∧ f a = .ok b := by
  cases x with
  | error e => simp [bind, Except.bind]
  | ok a => simp [bind, Except.bind]

/-- Two bodies with one beginning agree where they agree on what it returns. -/
theorem bind_congr_ok {x : Except ε α} {f g : α → Except ε β} (h : ∀ a, x = .ok a → f a = g a) :
    (x >>= f) = (x >>= g) := by
  cases x with
  | error e => rfl
  | ok a => exact h a rfl

theorem checkAll_ok {check : α → Except ε Unit} {rows : List α} (h : checkAll check rows = .ok ()) :
    ∀ r ∈ rows, check r = .ok () := by
  induction rows with
  | nil => simp
  | cons a as ih =>
      simp only [checkAll] at h
      split at h
      · cases h
      · rename_i ha
        intro r hr
        rcases List.mem_cons.mp hr with rfl | hr
        · exact ha
        · exact ih h r hr

theorem ensure_ok {c : Bool} {e : ε} {u : Unit} : ensure c e = .ok u ↔ c = true := by
  cases c <;> simp [ensure]

end Birgap.Lib.Tx
