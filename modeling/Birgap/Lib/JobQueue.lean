import Mathlib.Logic.Function.Basic
import Mathlib.Data.List.Basic

/-!
# A job queue that deduplicates by key

A queue holds at most one job for a key. Adding a job whose key is present, in whatever
state, does nothing. A job waits out its delay, waits for a worker, runs, and is removed
when it completes; a failed attempt is delayed again until the attempts are used up, and
the job then stays as a failed one until it is evicted. A running job carries what it has
computed so far.
-/
namespace Birgap.Lib.JobQueue

set_option autoImplicit false

variable {κ δ : Type*}

/-- A job by its state; `failures` counts the attempts that failed. -/
inductive Job (δ : Type*) where
  | delayed (failures : Nat)
  | waiting (failures : Nat)
  | active (failures : Nat) (work : Option δ)
  | failed
  deriving DecidableEq

/-- Nothing is delayed, waiting or running. -/
def Resting : Option (Job δ) → Prop
  | none => True
  | some .failed => True
  | _ => False

/-- What the running job has computed. -/
def work : Option (Job δ) → Option δ
  | some (.active _ w) => w
  | _ => none

variable [DecidableEq κ]

def add (jobs : κ → Option (Job δ)) (k : κ) : κ → Option (Job δ) :=
  match jobs k with
  | none => Function.update jobs k (some (.delayed 0))
  | some _ => jobs

def addAll (jobs : κ → Option (Job δ)) (ks : List κ) : κ → Option (Job δ) := ks.foldl add jobs

theorem add_self (jobs : κ → Option (Job δ)) (k : κ) :
    add jobs k k = some ((jobs k).getD (.delayed 0)) := by
  unfold add
  cases hk : jobs k with
  | none => exact Function.update_self k _ jobs
  | some j => exact hk

theorem add_of_ne (jobs : κ → Option (Job δ)) {k q : κ} (h : q ≠ k) : add jobs k q = jobs q := by
  unfold add
  cases jobs k with
  | none => exact Function.update_of_ne h _ jobs
  | some j => rfl

/-- A key that is not added keeps its job. -/
theorem addAll_of_notMem {ks : List κ} {q : κ} (h : q ∉ ks) :
    ∀ jobs : κ → Option (Job δ), addAll jobs ks q = jobs q := by
  induction ks with
  | nil => intro jobs; rfl
  | cons k ks ih =>
      intro jobs
      have hk : q ≠ k := List.ne_of_not_mem_cons h
      have hks : q ∉ ks := List.not_mem_of_not_mem_cons h
      exact (ih hks (add jobs k)).trans (add_of_ne jobs hk)

/-- A key that is added keeps its job, or gets a delayed one. -/
theorem addAll_of_mem {ks : List κ} {q : κ} (h : q ∈ ks) :
    ∀ jobs : κ → Option (Job δ), addAll jobs ks q = some ((jobs q).getD (.delayed 0)) := by
  induction ks with
  | nil => cases h
  | cons k ks ih =>
      intro jobs
      show addAll (add jobs k) ks q = _
      by_cases hq : q = k
      · subst hq
        by_cases hmem : q ∈ ks
        · rw [ih hmem, add_self, Option.getD_some]
        · rw [addAll_of_notMem hmem, add_self]
      · rcases List.mem_cons.mp h with rfl | hmem
        · exact absurd rfl hq
        · rw [ih hmem, add_of_ne jobs hq]

end Birgap.Lib.JobQueue
