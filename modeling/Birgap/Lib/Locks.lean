import Mathlib.Data.List.Basic

/-!
# Locks held to the end of a transaction

A statement waits while another transaction holds a lock it asks for, and a transaction
gives its locks back when it ends. A lock is any value: the key of a row, or an entry of
a unique index.
-/
namespace Birgap.Lib.Locks

set_option autoImplicit false

/-- The locks held, each with the number of the transaction that holds it. -/
abbrev Table (κ : Type*) := List (κ × Nat)

variable {κ : Type*} {t : Table κ} {pid q : Nat} {k : κ} {ks : List κ}

/-- No other transaction holds one of these locks. -/
def free [DecidableEq κ] (t : Table κ) (pid : Nat) (ks : List κ) : Bool :=
  t.all fun held => held.2 == pid || !ks.contains held.1

def acquire (t : Table κ) (pid : Nat) (ks : List κ) : Table κ := t ++ ks.map fun k => (k, pid)

def release (t : Table κ) (pid : Nat) : Table κ := t.filter fun held => held.2 != pid

/-- A lock has one holder. -/
def Exclusive (t : Table κ) : Prop := ∀ k p q, (k, p) ∈ t → (k, q) ∈ t → p = q

theorem exclusive_nil : Exclusive ([] : Table κ) := by
  intro k p q hp
  cases hp

theorem free_holder [DecidableEq κ] (h : free t pid ks = true) (hk : k ∈ ks) (hq : (k, q) ∈ t) :
    q = pid := by
  have hq' := List.all_eq_true.mp h (k, q) hq
  simp only [Bool.or_eq_true, beq_iff_eq, Bool.not_eq_true', List.contains_eq_mem,
    decide_eq_false_iff_not] at hq'
  exact hq'.resolve_right fun hn => hn hk

theorem free_of [DecidableEq κ] (h : ∀ k ∈ ks, ∀ q, q ≠ pid → (k, q) ∉ t) :
    free t pid ks = true := by
  refine List.all_eq_true.mpr fun held hheld => ?_
  simp only [Bool.or_eq_true, beq_iff_eq, Bool.not_eq_true', List.contains_eq_mem,
    decide_eq_false_iff_not]
  by_cases hq : held.2 = pid
  · exact Or.inl hq
  · exact Or.inr fun hk => h held.1 hk held.2 hq hheld

theorem mem_acquire : (k, q) ∈ acquire t pid ks ↔ (k, q) ∈ t ∨ k ∈ ks ∧ q = pid := by
  simp only [acquire, List.mem_append, List.mem_map, Prod.mk.injEq]
  constructor
  · rintro (h | ⟨_, hk, rfl, rfl⟩)
    · exact Or.inl h
    · exact Or.inr ⟨hk, rfl⟩
  · rintro (h | ⟨hk, rfl⟩)
    · exact Or.inl h
    · exact Or.inr ⟨k, hk, rfl, rfl⟩

theorem mem_release : (k, q) ∈ release t pid ↔ (k, q) ∈ t ∧ q ≠ pid := by
  simp only [release, List.mem_filter, bne_iff_ne]

/-- Locks that no other transaction holds may be taken. -/
theorem Exclusive.acquire [DecidableEq κ] (h : Exclusive t) (hf : free t pid ks = true) :
    Exclusive (acquire t pid ks) := by
  intro k p q hp hq
  rcases mem_acquire.mp hp with hp' | ⟨hk, hp'⟩
  · rcases mem_acquire.mp hq with hq' | ⟨hk, hq'⟩
    · exact h k p q hp' hq'
    · rw [hq']
      exact free_holder hf hk hp'
  · rw [hp']
    rcases mem_acquire.mp hq with hq' | ⟨_, hq'⟩
    · exact (free_holder hf hk hq').symm
    · exact hq'.symm

theorem Exclusive.release (h : Exclusive t) : Exclusive (release t pid) :=
  fun k p q hp hq => h k p q (mem_release.mp hp).1 (mem_release.mp hq).1

end Birgap.Lib.Locks
