import Mathlib.Data.List.Range
import Mathlib.Data.List.Nodup

/-!
# Gapless sequence numbers

A collection of numbers is gapless up to `n` when it consists of exactly 1, .., n, each
used once, in any order.
-/
namespace Birgap.Lib.Sequence

set_option autoImplicit false

def Gapless (n : Nat) (seqs : List Nat) : Prop := seqs.Perm (List.range' 1 n)

theorem gapless_nil : Gapless 0 [] := List.Perm.refl _

/-- Appending the next number extends the range by one. -/
theorem Gapless.snoc {n : Nat} {seqs : List Nat} (h : Gapless n seqs) :
    Gapless (n + 1) (seqs ++ [n + 1]) := by
  unfold Gapless
  rw [List.range'_concat, Nat.one_mul, Nat.add_comm 1 n]
  exact List.Perm.append_right _ h

theorem Gapless.mem_iff {n : Nat} {seqs : List Nat} (h : Gapless n seqs) {k : Nat} :
    k ∈ seqs ↔ 1 ≤ k ∧ k ≤ n := by
  have hr : k ∈ List.range' 1 n ↔ 1 ≤ k ∧ k < 1 + n := List.mem_range'_1
  rw [List.Perm.mem_iff h, hr]
  omega

/-- A number at most one past the end that is not in use is the next one. -/
theorem Gapless.eq_next {n : Nat} {seqs : List Nat} (h : Gapless n seqs) {k : Nat} (hpos : 1 ≤ k)
    (hle : k ≤ n + 1) (hfree : k ∉ seqs) : k = n + 1 := by
  rw [h.mem_iff] at hfree
  omega

end Birgap.Lib.Sequence
