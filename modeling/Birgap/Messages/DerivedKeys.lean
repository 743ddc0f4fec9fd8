import Birgap.Messages.Forward
import Mathlib

/-!
# The keys of the targets of a forward

`forward` makes the key of a target from its own key, a colon and the index. The colon is the
last one in the result, so a derived key determines the key it comes from and the index.
-/
namespace Birgap.Messages

set_option autoImplicit false

/-- A list splits at the last occurrence of an entry in one way. -/
theorem append_cons_inj_last {α : Type} {x : α} {a a' b b' : List α} (hb : x ∉ b) (hb' : x ∉ b')
    (h : a ++ x :: b = a' ++ x :: b') : a = a' ∧ b = b' := by
  rcases List.append_eq_append_iff.mp h with ⟨c, ha, hc⟩ | ⟨c, ha, hc⟩
  · cases c with
    | nil =>
        rw [List.nil_append] at hc
        rw [List.append_nil] at ha
        exact ⟨ha.symm, (List.cons.inj hc).2⟩
    | cons y c =>
        obtain ⟨_, hc⟩ := List.cons.inj hc
        refine absurd ?_ hb
        rw [hc]
        exact List.mem_append_right _ List.mem_cons_self
  · cases c with
    | nil =>
        rw [List.nil_append] at hc
        rw [List.append_nil] at ha
        exact ⟨ha, (List.cons.inj hc).2.symm⟩
    | cons y c =>
        obtain ⟨_, hc⟩ := List.cons.inj hc
        refine absurd ?_ hb'
        rw [hc]
        exact List.mem_append_right _ List.mem_cons_self

/-- The text of an index has no colon. -/
theorem colon_notMem_index (i : Nat) : ':' ∉ (toString i).toList := by
  intro h
  have hdigits : ':' ∈ Nat.toDigits 10 i := by
    rw [← Nat.toList_repr]
    exact h
  have hdigit := Nat.isDigit_of_mem_toDigits (by decide) (by decide) hdigits
  simp at hdigit

/-- A derived key determines the key and the index. -/
theorem derivedKey_inj {key key' : String} {i j : Nat}
    (h : key ++ ":" ++ toString i = key' ++ ":" ++ toString j) : key = key' ∧ i = j := by
  have hchars : key.toList ++ ':' :: (toString i).toList = key'.toList ++ ':' :: (toString j).toList := by
    have hlist := congrArg String.toList h
    simpa [String.toList_append] using hlist
  obtain ⟨hkey, hindex⟩ := append_cons_inj_last (colon_notMem_index i) (colon_notMem_index j) hchars
  exact ⟨String.toList_injective hkey, Nat.repr_injective (String.toList_injective hindex)⟩

theorem perTargetKey_inj {dto : ForwardMessageDto} {i j : Nat}
    (h : dto.perTargetKey i = dto.perTargetKey j) : i = j :=
  (derivedKey_inj h).2

end Birgap.Messages
