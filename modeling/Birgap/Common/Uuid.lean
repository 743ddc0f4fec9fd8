import Mathlib.Data.String.Basic
import Mathlib.Order.Lattice

/-!
# UUIDs

The text of a UUID as `randomUUID` and PostgreSQL write it. Sorting a column of UUIDs sorts
their texts.
-/
namespace Birgap.Common

set_option autoImplicit false

def isUuidChar (c : Char) : Bool := c.isDigit || decide ('a' ≤ c ∧ c ≤ 'f') || c == '-'

structure Uuid where
  text : String
  length_eq : text.toList.length = 36
  chars : text.toList.all isUuidChar = true

theorem Uuid.text_injective {a b : Uuid} (h : a.text = b.text) : a = b := by
  cases a with
  | mk a _ _ =>
      cases b with
      | mk b _ _ =>
          obtain rfl : a = b := h
          rfl

instance : LinearOrder Uuid := LinearOrder.lift' Uuid.text fun _ _ => Uuid.text_injective

theorem Uuid.text_ne_empty (u : Uuid) : u.text ≠ "" := by
  intro h
  have hlength := u.length_eq
  rw [h] at hlength
  cases hlength

/-- No other character occurs in a UUID. -/
theorem Uuid.not_mem (u : Uuid) {c : Char} (hc : isUuidChar c = false) : c ∉ u.text.toList := by
  intro hmem
  have hchar := List.all_eq_true.mp u.chars c hmem
  rw [hc] at hchar
  cases hchar

end Birgap.Common
