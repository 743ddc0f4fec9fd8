import Mathlib.Data.List.Basic

/-!
# Asking until nothing comes

A client that calls again and again, each time with what it has received so far, and stops at
the first answer that brings nothing. An answer may depend on the number of the call, as the
data behind it may change between two calls.
-/
namespace Birgap.Lib.Polling

set_option autoImplicit false

variable {α : Type*}

/-- What a client has received when an answer brings nothing; none when a call fails or the
fuel is used up. -/
def collect (call : Nat → List α → Option (List α)) : Nat → Nat → List α → Option (List α)
  | 0, _, _ => none
  | fuel + 1, i, received =>
      match call i received with
      | none => none
      | some [] => some received
      | some (x :: page) => collect call fuel (i + 1) (received ++ x :: page)

variable {call : Nat → List α → Option (List α)}

theorem collect_nothing {fuel i : Nat} {received : List α} (h : call i received = some []) :
    collect call (fuel + 1) i received = some received := by
  rw [collect, h]

theorem collect_page {fuel i : Nat} {received page : List α} (h : call i received = some page)
    (hpage : page ≠ []) :
    collect call (fuel + 1) i received = collect call fuel (i + 1) (received ++ page) := by
  cases page with
  | nil => exact absurd rfl hpage
  | cons x page => rw [collect, h]

theorem collect_succ {fuel i : Nat} {received got : List α}
    (h : collect call fuel i received = some got) :
    collect call (fuel + 1) i received = some got := by
  induction fuel generalizing i received with
  | zero => cases h
  | succ fuel ih =>
      cases hcall : call i received with
      | none =>
          rw [collect, hcall] at h
          cases h
      | some page =>
          by_cases hpage : page = []
          · subst hpage
            rw [collect_nothing hcall] at h ⊢
            exact h
          · rw [collect_page hcall hpage] at h ⊢
            exact ih h

theorem collect_more {fuel : Nat} (more : Nat) {i : Nat} {received got : List α}
    (h : collect call fuel i received = some got) :
    collect call (fuel + more) i received = some got := by
  induction more with
  | zero => exact h
  | succ more ih => exact collect_succ ih

/-- What a client ends with does not depend on the fuel. -/
theorem collect_unique {fuel fuel' i : Nat} {received got got' : List α}
    (h : collect call fuel i received = some got) (h' : collect call fuel' i received = some got') :
    got = got' := by
  have hmore := collect_more fuel' h
  have hmore' := collect_more fuel h'
  rw [Nat.add_comm, hmore] at hmore'
  exact Option.some.inj hmore'

/-- An invariant that every answer keeps holds in the end, and the end comes when a measure
falls with every answer that brings something. -/
theorem collect_ends (I : Nat → List α → Prop) (size : List α → Nat)
    (hstep : ∀ i received, I i received → ∃ page, call i received = some page ∧
      (page ≠ [] → I (i + 1) (received ++ page) ∧ size (received ++ page) < size received)) :
    ∀ fuel i received, I i received → size received < fuel →
      ∃ j got, collect call fuel i received = some got ∧ I j got ∧ call j got = some [] := by
  intro fuel
  induction fuel with
  | zero => intro i received _ hsize; omega
  | succ fuel ih =>
      intro i received hi hsize
      obtain ⟨page, hcall, hnext⟩ := hstep i received hi
      by_cases hpage : page = []
      · subst hpage
        exact ⟨i, received, collect_nothing hcall, hi, hcall⟩
      · obtain ⟨hi', hless⟩ := hnext hpage
        obtain ⟨j, got, hrun, hgot⟩ := ih (i + 1) _ hi' (by omega)
        exact ⟨j, got, (collect_page hcall hpage).trans hrun, hgot⟩

end Birgap.Lib.Polling
