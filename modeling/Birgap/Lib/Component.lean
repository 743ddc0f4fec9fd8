import Birgap.Lib.Run

/-!
# A component of a system

A component moves by acts of its own: what it does in a step of the system is determined by the
state and the act of the system. A run of the system is then a run of the component, and an act
the component takes comes from an act of the system.
-/
namespace Birgap.Lib

set_option autoImplicit false

open Run

universe u v w z

variable {σ : Type u} {ι : Type v} {τ : Type w} {κ : Type z}

/-- The component with the steps `part` in the system with the steps `step`. -/
structure Component (step : σ → ι → σ) (part : τ → κ → τ) where
  view : σ → τ
  act : σ → ι → κ
  view_step : ∀ s a, view (step s a) = part (view s) (act s a)

namespace Component

variable {step : σ → ι → σ} {part : τ → κ → τ} (c : Component step part)

/-- The acts of the component in a run of the system. -/
def acts (s : σ) : List ι → List κ
  | [] => []
  | a :: as => c.act s a :: acts (step s a) as

@[simp] theorem acts_nil (s : σ) : c.acts s [] = [] := rfl

@[simp] theorem acts_cons (s : σ) (a : ι) (as : List ι) :
    c.acts s (a :: as) = c.act s a :: c.acts (step s a) as := rfl

theorem view_run (as : List ι) : ∀ s, c.view (run step s as) = run part (c.view s) (c.acts s as) := by
  induction as with
  | nil => exact fun s => rfl
  | cons a as ih =>
      intro s
      rw [run_cons, ih, acts_cons, run_cons, c.view_step]

theorem acts_append (as bs : List ι) :
    ∀ s, c.acts s (as ++ bs) = c.acts s as ++ c.acts (run step s as) bs := by
  induction as with
  | nil => exact fun s => rfl
  | cons a as ih =>
      intro s
      rw [List.cons_append, acts_cons, ih, acts_cons, run_cons, List.cons_append]

/-- A place in the acts of the component is a place in the run of the system. -/
theorem acts_split {b : κ} {pre rest : List κ} (as : List ι) :
    ∀ s, c.acts s as = pre ++ b :: rest →
      ∃ p a q, as = p ++ a :: q ∧ c.acts s p = pre ∧ c.act (run step s p) a = b := by
  induction pre generalizing as with
  | nil =>
      intro s h
      cases as with
      | nil => cases h
      | cons a as =>
          obtain ⟨hb, _⟩ := List.cons_eq_cons.mp h
          exact ⟨[], a, as, rfl, rfl, hb⟩
  | cons x pre ih =>
      intro s h
      cases as with
      | nil => cases h
      | cons a as =>
          obtain ⟨hx, htail⟩ := List.cons_eq_cons.mp h
          obtain ⟨p, a', q, rfl, hpre, hb⟩ := ih as _ htail
          refine ⟨a :: p, a', q, rfl, ?_, hb⟩
          rw [acts_cons, hx, hpre]

theorem mem_acts {b : κ} {as : List ι} {s : σ} (h : b ∈ c.acts s as) :
    ∃ t, ∃ a ∈ as, c.act t a = b := by
  obtain ⟨pre, rest, hsplit⟩ := List.append_of_mem h
  obtain ⟨p, a, q, rfl, _, hb⟩ := c.acts_split as s hsplit
  exact ⟨_, a, List.mem_append_right p List.mem_cons_self, hb⟩

end Component

end Birgap.Lib
