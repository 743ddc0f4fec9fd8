import Mathlib.Data.List.Basic

/-!
# Steps one after another

A batch runs a list of steps, each on the state that the ones before it left, and collects
what they answer. The rules at the end are for a batch that is repeated: where every step
has settled in the final state, it answers the same once more and changes nothing.
-/
namespace Birgap.Lib.Batch

set_option autoImplicit false

variable {σ α : Type*}

def runAll : List (σ → α × σ) → σ → List α × σ
  | [], s => ([], s)
  | f :: fs, s =>
      let (a, s') := f s
      let (as, s'') := runAll fs s'
      (a :: as, s'')

/-- The state left by the first `i` steps. -/
def leftBy (fs : List (σ → α × σ)) (s : σ) (i : Nat) : σ := (runAll (fs.take i) s).2

theorem runAll_length (fs : List (σ → α × σ)) (s : σ) : (runAll fs s).1.length = fs.length := by
  induction fs generalizing s with
  | nil => rfl
  | cons f fs ih =>
      show (runAll fs (f s).2).1.length + 1 = fs.length + 1
      rw [ih]

theorem leftBy_length (fs : List (σ → α × σ)) (s : σ) : leftBy fs s fs.length = (runAll fs s).2 := by
  unfold leftBy
  rw [List.take_length]

/-- Each step starts where the one before it ended. -/
theorem leftBy_succ {fs : List (σ → α × σ)} {i : Nat} {f : σ → α × σ} (h : fs[i]? = some f) (s : σ) :
    leftBy fs s (i + 1) = (f (leftBy fs s i)).2 := by
  unfold leftBy
  induction fs generalizing i s with
  | nil => cases h
  | cons g fs ih =>
      cases i with
      | zero =>
          obtain rfl := Option.some.inj h
          rfl
      | succ i => exact ih h (g s).2

/-- Entry `i` is what step `i` answers on the state left by the ones before it. -/
theorem runAll_getElem? (fs : List (σ → α × σ)) (s : σ) (i : Nat) :
    (runAll fs s).1[i]? = (fs[i]?).map fun f => (f (leftBy fs s i)).1 := by
  unfold leftBy
  induction fs generalizing i s with
  | nil => rfl
  | cons g fs ih =>
      cases i with
      | zero => rfl
      | succ i => exact ih (g s).2 i

/-- What every step keeps, the batch keeps. -/
theorem leftBy_invariant {fs : List (σ → α × σ)} {s : σ} {I : Nat → σ → Prop} (hs : I 0 s)
    (hstep : ∀ (i : Nat) (f : σ → α × σ), fs[i]? = some f → I i (leftBy fs s i) →
      I (i + 1) (f (leftBy fs s i)).2) :
    ∀ i ≤ fs.length, I i (leftBy fs s i) := by
  intro i
  induction i with
  | zero => exact fun _ => hs
  | succ i ih =>
      intro hi
      have hf : fs[i]? = some fs[i] := List.getElem?_eq_getElem hi
      rw [leftBy_succ hf]
      exact hstep i _ hf (ih (Nat.le_of_succ_le hi))

/-- A batch whose steps all leave the state alone. -/
theorem runAll_still {fs : List (σ → α × σ)} {as : List α} {s : σ} (hlength : as.length = fs.length)
    (h : ∀ (i : Nat) (f : σ → α × σ) (a : α), fs[i]? = some f → as[i]? = some a → f s = (a, s)) :
    runAll fs s = (as, s) := by
  induction fs generalizing as with
  | nil =>
      obtain rfl := List.length_eq_zero_iff.mp hlength
      rfl
  | cons f fs ih =>
      cases as with
      | nil => cases hlength
      | cons a as =>
          have hrest : runAll fs s = (as, s) :=
            ih (Nat.succ.inj hlength) fun i g b hg hb => h (i + 1) g b hg hb
          rw [runAll, h 0 f a rfl rfl]
          dsimp only
          rw [hrest]

/-- A step settles when it has run, stays settled through the later ones, and a settled one
answers the same again: then the batch, run again, does. -/
theorem runAll_again {fs gs : List (σ → α × σ)} {s : σ} {S : Nat → α → σ → Prop}
    (hlength : gs.length = fs.length)
    (hsettles : ∀ (i : Nat) (f : σ → α × σ), fs[i]? = some f → S i (f (leftBy fs s i)).1 (leftBy fs s (i + 1)))
    (hkeeps : ∀ i j a, i < j → j < fs.length → S i a (leftBy fs s j) → S i a (leftBy fs s (j + 1)))
    (hagain : ∀ (i : Nat) (g : σ → α × σ) (a : α), gs[i]? = some g → S i a (runAll fs s).2 →
      g (runAll fs s).2 = (a, (runAll fs s).2)) :
    runAll gs (runAll fs s).2 = runAll fs s := by
  have hlast : ∀ (i : Nat) (f : σ → α × σ), fs[i]? = some f → ∀ j, i < j → j ≤ fs.length →
      S i (f (leftBy fs s i)).1 (leftBy fs s j) := by
    intro i f hf j hij
    induction j with
    | zero => exact absurd hij (Nat.not_lt_zero i)
    | succ j ih =>
        intro hj
        rcases Nat.lt_succ_iff_lt_or_eq.mp hij with hlt | rfl
        · exact hkeeps i j _ hlt hj (ih hlt (Nat.le_of_succ_le hj))
        · exact hsettles i f hf
  apply runAll_still
  · rw [runAll_length, hlength]
  · intro i g a hg ha
    rw [runAll_getElem?, Option.map_eq_some_iff] at ha
    obtain ⟨f, hf, rfl⟩ := ha
    apply hagain i g _ hg
    rw [← leftBy_length]
    have hi : i < fs.length := (List.getElem?_eq_some_iff.mp hf).1
    exact hlast i f hf fs.length hi (Nat.le_refl _)

end Birgap.Lib.Batch
