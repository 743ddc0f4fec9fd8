import Mathlib.Data.List.Infix

/-!
# Runs of a step function

A system is a total function from a state and a label to the next state; a label
that is not enabled leaves the state alone. A run is a list of labels. `Always`
speaks about the states a run visits, `Along` about the steps it takes. The rules
below reduce both to statements about one step.
-/
namespace Birgap.Lib.Run

set_option autoImplicit false

variable {σ ι : Type*} (step : σ → ι → σ)

/-- The state reached after all labels. -/
def run (s : σ) (ls : List ι) : σ := ls.foldl step s

/-- `I` holds in every state the run visits, the first and the last included. -/
def Always (I : σ → Prop) (s : σ) (ls : List ι) : Prop :=
  ∀ pre, pre <+: ls → I (run step s pre)

/-- `P` holds of every step taken, given as the state before it and its label. -/
def Along (P : σ → ι → Prop) (s : σ) (ls : List ι) : Prop :=
  ∀ pre l, pre ++ [l] <+: ls → P (run step s pre) l

/-- `R` relates every state the run visits to every state it visits from then on. -/
def Later (R : σ → σ → Prop) (s : σ) (ls : List ι) : Prop :=
  ∀ pre mid, pre ++ mid <+: ls → R (run step s pre) (run step s (pre ++ mid))

@[simp] theorem run_nil (s : σ) : run step s [] = s := rfl

@[simp] theorem run_cons (s : σ) (l : ι) (ls : List ι) :
    run step s (l :: ls) = run step (step s l) ls := rfl

theorem run_append (s : σ) (as bs : List ι) :
    run step s (as ++ bs) = run step (run step s as) bs := List.foldl_append

theorem along_nil (P : σ → ι → Prop) (s : σ) : Along step P s [] := by
  intro pre l h
  have hl := h.length_le
  simp at hl

theorem along_cons (P : σ → ι → Prop) (s : σ) (l : ι) (ls : List ι) :
    Along step P s (l :: ls) ↔ P s l ∧ Along step P (step s l) ls := by
  constructor
  · intro h
    refine ⟨h [] l (by simp), ?_⟩
    intro pre k hk
    exact h (l :: pre) k (List.cons_prefix_cons.mpr ⟨rfl, hk⟩)
  · rintro ⟨hl, hls⟩ pre k hk
    cases pre with
    | nil =>
        obtain rfl : k = l := (List.cons_prefix_cons.mp hk).1
        exact hl
    | cons a pre =>
        obtain ⟨rfl, hpre⟩ := List.cons_prefix_cons.mp hk
        exact hls pre k hpre

theorem along_append (P : σ → ι → Prop) (as bs : List ι) :
    ∀ s, Along step P s (as ++ bs) ↔ Along step P s as ∧ Along step P (run step s as) bs := by
  induction as with
  | nil => intro s; exact ⟨fun h => ⟨along_nil step P s, h⟩, fun h => h.2⟩
  | cons a as ih =>
      intro s
      rw [List.cons_append, along_cons, along_cons, ih, run_cons, and_assoc]

theorem always_nil (I : σ → Prop) (s : σ) : Always step I s [] ↔ I s := by
  constructor
  · intro h
    exact h [] (List.prefix_refl _)
  · intro h pre hp
    obtain rfl := List.prefix_nil.mp hp
    exact h

theorem always_cons (I : σ → Prop) (s : σ) (l : ι) (ls : List ι) :
    Always step I s (l :: ls) ↔ I s ∧ Always step I (step s l) ls := by
  constructor
  · intro h
    refine ⟨h [] (List.nil_prefix), ?_⟩
    intro pre hp
    exact h (l :: pre) (List.cons_prefix_cons.mpr ⟨rfl, hp⟩)
  · rintro ⟨hs, hls⟩ pre hp
    cases pre with
    | nil => exact hs
    | cons a pre =>
        obtain ⟨rfl, hpre⟩ := List.cons_prefix_cons.mp hp
        exact hls pre hpre

variable {step}

theorem always_start {I : σ → Prop} {s : σ} {ls : List ι} (h : Always step I s ls) : I s :=
  h [] List.nil_prefix

theorem Always.concat {I : σ → Prop} {s : σ} {ls : List ι} {l : ι} (h : Always step I s ls)
    (hl : I (run step s (ls ++ [l]))) : Always step I s (ls ++ [l]) := by
  intro pre hp
  rcases List.prefix_concat_iff.mp hp with rfl | hp
  · exact hl
  · exact h pre hp

/-- A label whose steps keep `I` and bring a measure down until `done` holds leads there. -/
theorem exists_replicate (step : σ → ι → σ) (l : ι) (I done : σ → Prop) (left : σ → ℕ)
    (hstep : ∀ s, I s → ¬ done s → I (step s l) ∧ left (step s l) < left s) (k : ℕ) :
    ∀ {s}, I s → left s ≤ k → ∃ n, I (run step s (List.replicate n l)) ∧
      done (run step s (List.replicate n l)) := by
  induction k with
  | zero =>
      intro s hs hk
      by_cases hdone : done s
      · exact ⟨0, hs, hdone⟩
      · have hless := (hstep s hs hdone).2
        omega
  | succ k ih =>
      intro s hs hk
      by_cases hdone : done s
      · exact ⟨0, hs, hdone⟩
      · obtain ⟨hs', hless⟩ := hstep s hs hdone
        obtain ⟨n, hn, hend⟩ := ih hs' (by omega)
        exact ⟨n + 1, hn, hend⟩

/-- A property that every step keeps holds at the end of every run. -/
theorem run_invariant {I : σ → Prop} (hstep : ∀ s l, I s → I (step s l))
    (ls : List ι) : ∀ s, I s → I (run step s ls) := by
  induction ls with
  | nil => intro s hs; exact hs
  | cons l ls ih => intro s hs; exact ih _ (hstep s l hs)

/-- Steps that meet `C` keep `I`, so a run of such steps only visits `I` states. -/
theorem always_of_along {I : σ → Prop} {C : σ → ι → Prop}
    (hstep : ∀ s l, I s → C s l → I (step s l)) (ls : List ι) :
    ∀ s, I s → Along step C s ls → Always step I s ls := by
  induction ls with
  | nil => intro s hs _; exact (always_nil step I s).mpr hs
  | cons l ls ih =>
      intro s hs hc
      obtain ⟨hl, hc⟩ := (along_cons step C s l ls).mp hc
      exact (always_cons step I s l ls).mpr ⟨hs, ih _ (hstep s l hs hl) hc⟩

/-- An invariant turns a condition on every step into a conclusion about every step. -/
theorem along_of_along {I : σ → Prop} {C P : σ → ι → Prop}
    (hstep : ∀ s l, I s → C s l → I (step s l))
    (hp : ∀ s l, I s → C s l → P s l) (ls : List ι) :
    ∀ s, I s → Along step C s ls → Along step P s ls := by
  induction ls with
  | nil => intro s _ _; exact along_nil step P s
  | cons l ls ih =>
      intro s hs hc
      obtain ⟨hl, hc⟩ := (along_cons step C s l ls).mp hc
      exact (along_cons step P s l ls).mpr ⟨hp s l hs hl, ih _ (hstep s l hs hl) hc⟩

/-- A condition every step into an `I` state must have met. -/
theorem along_of_always {I : σ → Prop} {C : σ → ι → Prop}
    (hstep : ∀ s l, I (step s l) → C s l) {s : σ} {ls : List ι} (h : Always step I s ls) :
    Along step C s ls := by
  intro pre l hp
  have hi := h (pre ++ [l]) hp
  rw [run_append] at hi
  exact hstep _ l hi

theorem Always.mono {I J : σ → Prop} (hij : ∀ s, I s → J s) {s : σ} {ls : List ι}
    (h : Always step I s ls) : Always step J s ls :=
  fun pre hp => hij _ (h pre hp)

/-- Where the side invariant `J` survives every step and, inside `J`, a step that meets `C`
keeps `I` and a step into a `W` state has met `C`, a run stays in `W` exactly when all its
steps meet `C`. Here `W` is what is asked of a state and `I` what an induction needs. -/
theorem always_iff_along_of {I J W : σ → Prop} {C : σ → ι → Prop}
    (hJ : ∀ s l, J s → J (step s l)) (hW : ∀ s, J s → I s → W s)
    (hkeep : ∀ s l, J s → I s → C s l → I (step s l))
    (hneed : ∀ s l, J s → I s → W (step s l) → C s l) (ls : List ι) :
    ∀ s, J s → I s → (Always step W s ls ↔ Along step C s ls) := by
  induction ls with
  | nil =>
      intro s hj hs
      exact ⟨fun _ => along_nil step C s, fun _ => (always_nil step W s).mpr (hW s hj hs)⟩
  | cons l ls ih =>
      intro s hj hs
      rw [always_cons, along_cons]
      constructor
      · rintro ⟨_, hls⟩
        have hc := hneed s l hj hs (always_start hls)
        exact ⟨hc, (ih _ (hJ s l hj) (hkeep s l hj hs hc)).mp hls⟩
      · rintro ⟨hl, hls⟩
        exact ⟨hW s hj hs, (ih _ (hJ s l hj) (hkeep s l hj hs hl)).mpr hls⟩

/-- The case of a property that is inductive by itself. -/
theorem always_iff_along {I J : σ → Prop} {C : σ → ι → Prop}
    (hJ : ∀ s l, J s → J (step s l))
    (hstep : ∀ s l, J s → I s → (I (step s l) ↔ C s l)) (ls : List ι) :
    ∀ s, J s → I s → (Always step I s ls ↔ Along step C s ls) :=
  always_iff_along_of hJ (fun _ _ hs => hs) (fun s l hj hs hc => (hstep s l hj hs).mpr hc)
    (fun s l hj hs hi => (hstep s l hj hs).mp hi) ls

/-- The case where a step has to keep the invariant and to be of some kind `P` as well. -/
theorem always_and_along_iff {I J : σ → Prop} {P C : σ → ι → Prop}
    (hJ : ∀ s l, J s → J (step s l))
    (hstep : ∀ s l, J s → I s → (I (step s l) ∧ P s l ↔ C s l)) (ls : List ι) :
    ∀ s, J s → I s → (Always step I s ls ∧ Along step P s ls ↔ Along step C s ls) := by
  induction ls with
  | nil =>
      intro s _ hs
      exact ⟨fun _ => along_nil step C s, fun _ => ⟨(always_nil step I s).mpr hs, along_nil step P s⟩⟩
  | cons l ls ih =>
      intro s hj hs
      rw [always_cons, along_cons, along_cons]
      constructor
      · intro h
        obtain ⟨⟨_, halways⟩, hp, halong⟩ := h
        have hi := always_start halways
        have hc := (hstep s l hj hs).mp ⟨hi, hp⟩
        exact ⟨hc, (ih _ (hJ s l hj) hi).mp ⟨halways, halong⟩⟩
      · intro h
        obtain ⟨hi, hp⟩ := (hstep s l hj hs).mpr h.1
        have hrest := (ih _ (hJ s l hj) hi).mpr h.2
        exact ⟨⟨hs, hrest.1⟩, hp, hrest.2⟩

/-- Under an invariant that every step keeps, two conditions that agree on one step
agree along every run. -/
theorem along_congr {J : σ → Prop} {P C : σ → ι → Prop}
    (hJ : ∀ s l, J s → J (step s l)) (hstep : ∀ s l, J s → (P s l ↔ C s l)) (ls : List ι) :
    ∀ s, J s → (Along step P s ls ↔ Along step C s ls) := by
  induction ls with
  | nil => intro s _; exact ⟨fun _ => along_nil step C s, fun _ => along_nil step P s⟩
  | cons l ls ih =>
      intro s hs
      rw [along_cons, along_cons, hstep s l hs, ih _ (hJ s l hs)]

theorem run_concat (s : σ) (ls : List ι) (l : ι) :
    run step s (ls ++ [l]) = step (run step s ls) l := run_append step s ls [l]

/-- A property of the state and of the labels so far, kept by every step of the run. -/
theorem run_history {I : List ι → σ → Prop} {s : σ} (hs : I [] s)
    (hstep : ∀ pre l, I pre (run step s pre) → I (pre ++ [l]) (step (run step s pre) l))
    (ls : List ι) : I ls (run step s ls) := by
  induction ls using List.reverseRecOn with
  | nil => exact hs
  | append_singleton ls l ih =>
      rw [run_concat]
      exact hstep ls l ih

/-- It is enough that the steps meeting `C` keep it, along a run of such steps. -/
theorem along_history {I : List ι → σ → Prop} {C : σ → ι → Prop} {s : σ} (hs : I [] s)
    (hstep : ∀ pre l, I pre (run step s pre) → C (run step s pre) l →
      I (pre ++ [l]) (step (run step s pre) l)) (ls : List ι) (hls : Along step C s ls) :
    I ls (run step s ls) := by
  induction ls using List.reverseRecOn with
  | nil => exact hs
  | append_singleton ls l ih =>
      have hbefore : Along step C s ls :=
        fun pre k hk => hls pre k (hk.trans (List.prefix_append ls [l]))
      rw [run_concat]
      exact hstep ls l (ih hbefore) (hls ls l (List.prefix_refl _))

/-- A preorder relates each state to all later ones when every single step keeps to it. -/
theorem later_iff_along {R : σ → σ → Prop} (hrefl : ∀ s, R s s)
    (htrans : ∀ a b c, R a b → R b c → R a c) (s : σ) (ls : List ι) :
    Later step R s ls ↔ Along step (fun s l => R s (step s l)) s ls := by
  constructor
  · intro h pre l hp
    have hr := h pre [l] hp
    rw [run_concat] at hr
    exact hr
  · intro h pre mid
    induction mid using List.reverseRecOn with
    | nil =>
        intro _
        rw [List.append_nil]
        exact hrefl _
    | append_singleton mid l ih =>
        intro hp
        rw [← List.append_assoc] at hp ⊢
        have hbefore : pre ++ mid <+: ls := (List.prefix_append _ [l]).trans hp
        rw [run_concat]
        exact htrans _ _ _ (ih hbefore) (h (pre ++ mid) l hp)

end Birgap.Lib.Run
