import Mathlib.Data.List.Basic

/-!
# A list in slices

The loop `for (i = 0; i < xs.length; i += size)` that hands `xs.slice(i, i + size)` to its body.
Its rule asks for an invariant of the elements already handed over: whatever the size, they are
a prefix of the list, and at the end they are the list.
-/
namespace Birgap.Lib.Slices

set_option autoImplicit false

variable {α σ : Type*}

/-- The elements from position `i` up to position `j`, as far as the list goes. -/
def slice (xs : List α) (i j : Nat) : List α := (xs.take j).drop i

/-- The loop from position `i` on. -/
def loop (size : Nat) (hsize : 0 < size) (body : List α → σ → σ) (xs : List α) (i : Nat) (s : σ) : σ :=
  if i < xs.length then loop size hsize body xs (i + size) (body (slice xs i (i + size)) s) else s
termination_by xs.length - i

theorem take_append_slice (xs : List α) (i n : Nat) :
    xs.take i ++ slice xs i (i + n) = xs.take (i + n) := by
  have htake : xs.take i = (xs.take (i + n)).take i := by
    rw [List.take_take, Nat.min_eq_left (Nat.le_add_right i n)]
  rw [htake]
  exact List.take_append_drop i (xs.take (i + n))

/-- A slice lies between what was handed over and what is still to come. -/
theorem slice_between (xs : List α) (i n : Nat) :
    xs = xs.take i ++ slice xs i (i + n) ++ xs.drop (i + n) := by
  rw [take_append_slice, List.take_append_drop]

variable {size : Nat} {hsize : 0 < size} {body : List α → σ → σ} {xs : List α}

/-- The loop rule, from any position. -/
theorem loop_from {I : List α → σ → Prop}
    (hstep : ∀ done chunk rest s, xs = done ++ chunk ++ rest → I done s →
      I (done ++ chunk) (body chunk s)) :
    ∀ i s, I (xs.take i) s → I xs (loop size hsize body xs i s) := by
  intro i s
  induction i, s using loop.induct size hsize body xs with
  | case1 i s hlt ih =>
      intro h
      rw [loop, if_pos hlt]
      apply ih
      rw [← take_append_slice]
      exact hstep _ _ _ s (slice_between xs i size) h
  | case2 i s hend =>
      intro h
      rw [loop, if_neg hend]
      rwa [List.take_of_length_le (Nat.le_of_not_lt hend)] at h

/-- The loop rule: what holds before anything is handed over, and is kept by each slice, holds
of the whole list in the end. -/
theorem loop_rule {I : List α → σ → Prop} {s : σ} (hstart : I [] s)
    (hstep : ∀ done chunk rest s, xs = done ++ chunk ++ rest → I done s →
      I (done ++ chunk) (body chunk s)) :
    I xs (loop size hsize body xs 0 s) :=
  loop_from hstep 0 s hstart

/-- The same rule for slices that were cut in advance. -/
theorem foldl_rule {I : List α → σ → Prop} {chunks : List (List α)} {s : σ} (hstart : I [] s)
    (hstep : ∀ done chunk rest s, chunks.flatten = done ++ chunk ++ rest → I done s →
      I (done ++ chunk) (body chunk s)) :
    I chunks.flatten (chunks.foldl (fun s chunk => body chunk s) s) := by
  have hfrom : ∀ (rest : List (List α)) (done : List α) (s : σ),
      chunks.flatten = done ++ rest.flatten → I done s →
        I chunks.flatten (rest.foldl (fun s chunk => body chunk s) s) := by
    intro rest
    induction rest with
    | nil =>
        intro done s hall h
        rw [hall, List.flatten_nil, List.append_nil]
        exact h
    | cons chunk rest ih =>
        intro done s hall h
        rw [List.flatten_cons, ← List.append_assoc] at hall
        exact ih (done ++ chunk) (body chunk s) hall (hstep done chunk rest.flatten s hall h)
  exact hfrom chunks [] s rfl hstart

end Birgap.Lib.Slices
