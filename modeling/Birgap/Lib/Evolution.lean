import Birgap.Lib.Rows

/-!
# Tables whose rows move on

`Evolves k R N` says of a table with the key `k` that its rows have moved on as `R` allows,
and that every other row is a new one, of the kind `N`. Statements are put together by
`refl`, `trans`, and one rule for each kind of write.
-/
namespace Birgap.Lib.Evolution

set_option autoImplicit false

variable {α κ : Type*} {k : α → κ} {R : α → α → Prop} {N : α → Prop}

structure Evolves (k : α → κ) (R : α → α → Prop) (N : α → Prop) (rows rows' : List α) : Prop where
  kept : ∀ r ∈ rows, ∃ r' ∈ rows', R r r'
  origin : ∀ r' ∈ rows', (∃ r ∈ rows, R r r') ∨ N r'
  keys : Rows.Unique k rows → Rows.Unique k rows'

theorem Evolves.refl (hR : ∀ r, R r r) (rows : List α) : Evolves k R N rows rows :=
  ⟨fun r hr => ⟨r, hr, hR r⟩, fun r hr => Or.inl ⟨r, hr, hR r⟩, fun h => h⟩

theorem Evolves.trans {a b c : List α} (hR : ∀ x y z, R x y → R y z → R x z)
    (hN : ∀ x y, N x → R x y → N y) (h : Evolves k R N a b) (h' : Evolves k R N b c) :
    Evolves k R N a c := by
  constructor
  · intro r hr
    obtain ⟨r', hr', hmove⟩ := h.kept r hr
    obtain ⟨r'', hr'', hmove'⟩ := h'.kept r' hr'
    exact ⟨r'', hr'', hR r r' r'' hmove hmove'⟩
  · intro r'' hr''
    rcases h'.origin r'' hr'' with ⟨r', hr', hmove'⟩ | hnew
    · rcases h.origin r' hr' with ⟨r, hr, hmove⟩ | hnew
      · exact Or.inl ⟨r, hr, hR r r' r'' hmove hmove'⟩
      · exact Or.inr (hN r' r'' hnew hmove')
    · exact Or.inr hnew
  · exact fun hu => h'.keys (h.keys hu)

/-- An UPDATE that leaves the key alone. -/
theorem Evolves.updateMany {p : α → Bool} {f : α → α} {rows : List α} (hk : ∀ r, k (f r) = k r)
    (hR : ∀ r, R r r) (h : ∀ r ∈ rows, p r = true → R r (f r)) :
    Evolves k R N rows (Rows.updateMany p f rows) := by
  have hrow : ∀ r ∈ rows, R r (if p r then f r else r) := by
    intro r hr
    split
    · rename_i hp
      exact h r hr hp
    · exact hR r
  constructor
  · intro r hr
    exact ⟨_, Rows.mem_updateMany.mpr ⟨r, hr, rfl⟩, hrow r hr⟩
  · intro r' hr'
    obtain ⟨r, hr, rfl⟩ := Rows.mem_updateMany.mp hr'
    exact Or.inl ⟨r, hr, hrow r hr⟩
  · exact Rows.unique_updateMany (f := f) hk

/-- An INSERT under a key that is not in use. -/
theorem Evolves.append {rows : List α} {new : α} (hR : ∀ r, R r r) (hN : N new)
    (hk : ∀ r ∈ rows, k r ≠ k new) : Evolves k R N rows (rows ++ [new]) := by
  constructor
  · intro r hr
    exact ⟨r, List.mem_append_left _ hr, hR r⟩
  · intro r' hr'
    rcases List.mem_append.mp hr' with hr' | hr'
    · exact Or.inl ⟨r', hr', hR r'⟩
    · rw [List.mem_singleton.mp hr']
      exact Or.inr hN
  · intro hu
    exact Rows.unique_append hu hk

end Birgap.Lib.Evolution
