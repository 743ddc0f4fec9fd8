import Birgap.Lib.Rows

/-!
# Tables that agree on their live rows

Some rows of a table are dead: no query that matters can see them. A table agrees with
another if it is part of it and both have the same live rows. Queries for live rows answer
the same on both, and the same writes keep them in agreement.
-/
namespace Birgap.Lib.Rows

set_option autoImplicit false

open Birgap.Lib

variable {α κ : Type} {dead dead' : α → Bool} {rows rows' : List α}

/-- `rows'` is `rows` without some of its dead rows. -/
structure Agree (dead : α → Bool) (rows rows' : List α) : Prop where
  sub : rows'.Sublist rows
  live : rows.filter (fun r => !dead r) = rows'.filter fun r => !dead r

theorem Agree.refl (dead : α → Bool) (rows : List α) : Agree dead rows rows :=
  ⟨List.Sublist.refl _, rfl⟩

/-- A query that only sees live rows can as well run on the live rows. -/
theorem filter_live {q : α → Bool} (hq : ∀ r ∈ rows, q r = true → dead r = false) :
    rows.filter q = (rows.filter fun r => !dead r).filter q := by
  rw [List.filter_filter]
  apply List.filter_congr
  intro r hr
  cases h : q r with
  | false => rfl
  | true => simp [hq r hr h]

namespace Agree

variable (h : Agree dead rows rows')
include h

theorem subset {r : α} (hr : r ∈ rows') : r ∈ rows := h.sub.subset hr

theorem mem_of_live {r : α} (hr : r ∈ rows) (hl : dead r = false) : r ∈ rows' := by
  have hmem : r ∈ rows.filter fun r => !dead r := List.mem_filter.mpr ⟨hr, by simp [hl]⟩
  rw [h.live] at hmem
  exact (List.mem_filter.mp hmem).1

/-- Rows that die later do not matter either. -/
theorem mono (hd : ∀ r, dead r = true → dead' r = true) : Agree dead' rows rows' := by
  have hlive : ∀ r, (!dead' r) = true → dead r = false := by
    intro r hr
    cases hdead : dead r with
    | false => rfl
    | true =>
        rw [hd r hdead] at hr
        cases hr
  refine ⟨h.sub, ?_⟩
  rw [filter_live fun r _ => hlive r, h.live, ← filter_live fun r _ => hlive r]

theorem filter_eq {q : α → Bool} (hq : ∀ r ∈ rows, q r = true → dead r = false) :
    rows.filter q = rows'.filter q := by
  rw [filter_live hq, h.live, ← filter_live fun r hr => hq r (h.subset hr)]

theorem unique {k : α → κ} (hu : Rows.Unique k rows) : Rows.Unique k rows' :=
  List.Nodup.sublist (h.sub.map k) hu

/-- A look-up in a unique index finds the same row, or a dead row in the one table and
nothing in the other. -/
theorem find?_cases [DecidableEq κ] {k : α → κ} (hu : Rows.Unique k rows) (v : κ) :
    rows'.find? (fun r => k r == v) = rows.find? (fun r => k r == v) ∨
      ∃ r, rows.find? (fun r => k r == v) = some r ∧ dead r = true ∧
        rows'.find? (fun r => k r == v) = none := by
  cases hf : rows.find? (fun r => k r == v) with
  | none =>
      left
      apply List.find?_eq_none.mpr
      intro r hr
      exact List.find?_eq_none.mp hf r (h.subset hr)
  | some r =>
      have hr := List.mem_of_find?_eq_some hf
      have hk : k r = v := by simpa using List.find?_some hf
      by_cases hmem : r ∈ rows'
      · left
        rw [← hk]
        exact (h.unique hu).find?_eq hmem
      · right
        refine ⟨r, rfl, ?_, ?_⟩
        · by_contra hl
          exact hmem (h.mem_of_live hr (by simpa using hl))
        · apply List.find?_eq_none.mpr
          intro x hx hxk
          rw [hu.eq (h.subset hx) hr ((by simpa using hxk : k x = v).trans hk.symm)] at hx
          exact hmem hx

theorem append (new : List α) : Agree dead (rows ++ new) (rows' ++ new) := by
  refine ⟨h.sub.append_right new, ?_⟩
  rw [List.filter_append, List.filter_append, h.live]

/-- Taking rows away that are dead. -/
theorem thin {keep : α → Bool} (hk : ∀ r ∈ rows', keep r = false → dead r = true) :
    Agree dead rows (rows'.filter keep) := by
  refine ⟨List.filter_sublist.trans h.sub, ?_⟩
  rw [h.live, List.filter_filter]
  apply List.filter_congr
  intro r hr
  cases hkeep : keep r with
  | true => simp
  | false => simp [hk r hr hkeep]

end Agree

/-- An update of live rows can as well run on the live rows. -/
theorem updateMany_live {p : α → Bool} {f : α → α} {rows : List α}
    (hp : ∀ r ∈ rows, p r = true → dead r = false) :
    (Rows.updateMany p f rows).filter (fun r => !dead r) =
      (Rows.updateMany p f (rows.filter fun r => !dead r)).filter fun r => !dead r := by
  induction rows with
  | nil => rfl
  | cons r rows ih =>
      have ih := ih fun x hx => hp x (List.mem_cons_of_mem _ hx)
      unfold Rows.updateMany at ih ⊢
      cases hd : dead r with
      | false => simp only [List.map_cons, List.filter_cons, hd, Bool.not_false, ↓reduceIte, ih]
      | true =>
          -- a dead row is not updated, so it stays dead
          have hno : p r = false := by
            by_contra hyes
            rw [hp r List.mem_cons_self (by simpa using hyes)] at hd
            cases hd
          simp only [List.map_cons, List.filter_cons, hno, hd, Bool.not_true, Bool.false_eq_true,
            ↓reduceIte, ih]

theorem Agree.updateMany (h : Agree dead rows rows') {p : α → Bool} {f : α → α}
    (hp : ∀ r ∈ rows, p r = true → dead r = false) :
    Agree dead (Rows.updateMany p f rows) (Rows.updateMany p f rows') := by
  refine ⟨h.sub.map _, ?_⟩
  rw [updateMany_live hp, h.live, ← updateMany_live fun r hr => hp r (h.subset hr)]

/-- A sum to which the dead rows contribute nothing. -/
theorem sum_live {q : α → Bool} {g : α → Nat} {rows : List α}
    (hq : ∀ r ∈ rows, q r = true → dead r = true → g r = 0) :
    ((rows.filter q).map g).sum = (((rows.filter fun r => !dead r).filter q).map g).sum := by
  induction rows with
  | nil => rfl
  | cons r rows ih =>
      have ih := ih fun x hx => hq x (List.mem_cons_of_mem _ hx)
      cases hd : dead r with
      | false =>
          cases hr : q r with
          | true => simp [hd, hr, ih]
          | false => simp [hd, hr, ih]
      | true =>
          cases hr : q r with
          | true =>
              have hzero := hq r List.mem_cons_self hr hd
              simp [hd, hr, hzero, ih]
          | false => simp [hd, hr, ih]

theorem Agree.sum_eq (h : Agree dead rows rows') {q : α → Bool} {g : α → Nat}
    (hq : ∀ r ∈ rows, q r = true → dead r = true → g r = 0) :
    ((rows.filter q).map g).sum = ((rows'.filter q).map g).sum := by
  rw [sum_live hq, h.live, ← sum_live fun r hr => hq r (h.subset hr)]

end Birgap.Lib.Rows
