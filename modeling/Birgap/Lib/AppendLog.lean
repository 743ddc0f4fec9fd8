import Birgap.Lib.Paging
import Birgap.Lib.Run
import Mathlib.Data.List.Infix
import Mathlib.Data.List.Range
import Mathlib.Data.List.Induction

/-!
# Append-only logs

There is a log for every key, and a step appends at most one entry to one of them. A reader
asks for the newest entries, for the newest below a number or for the newest above one, where
the entries carry their positions as numbers. What lies below a position that is taken never
changes.
-/
namespace Birgap.Lib.AppendLog

set_option autoImplicit false

open Birgap.Lib.Run

variable {κ α : Type*}

abbrev Logs (κ α : Type*) := κ → List α

/-- One entry is appended to one log, or nothing happens. -/
def Moves (L L' : Logs κ α) : Prop :=
  L' = L ∨ ∃ k a, L' k = L k ++ [a] ∧ ∀ j, j ≠ k → L' j = L j

def Extends (L L' : Logs κ α) : Prop := ∀ k, L k <+: L' k

theorem Extends.refl (L : Logs κ α) : Extends L L := fun _ => List.prefix_refl _

theorem Extends.trans {L L' L'' : Logs κ α} (h : Extends L L') (h' : Extends L' L'') :
    Extends L L'' := fun k => (h k).trans (h' k)

theorem Moves.extends {L L' : Logs κ α} (h : Moves L L') : Extends L L' := by
  rcases h with rfl | ⟨k, a, hk, hother⟩
  · exact Extends.refl L'
  · intro j
    by_cases hj : j = k
    · subst hj
      rw [hk]
      exact List.prefix_append _ _
    · rw [hother j hj]

/-- A system whose steps move its logs extends them along every run. -/
theorem later_extends {σ ι : Type*} {step : σ → ι → σ} {logs : σ → Logs κ α} {s : σ} {ls : List ι}
    (h : Along step (fun s l => Moves (logs s) (logs (step s l))) s ls) :
    Later step (fun s t => Extends (logs s) (logs t)) s ls := by
  have hlater := @later_iff_along σ ι step (fun s t => Extends (logs s) (logs t))
    (fun s => Extends.refl (logs s)) (fun _ _ _ => Extends.trans) s ls
  rw [hlater]
  intro pre l hp
  exact (h pre l hp).extends

/-! ## Entries that carry their positions -/

/-- The entry at position `i` has the number `i + 1`. -/
def Numbered (number : α → Nat) (log : List α) : Prop :=
  log.map number = List.range' 1 log.length

section Entries

variable {number : α → Nat} {log : List α}

theorem numbered_nil : Numbered number [] := rfl

theorem numbered_snoc {a : α} :
    Numbered number (log ++ [a]) ↔ Numbered number log ∧ number a = log.length + 1 := by
  unfold Numbered
  rw [List.map_append, List.length_append, List.length_singleton, List.range'_concat, Nat.one_mul,
    Nat.add_comm 1 log.length]
  constructor
  · intro h
    obtain ⟨hlog, ha⟩ := List.append_inj h (by simp)
    exact ⟨hlog, List.head_eq_of_cons_eq ha⟩
  · intro h
    rw [h.1, List.map_singleton, h.2]

/-- The entries numbered below `before` are the first ones. -/
theorem Numbered.filter_lt (h : Numbered number log) (before : Int) :
    log.filter (fun a => decide ((number a : Int) < before)) = log.take (before - 1).toNat := by
  induction log using List.reverseRecOn with
  | nil => simp
  | append_singleton log a ih =>
      obtain ⟨hlog, ha⟩ := numbered_snoc.mp h
      rw [List.filter_append, ih hlog]
      by_cases hlt : (number a : Int) < before
      · have hall : log.length + 1 ≤ (before - 1).toNat := by omega
        rw [List.take_of_length_le (by omega), List.take_of_length_le (by simpa using hall)]
        simp [hlt]
      · have hcut : (before - 1).toNat ≤ log.length := by omega
        rw [List.take_append_of_le_length hcut]
        simp [hlt]

/-- The entries numbered above `after` are the last ones. -/
theorem Numbered.filter_gt (h : Numbered number log) (after : Int) :
    log.filter (fun a => decide (after < (number a : Int))) = log.drop after.toNat := by
  induction log using List.reverseRecOn with
  | nil => simp
  | append_singleton log a ih =>
      obtain ⟨hlog, ha⟩ := numbered_snoc.mp h
      rw [List.filter_append, ih hlog]
      by_cases hlt : after < (number a : Int)
      · have hkept : after.toNat ≤ log.length := by omega
        rw [List.drop_append_of_le_length hkept]
        simp [hlt]
      · have hgone : log.length + 1 ≤ after.toNat := by omega
        rw [List.drop_of_length_le (by omega), List.drop_of_length_le (by simpa using hgone)]
        simp [hlt]

theorem Numbered.increasing (h : Numbered number log) :
    log.Pairwise fun a b => number a < number b := by
  have hrange : (log.map number).Pairwise (· < ·) := by
    rw [h]
    exact List.pairwise_lt_range'
  exact List.pairwise_map.mp hrange

end Entries

/-! ## Pages -/

/-- The last `n` entries. -/
def newest (n : Nat) (log : List α) : List α := log.drop (log.length - n)

/-- The last `n` entries above number `after`, or else below number `before`. -/
def page (n : Nat) (before after : Option Int) (log : List α) : List α :=
  newest n (match after, before with
    | some after, _ => log.drop after.toNat
    | none, some before => log.take (before - 1).toNat
    | none, none => log)

theorem reverse_take_reverse (n : Nat) (log : List α) : (log.reverse.take n).reverse = newest n log := by
  rw [List.take_reverse, List.reverse_reverse]
  rfl

/-- Sorted by falling numbers, rows in rising order are turned around. -/
theorem arrange_reverse {number : α → Nat}
    (o : Paging.OrderBy fun a : α => OrderDual.toDual (number a)) {rows : List α}
    (h : rows.Pairwise fun a b => number a < number b) : o.arrange rows = rows.reverse := by
  have hdown : rows.reverse.Pairwise fun a b => number b < number a := List.pairwise_reverse.mpr h
  have hsorted : (o.arrange rows).Pairwise fun a b => number b < number a :=
    o.ascending (h.imp fun hab => Nat.ne_of_lt hab)
  have hperm : (o.arrange rows).Perm rows.reverse := (o.perm rows).trans (List.reverse_perm rows).symm
  refine hperm.eq_of_pairwise ?_ hsorted hdown
  intro a b _ _ hab hba
  exact absurd hab (Nat.lt_asymm hba)

theorem map_page {β : Type*} (f : α → β) (n : Nat) (before after : Option Int) (log : List α) :
    (page n before after log).map f = page n before after (log.map f) := by
  unfold page newest
  cases after with
  | some after => simp [List.map_drop]
  | none => cases before <;> simp [List.map_drop, List.map_take]

/-- A page below a number that is in use, or the next one, is the same in every extension. -/
theorem page_stable {log log' : List α} (hp : log <+: log') (n : Nat) {before : Int}
    (hb : before ≤ log.length + 1) :
    page n (some before) none log' = page n (some before) none log := by
  obtain ⟨rest, rfl⟩ := hp
  unfold page
  dsimp only
  rw [List.take_append_of_le_length (by omega)]

end Birgap.Lib.AppendLog
