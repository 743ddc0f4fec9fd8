import Mathlib.Logic.Function.Basic

/-!
# Sets that expire

A store of sets by key. A set may carry a time at which it is gone, with all its members. A
member that is added to a set that is not there starts one without such a time, and a set that
loses its last member is no longer there.
-/
namespace Birgap.Lib.ExpiringSets

set_option autoImplicit false

variable {κ α : Type*} [DecidableEq κ] [DecidableEq α]

structure Expiring (α : Type*) where
  members : List α
  expiresAt : Option Nat := none
  deriving DecidableEq

abbrev Sets (κ α : Type*) := κ → Option (Expiring α)

/-- The set is not gone at the time. -/
def Expiring.lasts (now : Nat) (x : Expiring α) : Bool := x.expiresAt.all (decide <| now < ·)

def lookUp (now : Nat) (s : Sets κ α) (k : κ) : Option (Expiring α) := (s k).filter (·.lasts now)

def members (now : Nat) (s : Sets κ α) (k : κ) : List α := (lookUp now s k).elim [] (·.members)

def sadd (now : Nat) (k : κ) (a : α) (s : Sets κ α) : Sets κ α :=
  Function.update s k <| some <|
    match lookUp now s k with
    | none => { members := [a] }
    | some x => { x with members := if a ∈ x.members then x.members else x.members ++ [a] }

def srem (now : Nat) (k : κ) (a : α) (s : Sets κ α) : Sets κ α :=
  Function.update s k <|
    match lookUp now s k with
    | none => none
    | some x =>
        let rest := x.members.filter (· ≠ a)
        if rest.isEmpty then none else some { x with members := rest }

def expire (now : Nat) (k : κ) (ttl : Nat) (s : Sets κ α) : Sets κ α :=
  Function.update s k <| (lookUp now s k).map fun x => { x with expiresAt := some (now + ttl) }

/-! ## Who is a member -/

variable {now now' : Nat} {k l : κ} {a b : α} {s : Sets κ α}

omit [DecidableEq α] in
theorem members_update_ne (h : l ≠ k) (x : Option (Expiring α)) :
    members now (Function.update s k x) l = members now s l := by
  unfold members lookUp
  rw [Function.update_of_ne h]

omit [DecidableEq α] in
theorem members_update_none : members now (Function.update s k none) k = [] := by
  unfold members lookUp
  rw [Function.update_self]
  rfl

omit [DecidableEq α] in
theorem members_update_some {x : Expiring α} (h : x.lasts now = true) :
    members now (Function.update s k (some x)) k = x.members := by
  unfold members lookUp
  rw [Function.update_self, Option.filter_some_pos h]
  rfl

omit [DecidableEq κ] [DecidableEq α] in
theorem lookUp_lasts {x : Expiring α} (h : lookUp now s k = some x) : x.lasts now = true :=
  (Option.filter_eq_some_iff.mp h).2

omit [DecidableEq κ] [DecidableEq α] in
theorem members_lookUp {x : Expiring α} (h : lookUp now s k = some x) :
    members now s k = x.members := by
  unfold members
  rw [h]
  rfl

theorem mem_sadd : b ∈ members now (sadd now k a s) l ↔ (l = k ∧ b = a) ∨ b ∈ members now s l := by
  by_cases hl : l = k
  · subst hl
    unfold sadd
    cases hx : lookUp now s l with
    | none =>
        rw [members_update_some rfl]
        simp [members, hx]
    | some x =>
        have hlasts := lookUp_lasts hx
        dsimp only
        rw [members_update_some (by exact hlasts), members_lookUp hx]
        by_cases ha : a ∈ x.members
        · rw [if_pos ha]
          constructor
          · exact .inr
          · rintro (⟨_, rfl⟩ | hb)
            · exact ha
            · exact hb
        · rw [if_neg ha, List.mem_append, List.mem_singleton, or_comm]
          simp
  · unfold sadd
    rw [members_update_ne hl]
    simp [hl]

theorem srem_of_ne (h : l ≠ k) : srem now k a s l = s l := Function.update_of_ne h _ _

theorem members_srem_of_ne (h : l ≠ k) : members now (srem now k a s) l = members now s l :=
  members_update_ne h _

theorem members_srem : members now (srem now k a s) k = (members now s k).filter (· ≠ a) := by
  unfold srem
  cases hx : lookUp now s k with
  | none =>
      rw [members_update_none]
      simp [members, hx]
  | some x =>
      have hlasts := lookUp_lasts hx
      rw [members_lookUp hx]
      dsimp only
      by_cases hrest : (x.members.filter (· ≠ a)).isEmpty = true
      · rw [if_pos hrest, members_update_none]
        exact (List.isEmpty_iff.mp hrest).symm
      · rw [if_neg hrest, members_update_some (by exact hlasts)]

theorem mem_srem : b ∈ members now (srem now k a s) l ↔ b ∈ members now s l ∧ ¬(l = k ∧ b = a) := by
  by_cases hl : l = k
  · subst hl
    rw [members_srem, List.mem_filter]
    simp
  · rw [members_srem_of_ne hl]
    simp [hl]

omit [DecidableEq α] in
theorem members_expire {ttl : Nat} (hpos : 0 < ttl) :
    members now (expire now k ttl s) l = members now s l := by
  by_cases hl : l = k
  · subst hl
    unfold expire
    cases hx : lookUp now s l with
    | none =>
        rw [Option.map_none, members_update_none]
        simp [members, hx]
    | some x =>
        rw [Option.map_some, members_update_some (by simp [Expiring.lasts, hpos]),
          members_lookUp hx]
  · exact members_update_ne hl _

omit [DecidableEq κ] [DecidableEq α] in
/-- Time takes members away and adds none. -/
theorem members_later (hle : now ≤ now') (h : a ∈ members now' s k) : a ∈ members now s k := by
  unfold members lookUp at h ⊢
  cases hs : s k with
  | none => simp [hs] at h
  | some x =>
      rw [hs] at h
      by_cases hlasts : x.lasts now' = true
      · have hbefore : x.lasts now = true := by
          unfold Expiring.lasts at hlasts ⊢
          cases hx : x.expiresAt with
          | none => rfl
          | some at_ =>
              simp only [hx, Option.all_some, decide_eq_true_eq] at hlasts ⊢
              omega
        rw [Option.filter_some_pos hlasts] at h
        rwa [Option.filter_some_pos hbefore]
      · rw [Option.filter_some_neg (by simpa using hlasts)] at h
        cases h

omit [DecidableEq κ] [DecidableEq α] in
/-- Until its time is up, nothing of a set is lost. -/
theorem members_lasting (h : a ∈ members now s k) (hlasts : (s k).all (·.lasts now')) :
    a ∈ members now' s k := by
  unfold members lookUp at h ⊢
  cases hs : s k with
  | none => simp [hs] at h
  | some x =>
      rw [hs] at h hlasts
      have hx : x.lasts now' = true := by simpa using hlasts
      by_cases hnow : x.lasts now = true
      · rw [Option.filter_some_pos hnow] at h
        rwa [Option.filter_some_pos hx]
      · rw [Option.filter_some_neg (by simpa using hnow)] at h
        cases h

end Birgap.Lib.ExpiringSets
