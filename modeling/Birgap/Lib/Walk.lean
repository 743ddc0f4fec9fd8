import Birgap.Lib.Paging
import Birgap.Lib.Rows
import Birgap.Lib.Run

/-!
# Walking a growing table

A reader fetches page after page, each behind the last row it has received, while rows with new
keys are inserted anywhere. Keys are unique and no row is changed or removed. The reader asks for
one row more than it takes and stops when there is none.
-/
namespace Birgap.Lib.Walk

set_option autoImplicit false

open Birgap.Lib Birgap.Lib.Run Birgap.Lib.Paging

variable {α β : Type*} [LinearOrder β] {key : α → β}

structure State (α : Type*) where
  rows : List α
  done : Bool := false
  received : List α := []

inductive Act (key : α → β) where
  | insert (r : α)
  | fetch (order : OrderBy key)

/-- The row lies behind everything received. -/
def ahead (key : α → β) (received : List α) (r : α) : Bool :=
  received.getLast?.all fun last => decide (key last < key r)

/-- The rows a page is taken from. -/
def found (p : α → Bool) (order : OrderBy key) (s : State α) : List α :=
  (order.arrange s.rows).filter fun r => ahead key s.received r && p r

/-- An insert whose key is taken is refused. -/
def step (p : α → Bool) (take : Nat) (s : State α) : Act key → State α
  | .insert r =>
      if s.rows.any (fun a => decide (key a = key r)) then s else { s with rows := s.rows ++ [r] }
  | .fetch order =>
      if s.done then s
      else
        { s with
          done := !decide (take < (found p order s).length)
          received := s.received ++ (found p order s).take take }

theorem step_insert (p : α → Bool) (take : Nat) (s : State α) (r : α) :
    step p take s (.insert r : Act key) =
      if s.rows.any (fun a => decide (key a = key r)) then s
      else { s with rows := s.rows ++ [r] } := rfl

theorem step_fetch (p : α → Bool) (take : Nat) (s : State α) (order : OrderBy key) :
    step p take s (.fetch order) =
      if s.done then s
      else
        { s with
          done := !decide (take < (found p order s).length)
          received := s.received ++ (found p order s).take take } := rfl

/-- What a walk keeps: `first` are the rows there were at the first page. -/
structure Inv (key : α → β) (p : α → Bool) (first : List α) (s : State α) : Prop where
  unique : Rows.Unique key s.rows
  kept : first ⊆ s.rows
  ascending : s.received.Pairwise fun a b => key a < key b
  matching : ∀ r ∈ s.received, r ∈ s.rows ∧ p r = true
  covered : ∀ r ∈ first, p r = true →
    r ∈ s.received ∨ (s.done = false ∧ ahead key s.received r = true)

section Pages

variable {p : α → Bool} {take : Nat} {s : State α} {order : OrderBy key}

theorem ahead_append_last (received page : List α) {last r : α} (hl : page.getLast? = some last) :
    ahead key (received ++ page) r = decide (key last < key r) := by
  unfold ahead
  rw [List.getLast?_append, hl]
  rfl

theorem mem_found {r : α} :
    r ∈ found p order s ↔ r ∈ s.rows ∧ ahead key s.received r = true ∧ p r = true := by
  unfold found
  rw [List.mem_filter, order.mem_arrange, Bool.and_eq_true]

theorem found_ascending (hu : Rows.Unique key s.rows) :
    (found p order s).Pairwise fun a b => key a < key b :=
  (order.ascending (List.pairwise_map.mp hu)).sublist List.filter_sublist

/-- What lies ahead of the last row received lies behind every row received. -/
theorem lt_of_ahead (hs : s.received.Pairwise fun a b => key a < key b) {a r : α}
    (ha : a ∈ s.received) (hr : ahead key s.received r = true) : key a < key r := by
  unfold ahead at hr
  cases hl : s.received.getLast? with
  | none =>
      rw [List.getLast?_eq_none_iff.mp hl] at ha
      cases ha
  | some last =>
      rw [hl, Option.all_some, decide_eq_true_eq] at hr
      obtain ⟨init, hinit⟩ := List.getLast?_eq_some_iff.mp hl
      rw [hinit] at hs ha
      rcases List.mem_append.mp ha with ha | ha
      · exact ((List.pairwise_append.mp hs).2.2 a ha last List.mem_cons_self).trans hr
      · rw [List.mem_singleton.mp ha]
        exact hr

theorem exists_last {rows : List α} (htake : 0 < take) (hmore : take < rows.length) :
    ∃ last, (rows.take take).getLast? = some last := by
  cases hl : (rows.take take).getLast? with
  | some last => exact ⟨last, rfl⟩
  | none =>
      have hlength := congrArg List.length (List.getLast?_eq_none_iff.mp hl)
      rw [List.length_take_of_le hmore.le, List.length_nil] at hlength
      omega

variable {first : List α}

theorem Inv.insert (h : Inv key p first s) (r : α) :
    Inv key p first (step p take s (.insert r : Act key)) := by
  rw [step_insert]
  split
  · exact h
  · rename_i hfree
    refine { h with unique := ?_, kept := ?_, matching := ?_ }
    · apply Rows.unique_append h.unique
      intro a ha hkey
      exact hfree (List.any_eq_true.mpr ⟨a, ha, decide_eq_true hkey⟩)
    · exact fun a ha => List.mem_append_left _ (h.kept ha)
    · intro a ha
      obtain ⟨hrow, hmatch⟩ := h.matching a ha
      exact ⟨List.mem_append_left _ hrow, hmatch⟩

theorem Inv.fetch (h : Inv key p first s) (order : OrderBy key) (htake : 0 < take) :
    Inv key p first (step p take s (.fetch order)) := by
  rw [step_fetch]
  by_cases hend : s.done = true
  · rw [if_pos hend]
    exact h
  rw [if_neg hend]
  have hs : (found p order s).Pairwise fun a b => key a < key b := found_ascending h.unique
  refine { h with ascending := ?_, matching := ?_, covered := ?_ }
  · rw [List.pairwise_append]
    refine ⟨h.ascending, hs.sublist (List.take_sublist _ _), ?_⟩
    intro a ha b hb
    exact lt_of_ahead h.ascending ha (mem_found.mp (List.mem_of_mem_take hb)).2.1
  · intro r hr
    rcases List.mem_append.mp hr with hr | hr
    · exact h.matching r hr
    · obtain ⟨hrow, _, hmatch⟩ := mem_found.mp (List.mem_of_mem_take hr)
      exact ⟨hrow, hmatch⟩
  · intro r hr hmatch
    rcases h.covered r hr hmatch with hgot | ⟨_, hahead⟩
    · exact .inl (List.mem_append_left _ hgot)
    · have hfound : r ∈ found p order s := mem_found.mpr ⟨h.kept hr, hahead, hmatch⟩
      by_cases hpage : r ∈ (found p order s).take take
      · exact .inl (List.mem_append_right _ hpage)
      · -- a row that is not on the page lies behind the page, and the page is not the last
        have hmore : take < (found p order s).length := by
          by_contra hle
          rw [List.take_of_length_le (Nat.le_of_not_lt hle)] at hpage
          exact hpage hfound
        obtain ⟨last, hl⟩ := exists_last htake hmore
        refine .inr ⟨by simp [hmore], ?_⟩
        rw [ahead_append_last _ _ hl]
        exact decide_eq_true (last_lt_of_notMem_take hs hl hfound hpage)

end Pages

/-! ## The end of a walk -/

section End

variable {p : α → Bool} {take : Nat} {s : State α}

/-- The matching rows that are still to come. -/
def waiting (key : α → β) (p : α → Bool) (s : State α) : List α :=
  s.rows.filter fun r => ahead key s.received r && p r

/-- Each page that is not the last one leaves fewer rows to come. -/
theorem fewer_waiting (htake : 0 < take) (order : OrderBy key)
    (hgoing : s.done = false) (hmore : (step p take s (.fetch order)).done = false) :
    (waiting key p (step p take s (.fetch order))).length < (waiting key p s).length := by
  rw [step_fetch, hgoing] at hmore ⊢
  simp only [Bool.false_eq_true, if_false, Bool.not_eq_false', decide_eq_true_eq] at hmore ⊢
  obtain ⟨last, hl⟩ := exists_last htake hmore
  obtain ⟨hrow, hahead, hmatch⟩ := mem_found.mp (List.mem_of_mem_take (List.mem_of_getLast? hl))
  -- behind the last row of the page is behind the page before
  have hlater : ∀ r, decide (key last < key r) = true → ahead key s.received r = true := by
    intro r hr
    unfold ahead at hahead ⊢
    cases hold : s.received.getLast? with
    | none => rfl
    | some old =>
        rw [hold, Option.all_some, decide_eq_true_eq] at hahead
        rw [Option.all_some, decide_eq_true_eq]
        exact hahead.trans (of_decide_eq_true hr)
  have hfewer : waiting key p
      { s with
        done := !decide (take < (found p order s).length)
        received := s.received ++ (found p order s).take take } =
      (waiting key p s).filter fun r => decide (key last < key r) := by
    unfold waiting
    rw [List.filter_filter]
    apply List.filter_congr
    intro r _
    rw [ahead_append_last _ _ hl]
    cases hr : decide (key last < key r) with
    | false => rfl
    | true => rw [hlater r hr, Bool.true_and, Bool.true_and]
  rw [hfewer]
  apply List.length_filter_lt_length_iff_exists.mpr
  refine ⟨last, ?_, by simp⟩
  rw [waiting, List.mem_filter, Bool.and_eq_true]
  exact ⟨hrow, hahead, hmatch⟩

theorem step_done (hdone : s.done = true) (a : Act key) : (step p take s a).done = true := by
  cases a with
  | insert r =>
      rw [step_insert]
      split
      · exact hdone
      · exact hdone
  | fetch order => rw [step_fetch, if_pos hdone, hdone]

/-- When nothing is inserted any more a walk ends. -/
theorem walk_ends (htake : 0 < take) (n : Nat) :
    ∀ (s : State α) (order : Nat → OrderBy key), (waiting key p s).length < n →
      (run (step p take) s ((List.range n).map fun i => .fetch (order i))).done = true := by
  induction n with
  | zero =>
      intro s order hn
      omega
  | succ n ih =>
      intro s order hn
      rw [List.range_succ_eq_map, List.map_cons, List.map_map, run_cons]
      by_cases hstays : (step p take s (.fetch (order 0))).done = true
      · exact run_invariant (I := fun s : State α => s.done = true)
          (fun s a h => step_done h a) _ _ hstays
      · rw [Bool.not_eq_true] at hstays
        have hgoing : s.done = false := by
          by_contra hend
          rw [Bool.not_eq_false] at hend
          rw [step_done hend] at hstays
          cases hstays
        apply ih _ fun i => order (i + 1)
        have hless := fewer_waiting htake (order 0) hgoing hstays
        omega

end End

/-! ## Whole walks -/

theorem inv_start {rows : List α} {p : α → Bool} (hu : Rows.Unique key rows) :
    Inv key p rows { rows } where
  unique := hu
  kept := fun _ hr => hr
  ascending := List.Pairwise.nil
  matching := by
    intro r hr
    cases hr
  covered := fun r _ _ => .inr ⟨rfl, rfl⟩

theorem step_inv {p : α → Bool} {take : Nat} (htake : 0 < take) {first : List α} {s : State α}
    (h : Inv key p first s) (a : Act key) : Inv key p first (step p take s a) := by
  cases a with
  | insert r => exact h.insert r
  | fetch order => exact h.fetch order htake

end Birgap.Lib.Walk
