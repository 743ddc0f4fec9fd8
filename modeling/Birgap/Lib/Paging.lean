import Mathlib.Data.List.Perm.Subperm
import Mathlib.Data.List.Sort

/-!
# Reading a table page by page

A query with an ORDER BY and a bound returns the first rows of an arrangement in which the
keys ascend; among rows of equal key the arrangement is up to the engine, and may differ
from one query to the next. A reader that continues strictly after the key of the last row
it got misses rows exactly when a page ends inside a run of equal keys.
-/
namespace Birgap.Lib.Paging

set_option autoImplicit false

variable {α β : Type*} [LinearOrder β]

/-- ORDER BY `key` ASC: the rows, arranged so that their keys ascend. -/
structure OrderBy (key : α → β) where
  arrange : List α → List α
  perm : ∀ rows, (arrange rows).Perm rows
  sorted : ∀ rows, (arrange rows).Pairwise fun a b => key a ≤ key b

/-- The arrangement that leaves rows of equal key as they are stored. -/
def OrderBy.stable (key : α → β) : OrderBy key where
  arrange := List.insertionSort fun a b => key a ≤ key b
  perm := List.perm_insertionSort _
  sorted := by
    have htotal : Std.Total fun a b => key a ≤ key b := ⟨fun a b => le_total (key a) (key b)⟩
    have htrans : IsTrans α fun a b => key a ≤ key b := ⟨fun _ _ _ hab hbc => le_trans hab hbc⟩
    exact List.pairwise_insertionSort _

/-- The rows strictly after the cursor. -/
def rowsAfter (key : α → β) (c : β) (rows : List α) : List α :=
  rows.filter fun r => decide (c < key r)

/-- A reader that fetches pages of `take` rows, each after the key of the last row of the
page before, until a page is the last one; `order i` arranges the rows of query `i`. -/
def drain {key : α → β} (order : Nat → OrderBy key) (take : Nat) (rows : List α) :
    Nat → Nat → β → Option (List α)
  | 0, _, _ => none
  | fuel + 1, i, c =>
      let found := (order i).arrange (rowsAfter key c rows)
      if take < found.length then
        match (found.take take).getLast? with
        | none => none
        | some last => (drain order take rows fuel (i + 1) (key last)).map (found.take take ++ ·)
      else some found

/-- The number of rows with a key after `c` and below `v`. -/
def below (key : α → β) (c v : β) (rows : List α) : Nat :=
  rows.countP fun r => decide (c < key r) && decide (key r < v)

/-- The number of rows with a key after `c` and up to `v`. -/
def upTo (key : α → β) (c v : β) (rows : List α) : Nat :=
  rows.countP fun r => decide (c < key r) && decide (key r ≤ v)

/-- No multiple of the page size falls inside the run of rows with one key. -/
def NoSplit (key : α → β) (take : Nat) (c : β) (rows : List α) : Prop :=
  ∀ j v, ¬ (below key c v rows < j * take ∧ j * take < upTo key c v rows)

variable {key : α → β}

theorem OrderBy.mem_arrange (o : OrderBy key) {rows : List α} {r : α} :
    r ∈ o.arrange rows ↔ r ∈ rows := (o.perm rows).mem_iff

theorem OrderBy.length_arrange (o : OrderBy key) (rows : List α) :
    (o.arrange rows).length = rows.length := (o.perm rows).length_eq

theorem mem_rowsAfter {c : β} {rows : List α} {r : α} :
    r ∈ rowsAfter key c rows ↔ r ∈ rows ∧ c < key r := by
  rw [rowsAfter, List.mem_filter, decide_eq_true_eq]

/-- The rows after a later key are among those after an earlier one. -/
theorem rowsAfter_rowsAfter {c v : β} (h : c < v) (rows : List α) :
    rowsAfter key v (rowsAfter key c rows) = rowsAfter key v rows := by
  simp only [rowsAfter, List.filter_filter]
  apply List.filter_congr
  intro r _
  by_cases hr : v < key r
  · simp [hr, h.trans hr]
  · simp [hr]

/-! ## One page of a sorted list -/

section Page

variable {found : List α} {n : Nat} {last : α}

theorem key_le_last (hs : found.Pairwise fun a b => key a ≤ key b)
    (hl : (found.take n).getLast? = some last) {r : α} (hr : r ∈ found.take n) :
    key r ≤ key last := by
  obtain ⟨init, he⟩ := List.getLast?_eq_some_iff.mp hl
  have hp := hs.sublist (List.take_sublist n found)
  rw [he] at hp hr
  rcases List.mem_append.mp hr with hr | hr
  · exact (List.pairwise_append.mp hp).2.2 r hr last List.mem_cons_self
  · rw [List.mem_singleton.mp hr]

/-- What sorts before the last row of the page is on the page. -/
theorem mem_take_of_lt_last (hs : found.Pairwise fun a b => key a ≤ key b)
    (hl : (found.take n).getLast? = some last) {r : α} (hr : r ∈ found) (hlt : key r < key last) :
    r ∈ found.take n := by
  rw [← List.take_append_drop n found] at hr hs
  rcases List.mem_append.mp hr with hr | hr
  · exact hr
  · have hle := (List.pairwise_append.mp hs).2.2 last (List.mem_of_getLast? hl) r hr
    exact absurd hlt (not_lt.mpr hle)

/-- What is not on the page sorts after its last row. -/
theorem last_lt_of_notMem_take (hs : found.Pairwise fun a b => key a < key b)
    (hl : (found.take n).getLast? = some last) {r : α} (hr : r ∈ found) (hn : r ∉ found.take n) :
    key last < key r := by
  rw [← List.take_append_drop n found] at hr hs
  rcases List.mem_append.mp hr with hr | hr
  · exact absurd hr hn
  · exact (List.pairwise_append.mp hs).2.2 last (List.mem_of_getLast? hl) r hr

end Page

/-! ## One row more than is shown -/

/-- Asking for one row more tells whether there are more than are shown. -/
theorem overfetch_more (n : Nat) (rows : List α) :
    decide (n < (rows.take (n + 1)).length) = decide (n < rows.length) := by
  rw [List.length_take, decide_eq_decide]
  omega

/-- What is shown are the first rows, whether or not the extra one came. -/
theorem overfetch_take (n : Nat) (rows : List α) :
    (if decide (n < (rows.take (n + 1)).length) then (rows.take (n + 1)).take n
      else rows.take (n + 1)) = rows.take n := by
  rw [overfetch_more]
  by_cases h : n < rows.length
  · rw [if_pos (decide_eq_true h), List.take_take, Nat.min_eq_left (Nat.le_succ n)]
  · rw [if_neg (by simpa using h), List.take_of_length_le (by omega), List.take_of_length_le (by omega)]

/-! ## Continuing behind a row -/

/-- The rows behind the first one with `isCursor`; none if there is no such row. -/
def afterRow (isCursor : α → Bool) (rows : List α) : List α :=
  (rows.dropWhile fun r => !isCursor r).drop 1

theorem afterRow_sublist (isCursor : α → Bool) (rows : List α) :
    (afterRow isCursor rows).Sublist rows :=
  (List.drop_sublist 1 _).trans (List.dropWhile_sublist _)

/-- In an arrangement with ascending keys the rows behind the cursor are those with a larger
key. -/
theorem afterRow_eq {isCursor : α → Bool} {cur : α} (hcur : isCursor cur = true) :
    ∀ {rows : List α}, rows.Pairwise (fun a b => key a < key b) → cur ∈ rows →
      (∀ r ∈ rows, isCursor r = true → r = cur) →
      afterRow isCursor rows = rowsAfter key (key cur) rows := by
  intro rows
  induction rows with
  | nil => intro _ hmem; cases hmem
  | cons x rows ih =>
      intro hs hmem honly
      obtain ⟨hx, hs⟩ := List.pairwise_cons.mp hs
      by_cases hc : isCursor x = true
      · obtain rfl := honly x List.mem_cons_self hc
        have hself : rowsAfter key (key x) (x :: rows) = rowsAfter key (key x) rows :=
          List.filter_cons_of_neg (by simp)
        have hall : rowsAfter key (key x) rows = rows :=
          List.filter_eq_self.mpr fun r hr => decide_eq_true (hx r hr)
        rw [hself, hall]
        simp [afterRow, hc]
      · have hin : cur ∈ rows := by
          rcases List.mem_cons.mp hmem with rfl | hin
          · exact absurd hcur hc
          · exact hin
        have hbefore : rowsAfter key (key cur) (x :: rows) = rowsAfter key (key cur) rows :=
          List.filter_cons_of_neg (by simp [(hx cur hin).le])
        rw [hbefore, ← ih hs hin fun r hr => honly r (List.mem_cons_of_mem _ hr)]
        simp [afterRow, hc]

theorem mem_afterRow {isCursor : α → Bool} {cur : α} (hcur : isCursor cur = true)
    {rows : List α} (hs : rows.Pairwise fun a b => key a < key b) (hmem : cur ∈ rows)
    (honly : ∀ r ∈ rows, isCursor r = true → r = cur) {r : α} :
    r ∈ afterRow isCursor rows ↔ r ∈ rows ∧ key cur < key r := by
  rw [afterRow_eq hcur hs hmem honly, mem_rowsAfter]

/-- Rows with different keys ascend strictly. -/
theorem OrderBy.ascending (o : OrderBy key) {rows : List α}
    (hk : rows.Pairwise fun a b => key a ≠ key b) :
    (o.arrange rows).Pairwise fun a b => key a < key b := by
  have hne : (o.arrange rows).Pairwise fun a b => key a ≠ key b :=
    ((o.perm rows).pairwise_iff fun h => h.symm).mpr hk
  exact ((o.sorted rows).and hne).imp fun h => lt_of_le_of_ne h.1 h.2

/-! ## The first row -/

/-- The first row of an arrangement with some property has the least key among those with it. -/
theorem find?_least {found : List α} (hs : found.Pairwise fun a b => key a ≤ key b)
    {p : α → Bool} {r : α} (hr : found.find? p = some r) :
    ∀ q ∈ found, p q = true → key r ≤ key q := by
  intro q hq hpq
  obtain ⟨_, before, behind, rfl, hbefore⟩ := List.find?_eq_some_iff_append.mp hr
  rcases List.mem_append.mp hq with hq | hq
  · have hnot := hbefore q hq
    rw [hpq] at hnot
    cases hnot
  · rcases List.mem_cons.mp hq with rfl | hq
    · exact le_refl _
    · exact (List.pairwise_cons.mp (List.pairwise_append.mp hs).2.1).1 q hq

theorem OrderBy.head?_least (o : OrderBy key) {rows : List α} {r : α}
    (hr : (o.arrange rows).head? = some r) : r ∈ rows ∧ ∀ q ∈ rows, key r ≤ key q := by
  obtain ⟨rest, hrest⟩ := List.head?_eq_some_iff.mp hr
  have hs := o.sorted rows
  rw [hrest] at hs
  refine ⟨?_, ?_⟩
  · rw [← o.mem_arrange, hrest]
    exact List.mem_cons_self
  · intro q hq
    rw [← o.mem_arrange, hrest] at hq
    rcases List.mem_cons.mp hq with rfl | hq
    · exact le_refl _
    · exact (List.pairwise_cons.mp hs).1 q hq

theorem OrderBy.head?_eq_none (o : OrderBy key) {rows : List α} :
    (o.arrange rows).head? = none ↔ rows = [] := by
  rw [List.head?_eq_none_iff, ← List.length_eq_zero_iff, o.length_arrange, List.length_eq_zero_iff]

/-! ## Counting rows between two keys -/

theorem upTo_mono {c v w : β} (h : v ≤ w) (rows : List α) :
    upTo key c v rows ≤ upTo key c w rows := by
  apply List.countP_mono_left
  intro r _ hr
  simp only [Bool.and_eq_true, decide_eq_true_eq] at hr ⊢
  exact ⟨hr.1, hr.2.trans h⟩

theorem upTo_le_length (c v : β) (rows : List α) :
    upTo key c v rows ≤ (rowsAfter key c rows).length := by
  rw [rowsAfter, ← List.countP_eq_length_filter]
  apply List.countP_mono_left
  intro r _ hr
  exact (Bool.and_eq_true_iff.mp hr).1

/-- Rows up to `w` are those up to `v` and those after it. -/
theorem upTo_add {c v w : β} (hcv : c ≤ v) (hvw : v ≤ w) (rows : List α) :
    upTo key c w rows = upTo key c v rows + upTo key v w rows := by
  induction rows with
  | nil => rfl
  | cons r rows ih =>
      simp only [upTo, List.countP_cons] at ih ⊢
      rw [ih]
      rcases le_or_gt (key r) v with h | h
      · simp only [h, h.trans hvw, not_lt.mpr h, decide_true, decide_false, Bool.and_true,
          Bool.false_eq_true, ↓reduceIte]
        omega
      · simp only [h, hcv.trans_lt h, not_le.mpr h, decide_true, decide_false, Bool.and_false,
          Bool.true_and, Bool.false_eq_true, ↓reduceIte]
        omega

theorem below_add {c v w : β} (hcv : c ≤ v) (hvw : v < w) (rows : List α) :
    below key c w rows = upTo key c v rows + below key v w rows := by
  induction rows with
  | nil => rfl
  | cons r rows ih =>
      simp only [upTo, below, List.countP_cons] at ih ⊢
      rw [ih]
      rcases le_or_gt (key r) v with h | h
      · simp only [h, h.trans_lt hvw, not_lt.mpr h, decide_true, decide_false, Bool.and_true,
          Bool.false_eq_true, ↓reduceIte]
        omega
      · simp only [h, hcv.trans_lt h, not_le.mpr h, decide_true, decide_false, Bool.and_false,
          Bool.true_and, Bool.false_eq_true, ↓reduceIte]
        omega

/-! ## The reader -/

theorem page_nodup {rows : List α} (hn : rows.Nodup) (o : OrderBy key) (take : Nat) (c : β) :
    ((o.arrange (rowsAfter key c rows)).take take).Nodup :=
  (((o.perm _).nodup_iff).mpr (hn.filter _)).sublist (List.take_sublist _ _)

/-- The rows of a page lie between its cursor and its last key. -/
theorem page_subset (o : OrderBy key) {take : Nat} {c : β} {rows : List α} {last : α}
    (hl : ((o.arrange (rowsAfter key c rows)).take take).getLast? = some last) :
    (o.arrange (rowsAfter key c rows)).take take ⊆
      rows.filter (fun r => decide (c < key r) && decide (key r ≤ key last)) := by
  intro r hr
  obtain ⟨hm, hc⟩ := mem_rowsAfter.mp (o.mem_arrange.mp (List.mem_of_mem_take hr))
  apply List.mem_filter.mpr
  simp only [Bool.and_eq_true, decide_eq_true_eq]
  exact ⟨hm, hc, key_le_last (o.sorted _) hl hr⟩

/-- What a page that is not the last one says about the counts: it is full, all its rows
are up to the last key, and fewer than a page lie below that key. -/
theorem page_counts {rows : List α} (hn : rows.Nodup) (o : OrderBy key) {take : Nat} {c : β}
    {last : α} (hmore : take < (o.arrange (rowsAfter key c rows)).length)
    (hl : ((o.arrange (rowsAfter key c rows)).take take).getLast? = some last) :
    c < key last ∧ below key c (key last) rows < take ∧ take ≤ upTo key c (key last) rows := by
  have hs := o.sorted (rowsAfter key c rows)
  have hplen : ((o.arrange (rowsAfter key c rows)).take take).length = take :=
    List.length_take_of_le hmore.le
  have hlast := mem_rowsAfter.mp (o.mem_arrange.mp (List.mem_of_mem_take (List.mem_of_getLast? hl)))
  refine ⟨hlast.2, ?_, ?_⟩
  · -- the rows below the last key and the last row itself are all on the page
    have hsub : last :: rows.filter (fun r => decide (c < key r) && decide (key r < key last)) ⊆
        (o.arrange (rowsAfter key c rows)).take take := by
      intro r hr
      rcases List.mem_cons.mp hr with rfl | hr
      · exact List.mem_of_getLast? hl
      · obtain ⟨hm, hp⟩ := List.mem_filter.mp hr
        simp only [Bool.and_eq_true, decide_eq_true_eq] at hp
        exact mem_take_of_lt_last hs hl (o.mem_arrange.mpr (mem_rowsAfter.mpr ⟨hm, hp.1⟩)) hp.2
    have hnodup : (last :: rows.filter
        (fun r => decide (c < key r) && decide (key r < key last))).Nodup := by
      apply List.nodup_cons.mpr
      refine ⟨?_, hn.filter _⟩
      intro hm
      simp at hm
    have hle := (hnodup.subperm hsub).length_le
    rw [List.length_cons, hplen, ← List.countP_eq_length_filter] at hle
    exact hle
  · have hle := ((page_nodup hn o take c).subperm (page_subset o hl)).length_le
    rw [hplen, ← List.countP_eq_length_filter] at hle
    exact hle

/-- A page holds every row up to its last key exactly when there are no more of them than
fit on it. -/
theorem page_covers_iff {rows : List α} (hn : rows.Nodup) (o : OrderBy key) {take : Nat} {c : β}
    {last : α} (hmore : take < (o.arrange (rowsAfter key c rows)).length)
    (hl : ((o.arrange (rowsAfter key c rows)).take take).getLast? = some last) :
    (∀ r ∈ rows, c < key r → key r ≤ key last →
      r ∈ (o.arrange (rowsAfter key c rows)).take take) ↔
      upTo key c (key last) rows ≤ take := by
  have hplen : ((o.arrange (rowsAfter key c rows)).take take).length = take :=
    List.length_take_of_le hmore.le
  constructor
  · intro hall
    have hsub : rows.filter (fun r => decide (c < key r) && decide (key r ≤ key last)) ⊆
        (o.arrange (rowsAfter key c rows)).take take := by
      intro r hr
      obtain ⟨hm, hp⟩ := List.mem_filter.mp hr
      simp only [Bool.and_eq_true, decide_eq_true_eq] at hp
      exact hall r hm hp.1 hp.2
    have hle := ((hn.filter _).subperm hsub).length_le
    rw [hplen, ← List.countP_eq_length_filter] at hle
    exact hle
  · intro hle r hr hc hk
    -- as many rows on the page as there are up to its last key: the two are the same rows
    have hperm := ((page_nodup hn o take c).subperm (page_subset o hl)).perm_of_length_le (by
      rw [hplen, ← List.countP_eq_length_filter]
      exact hle)
    apply hperm.mem_iff.mpr
    apply List.mem_filter.mpr
    simp only [Bool.and_eq_true, decide_eq_true_eq]
    exact ⟨hr, hc, hk⟩

/-- With fewer rows left than there is fuel, the reader comes to its last page. -/
theorem drain_ends (order : Nat → OrderBy key) {take : Nat} (ht : 0 < take) (rows : List α) :
    ∀ fuel i c, (rowsAfter key c rows).length < fuel →
      ∃ received, drain order take rows fuel i c = some received := by
  intro fuel
  induction fuel with
  | zero => intro i c h; omega
  | succ fuel ih =>
      intro i c hfuel
      simp only [drain]
      split
      · rename_i hmore
        cases hl : (((order i).arrange (rowsAfter key c rows)).take take).getLast? with
        | none =>
            have hnil := List.getLast?_eq_none_iff.mp hl
            have hlen := congrArg List.length hnil
            rw [List.length_take_of_le hmore.le, List.length_nil] at hlen
            omega
        | some last =>
            have hlast := mem_rowsAfter.mp
              ((order i).mem_arrange.mp (List.mem_of_mem_take (List.mem_of_getLast? hl)))
            -- the last row of this page is not fetched again
            have hfewer : (rowsAfter key (key last) rows).length <
                (rowsAfter key c rows).length := by
              rw [← rowsAfter_rowsAfter hlast.2]
              apply List.length_filter_lt_length_iff_exists.mpr
              exact ⟨last, mem_rowsAfter.mpr hlast, by simp⟩
            obtain ⟨received, he⟩ := ih (i + 1) (key last) (by omega)
            refine ⟨((order i).arrange (rowsAfter key c rows)).take take ++ received, ?_⟩
            simp only [he, Option.map_some]
      · exact ⟨_, rfl⟩

/-- Only rows after the cursor are received. -/
theorem drain_after {order : Nat → OrderBy key} {take : Nat} {rows : List α} :
    ∀ {fuel i : Nat} {c : β} {received : List α},
      drain order take rows fuel i c = some received → ∀ r ∈ received, r ∈ rows ∧ c < key r := by
  intro fuel
  induction fuel with
  | zero => intro i c received h; cases h
  | succ fuel ih =>
      intro i c received h r hr
      simp only [drain] at h
      split at h
      · split at h
        · cases h
        · rename_i last hl
          obtain ⟨rest, hrest, rfl⟩ := Option.map_eq_some_iff.mp h
          have hpage : ∀ a ∈ ((order i).arrange (rowsAfter key c rows)).take take,
              a ∈ rows ∧ c < key a :=
            fun a ha => mem_rowsAfter.mp ((order i).mem_arrange.mp (List.mem_of_mem_take ha))
          rcases List.mem_append.mp hr with hr | hr
          · exact hpage r hr
          · obtain ⟨hm, hlt⟩ := ih hrest r hr
            exact ⟨hm, (hpage last (List.mem_of_getLast? hl)).2.trans hlt⟩
      · obtain rfl := Option.some.inj h
        exact mem_rowsAfter.mp ((order i).mem_arrange.mp hr)

/-- Behind a full page with last key `v` the boundaries are those of the rows after `v`. -/
theorem noSplit_next_iff {take : Nat} {rows : List α} {c v : β} (hc : c < v)
    (hbelow : below key c v rows < take) (hfull : take ≤ upTo key c v rows) :
    NoSplit key take c rows ↔ upTo key c v rows ≤ take ∧ NoSplit key take v rows := by
  constructor
  · intro hsplit
    have hexact : upTo key c v rows ≤ take := by
      have h1 := hsplit 1 v
      omega
    refine ⟨hexact, ?_⟩
    rintro j w ⟨hlo, hhi⟩
    rcases le_or_gt w v with hw | hw
    · have hnone : upTo key v w rows = 0 := by
        apply List.countP_eq_zero.mpr
        intro r _ hr
        simp only [Bool.and_eq_true, decide_eq_true_eq] at hr
        exact absurd (hr.1.trans_le hr.2) (not_lt.mpr hw)
      omega
    · apply hsplit (j + 1) w
      rw [Nat.succ_mul, below_add hc.le hw rows, upTo_add hc.le hw.le rows]
      omega
  · rintro ⟨hexact, hsplit⟩ (_ | j) w ⟨hlo, hhi⟩
    · omega
    · rw [Nat.succ_mul] at hlo hhi
      rcases le_or_gt w v with hw | hw
      · have hmono : upTo key c w rows ≤ upTo key c v rows := upTo_mono hw rows
        omega
      · apply hsplit j w
        rw [below_add hc.le hw rows] at hlo
        rw [upTo_add hc.le hw.le rows] at hhi
        omega

/-- No boundary falls inside rows that fit on one page. -/
theorem noSplit_last {take : Nat} {rows : List α} {c : β}
    (h : (rowsAfter key c rows).length ≤ take) : NoSplit key take c rows := by
  rintro (_ | j) v ⟨hlo, hhi⟩
  · omega
  · have hle : upTo key c v rows ≤ (rowsAfter key c rows).length := upTo_le_length c v rows
    rw [Nat.succ_mul] at hhi
    omega

/-- The reader gets every row after the cursor exactly when no page boundary falls inside a
run of equal keys. -/
theorem drain_complete_iff {order : Nat → OrderBy key} {take : Nat} {rows : List α}
    (hn : rows.Nodup) :
    ∀ {fuel i : Nat} {c : β} {received : List α},
      drain order take rows fuel i c = some received →
      ((∀ r ∈ rows, c < key r → r ∈ received) ↔ NoSplit key take c rows) := by
  intro fuel
  induction fuel with
  | zero => intro i c received h; cases h
  | succ fuel ih =>
      intro i c received h
      simp only [drain] at h
      split at h
      · rename_i hmore
        split at h
        · cases h
        · rename_i last hl
          obtain ⟨rest, hrest, rfl⟩ := Option.map_eq_some_iff.mp h
          obtain ⟨hc, hbelow, hfull⟩ := page_counts hn (order i) hmore hl
          have hlater := drain_after hrest
          -- a row up to the last key is on this page, a later one on the pages that follow
          rw [noSplit_next_iff hc hbelow hfull, ← page_covers_iff hn (order i) hmore hl, ← ih hrest]
          constructor
          · intro hall
            constructor
            · intro r hr hcr hk
              rcases List.mem_append.mp (hall r hr hcr) with hp | hp
              · exact hp
              · exact absurd hk (not_le.mpr (hlater r hp).2)
            · intro r hr hk
              rcases List.mem_append.mp (hall r hr (hc.trans hk)) with hp | hp
              · exact absurd hk (not_lt.mpr (key_le_last ((order i).sorted _) hl hp))
              · exact hp
          · rintro ⟨hpage, hall⟩ r hr hcr
            apply List.mem_append.mpr
            rcases le_or_gt (key r) (key last) with hk | hk
            · exact Or.inl (hpage r hr hcr hk)
            · exact Or.inr (hall r hr hk)
      · rename_i hless
        obtain rfl := Option.some.inj h
        constructor
        · intro _
          rw [(order i).length_arrange] at hless
          exact noSplit_last (not_lt.mp hless)
        · intro _ r hr hcr
          exact (order i).mem_arrange.mpr (mem_rowsAfter.mpr ⟨hr, hcr⟩)

end Birgap.Lib.Paging
