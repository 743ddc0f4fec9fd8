import Mathlib.Algebra.GroupWithZero.Nat
import Mathlib.Data.List.Forall2
import Mathlib.Data.List.Nodup
import Mathlib.Data.List.Sort
import Mathlib.Order.Basic

/-!
# Tables as lists of rows

The statements an ORM issues against one table, on the list of its rows in insertion
order: a conditional bulk update, an insert that skips rows violating a unique index,
and the look-up of one row under an ordering. A unique index on a column is
`Unique`, and look-ups on such a column are exact.
-/
namespace Birgap.Lib.Rows

set_option autoImplicit false

variable {α β κ : Type*}

/-- UPDATE .. WHERE: every row satisfying `p` is rewritten by `f`. -/
def updateMany (p : α → Bool) (f : α → α) (rows : List α) : List α :=
  rows.map fun r => if p r then f r else r

/-- ORDER BY key DESC LIMIT 1; among rows of equal key the earliest inserted. -/
def newest [LinearOrder β] (key : α → β) : List α → Option α
  | [] => none
  | r :: rs =>
      match newest key rs with
      | none => some r
      | some s => if key s ≤ key r then some r else some s

/-- INSERT .. ON CONFLICT DO NOTHING, one row at a time. -/
def insertSkip (clash : α → α → Bool) (rows : List α) (r : α) : List α :=
  if rows.any (clash r) then rows else rows ++ [r]

def createManySkip (clash : α → α → Bool) (new rows : List α) : List α :=
  new.foldl (insertSkip clash) rows

/-- INSERT of several rows in one statement: all of them, or none when one violates a
unique index. -/
def insertAll (clash : α → α → Bool) : List α → List α → Option (List α)
  | [], rows => some rows
  | r :: new, rows => if rows.any (clash r) then none else insertAll clash new (rows ++ [r])

/-- A unique index on the column `k`. -/
def Unique (k : α → κ) (rows : List α) : Prop := (rows.map k).Nodup

instance [DecidableEq κ] (k : α → κ) (rows : List α) : Decidable (Unique k rows) :=
  inferInstanceAs (Decidable (rows.map k).Nodup)

theorem mem_updateMany {p : α → Bool} {f : α → α} {rows : List α} {r' : α} :
    r' ∈ updateMany p f rows ↔ ∃ r ∈ rows, r' = if p r then f r else r := by
  simp only [updateMany, List.mem_map, eq_comm]

/-- Every row is still there after the update, under its key. -/
theorem updateMany_kept {p : α → Bool} {f : α → α} {k : α → κ} (hk : ∀ r, k (f r) = k r)
    {rows : List α} {r : α} (hr : r ∈ rows) : ∃ r' ∈ updateMany p f rows, k r' = k r := by
  refine ⟨_, mem_updateMany.mpr ⟨r, hr, rfl⟩, ?_⟩
  split
  · exact hk r
  · rfl

/-- A column the update does not touch keeps its values, in order. -/
theorem map_updateMany {p : α → Bool} {f : α → α} {g : α → β} (hg : ∀ r, g (f r) = g r)
    (rows : List α) : (updateMany p f rows).map g = rows.map g := by
  rw [updateMany, List.map_map]
  apply List.map_congr_left
  intro r _
  simp only [Function.comp_apply]
  split
  · exact hg r
  · rfl

/-- An update whose condition no row meets changes nothing. -/
theorem updateMany_eq_self {p : α → Bool} {f : α → α} {rows : List α}
    (h : ∀ r ∈ rows, p r = false) : updateMany p f rows = rows := by
  rw [updateMany]
  conv_rhs => rw [← List.map_id rows]
  apply List.map_congr_left
  intro r hr
  rw [h r hr]
  rfl

/-- A look-up on a column the update does not touch finds the updated row. -/
theorem find?_updateMany {p q : α → Bool} {f : α → α} (hq : ∀ r, q (f r) = q r) (rows : List α) :
    (updateMany p f rows).find? q = (rows.find? q).map fun r => if p r then f r else r := by
  rw [updateMany, List.find?_map]
  congr 2
  funext r
  simp only [Function.comp_apply]
  split
  · exact hq r
  · rfl

/-- Row by row, the table before an update and after it. -/
theorem forall₂_updateMany {R : α → α → Prop} {p : α → Bool} {f : α → α} {rows : List α}
    (h : ∀ r ∈ rows, R r (if p r then f r else r)) : List.Forall₂ R rows (updateMany p f rows) :=
  List.forall₂_map_right_iff.mpr (List.forall₂_same.mpr h)

/-- Selecting on a column the update does not touch commutes with it. -/
theorem filter_updateMany {p q : α → Bool} {f : α → α} (hq : ∀ r, q (f r) = q r) (rows : List α) :
    (updateMany p f rows).filter q = updateMany p f (rows.filter q) := by
  rw [updateMany, updateMany, List.filter_map]
  congr 2
  funext r
  simp only [Function.comp_apply]
  split
  · exact hq r
  · rfl

/-- Rewriting the rows without their key keeps the index. -/
theorem unique_map {g : α → α} {k : α → κ} (hk : ∀ r, k (g r) = k r) {rows : List α}
    (h : Unique k rows) : Unique k (rows.map g) := by
  have hc : k ∘ g = k := funext hk
  rw [Unique, List.map_map, hc]
  exact h

theorem unique_updateMany {p : α → Bool} {f : α → α} {k : α → κ} (hk : ∀ r, k (f r) = k r)
    {rows : List α} (h : Unique k rows) : Unique k (updateMany p f rows) := by
  rw [Unique, map_updateMany hk]
  exact h

theorem Unique.eq {k : α → κ} {rows : List α} (h : Unique k rows) {a b : α}
    (ha : a ∈ rows) (hb : b ∈ rows) (he : k a = k b) : a = b :=
  List.inj_on_of_nodup_map h ha hb he

/-- A row of the updated table that has the key of an old row comes from it. -/
theorem Unique.eq_updateMany {k : α → κ} {rows : List α} (h : Unique k rows) {p : α → Bool}
    {f : α → α} (hk : ∀ r, k (f r) = k r) {r r' : α} (hr : r ∈ rows)
    (hr' : r' ∈ updateMany p f rows) (he : k r' = k r) : r' = if p r then f r else r := by
  obtain ⟨x, hx, rfl⟩ := mem_updateMany.mp hr'
  have hkx : k (if p x then f x else x) = k x := by
    split
    · exact hk x
    · rfl
  rw [h.eq hx hr (hkx.symm.trans he)]

/-- Appending a row whose key is not yet stored keeps the index. -/
theorem unique_append {k : α → κ} {rows : List α} (h : Unique k rows) {r : α}
    (hr : ∀ a ∈ rows, k a ≠ k r) : Unique k (rows ++ [r]) := by
  rw [Unique, List.map_append, List.map_singleton, List.nodup_append]
  refine ⟨h, List.nodup_singleton _, ?_⟩
  intro x hx y hy
  obtain ⟨a, ha, rfl⟩ := List.mem_map.mp hx
  rw [List.mem_singleton.mp hy]
  exact hr a ha

theorem unique_append_iff {k : α → κ} {rows new : List α} :
    Unique k (rows ++ new) ↔
      Unique k rows ∧ Unique k new ∧ ∀ a ∈ rows, ∀ b ∈ new, k a ≠ k b := by
  rw [Unique, List.map_append, List.nodup_append]
  refine and_congr_right fun _ => and_congr_right fun _ => ?_
  constructor
  · intro h a ha b hb
    exact h (k a) (List.mem_map_of_mem ha) (k b) (List.mem_map_of_mem hb)
  · intro h x hx y hy
    obtain ⟨a, ha, rfl⟩ := List.mem_map.mp hx
    obtain ⟨b, hb, rfl⟩ := List.mem_map.mp hy
    exact h a ha b hb

theorem Unique.filter {k : α → κ} {rows : List α} (h : Unique k rows) (p : α → Bool) :
    Unique k (rows.filter p) :=
  h.sublist (List.filter_sublist.map k)

/-- A look-up by a unique key returns the row that has it. -/
theorem Unique.find?_eq [DecidableEq κ] {k : α → κ} {rows : List α} (h : Unique k rows) {r : α}
    (hr : r ∈ rows) : rows.find? (fun a => k a == k r) = some r := by
  cases hf : rows.find? (fun a => k a == k r) with
  | none =>
      have hn := List.find?_eq_none.mp hf r hr
      simp at hn
  | some a =>
      have hk : k a = k r := by simpa using List.find?_some hf
      rw [h.eq (List.mem_of_find?_eq_some hf) hr hk]

/-- Selecting by a value of a column that no row has returns nothing. -/
theorem filter_eq_nil_of_ne [BEq κ] [LawfulBEq κ] {k : α → κ} {rows : List α} {x : κ}
    (h : ∀ r ∈ rows, k r ≠ x) : (rows.filter fun a => k a == x) = [] := by
  apply List.filter_eq_nil_iff.mpr
  intro r hr he
  exact h r hr (beq_iff_eq.mp he)

/-- Rows inserted with other values of a column do not show in a selection by it. -/
theorem filter_append_of_ne [BEq κ] [LawfulBEq κ] {k : α → κ} (rows : List α) {new : List α}
    {x : κ} (h : ∀ r ∈ new, k r ≠ x) :
    ((rows ++ new).filter fun a => k a == x) = rows.filter fun a => k a == x := by
  rw [List.filter_append, filter_eq_nil_of_ne h, List.append_nil]

/-- Selecting by a unique key returns that row alone. -/
theorem Unique.filter_eq [DecidableEq κ] {k : α → κ} {rows : List α} (h : Unique k rows) {r : α}
    (hr : r ∈ rows) : rows.filter (fun a => k a == k r) = [r] := by
  induction rows with
  | nil => cases hr
  | cons b rows ih =>
      obtain ⟨hb, hrest⟩ := List.nodup_cons.mp h
      rcases List.mem_cons.mp hr with rfl | hr
      · rw [List.filter_cons_of_pos (by simp), filter_eq_nil_of_ne]
        intro a ha he
        exact hb (List.mem_map.mpr ⟨a, ha, he⟩)
      · rw [List.filter_cons_of_neg]
        · exact ih hrest hr
        · intro he
          exact hb (List.mem_map.mpr ⟨r, hr, (by simpa using he : k b = k r).symm⟩)

/-- An update selected by a unique key rewrites that one row in place. -/
theorem Unique.updateMany_split [DecidableEq κ] {k : α → κ} {rows : List α} (h : Unique k rows)
    {r : α} (hr : r ∈ rows) :
    ∃ pre post, rows = pre ++ r :: post ∧
      ∀ f, updateMany (fun a => k a == k r) f rows = pre ++ f r :: post := by
  obtain ⟨pre, post, rfl⟩ := List.append_of_mem hr
  have hdistinct := h
  rw [Unique, List.map_append, List.map_cons, List.nodup_append] at hdistinct
  obtain ⟨_, hpost, hpre⟩ := hdistinct
  refine ⟨pre, post, rfl, ?_⟩
  intro f
  have hleft : updateMany (fun a => k a == k r) f pre = pre := by
    apply updateMany_eq_self
    intro a ha
    have hne := hpre (k a) (List.mem_map_of_mem ha) (k r) List.mem_cons_self
    simpa using hne
  have hright : updateMany (fun a => k a == k r) f post = post := by
    apply updateMany_eq_self
    intro a ha
    have hne : k a ≠ k r := fun he =>
      (List.nodup_cons.mp hpost).1 (List.mem_map.mpr ⟨a, ha, he⟩)
    simpa using hne
  unfold updateMany at hleft hright ⊢
  rw [List.map_append, List.map_cons, hleft, hright, if_pos (by simp)]

/-- DELETE by a unique key takes that one row out. -/
theorem Unique.filter_ne_split [DecidableEq κ] {k : α → κ} {rows : List α} (h : Unique k rows)
    {r : α} (hr : r ∈ rows) :
    ∃ pre post, rows = pre ++ r :: post ∧ rows.filter (fun a => k a != k r) = pre ++ post := by
  obtain ⟨pre, post, rfl⟩ := List.append_of_mem hr
  have hdistinct := h
  rw [Unique, List.map_append, List.map_cons, List.nodup_append] at hdistinct
  obtain ⟨_, hpost, hpre⟩ := hdistinct
  refine ⟨pre, post, rfl, ?_⟩
  rw [List.filter_append, List.filter_cons_of_neg (by simp), List.filter_eq_self.mpr,
    List.filter_eq_self.mpr]
  · intro a ha
    have hne : k a ≠ k r := fun he =>
      (List.nodup_cons.mp hpost).1 (List.mem_map.mpr ⟨a, ha, he⟩)
    simpa using hne
  · intro a ha
    have hne := hpre (k a) (List.mem_map_of_mem ha) (k r) List.mem_cons_self
    simpa using hne

/-- How many rows satisfy `p` after a DELETE by a unique key. -/
theorem Unique.countP_filter_ne [DecidableEq κ] {k : α → κ} {rows : List α} (h : Unique k rows)
    {r : α} (hr : r ∈ rows) (p : α → Bool) :
    (rows.filter fun a => k a != k r).countP p + (if p r then 1 else 0) = rows.countP p := by
  obtain ⟨pre, post, hrows, hfilter⟩ := h.filter_ne_split hr
  rw [hfilter, hrows, List.countP_append, List.countP_append, List.countP_cons]
  omega

/-- How many rows satisfy `p` after an update of the row with a unique key. -/
theorem Unique.countP_updateMany [DecidableEq κ] {k : α → κ} {rows : List α} (h : Unique k rows)
    {r : α} (hr : r ∈ rows) (f : α → α) (p : α → Bool) :
    (updateMany (fun a => k a == k r) f rows).countP p + (if p r then 1 else 0) =
      rows.countP p + (if p (f r) then 1 else 0) := by
  obtain ⟨pre, post, hrows, hup⟩ := h.updateMany_split hr
  rw [hup, hrows, List.countP_append, List.countP_append, List.countP_cons, List.countP_cons]
  omega

/-- The sum of a column over the rows selected by `p`, when one of them is rewritten. -/
theorem Unique.sum_updateMany [DecidableEq κ] {k : α → κ} {rows : List α} (h : Unique k rows)
    {r : α} (hr : r ∈ rows) {f : α → α} {p : α → Bool} (hp : p (f r) = p r) (g : α → Nat) :
    (((updateMany (fun a => k a == k r) f rows).filter p).map g).sum + (if p r then g r else 0) =
      ((rows.filter p).map g).sum + (if p r then g (f r) else 0) := by
  obtain ⟨pre, post, hrows, hup⟩ := h.updateMany_split hr
  rw [hup, hrows]
  simp only [List.filter_append, List.filter_cons, List.map_append, List.sum_append, hp]
  cases p r with
  | true =>
      simp only [↓reduceIte, List.map_cons, List.sum_cons]
      omega
  | false => simp

/-- An update whose rewritten rows satisfy `p` only where the old ones did. -/
theorem countP_updateMany_le {p q : α → Bool} {f : α → α}
    (h : ∀ r, p (f r) = true → p r = true) (rows : List α) :
    (updateMany q f rows).countP p ≤ rows.countP p := by
  rw [updateMany, List.countP_map]
  apply List.countP_mono_left
  intro r _ hp
  simp only [Function.comp_apply] at hp
  split at hp
  · exact h r hp
  · exact hp

theorem newest_mem [LinearOrder β] {key : α → β} {rows : List α} {r : α}
    (h : newest key rows = some r) : r ∈ rows := by
  induction rows with
  | nil => cases h
  | cons a rows ih =>
      simp only [newest] at h
      split at h
      · obtain rfl := Option.some.inj h
        exact List.mem_cons_self
      · rename_i s hs
        split at h
        · obtain rfl := Option.some.inj h
          exact List.mem_cons_self
        · obtain rfl := Option.some.inj h
          exact List.mem_cons_of_mem _ (ih hs)

theorem newest_eq_none [LinearOrder β] {key : α → β} {rows : List α} (h : newest key rows = none) :
    rows = [] := by
  cases rows with
  | nil => rfl
  | cons r rows =>
      simp only [newest] at h
      split at h
      · cases h
      · split at h <;> cases h

/-- No row has a greater key than the one found. -/
theorem newest_max [LinearOrder β] {key : α → β} {rows : List α} {r : α}
    (h : newest key rows = some r) : ∀ a ∈ rows, key a ≤ key r := by
  induction rows generalizing r with
  | nil => cases h
  | cons b rows ih =>
      intro a ha
      simp only [newest] at h
      split at h
      · rename_i hnone
        obtain rfl := Option.some.inj h
        rcases List.mem_cons.mp ha with rfl | ha
        · exact le_refl _
        · rw [newest_eq_none hnone] at ha
          cases ha
      · rename_i s hs
        split at h
        · rename_i hle
          obtain rfl := Option.some.inj h
          rcases List.mem_cons.mp ha with rfl | ha
          · exact le_refl _
          · exact (ih hs a ha).trans hle
        · rename_i hlt
          obtain rfl := Option.some.inj h
          rcases List.mem_cons.mp ha with rfl | ha
          · exact le_of_lt (not_le.mp hlt)
          · exact ih hs a ha

/-- The insert appends some of the new rows. -/
theorem createManySkip_append (clash : α → α → Bool) (new : List α) :
    ∀ rows : List α, ∃ extra, createManySkip clash new rows = rows ++ extra ∧ ∀ a ∈ extra, a ∈ new := by
  induction new with
  | nil =>
      intro rows
      refine ⟨[], (List.append_nil rows).symm, ?_⟩
      intro a h
      exact h
  | cons r new ih =>
      intro rows
      obtain ⟨extra, he, hmem⟩ := ih (insertSkip clash rows r)
      have hcons : createManySkip clash (r :: new) rows = insertSkip clash rows r ++ extra := he
      unfold insertSkip at hcons
      split at hcons
      · exact ⟨extra, hcons, fun a ha => List.mem_cons_of_mem _ (hmem a ha)⟩
      · refine ⟨r :: extra, ?_, ?_⟩
        · rw [hcons, List.append_assoc, List.singleton_append]
        · intro a ha
          rcases List.mem_cons.mp ha with rfl | ha
          · exact List.mem_cons_self
          · exact List.mem_cons_of_mem _ (hmem a ha)

theorem mem_createManySkip {clash : α → α → Bool} {new rows : List α} {a : α}
    (h : a ∈ createManySkip clash new rows) : a ∈ rows ∨ a ∈ new := by
  obtain ⟨extra, he, hmem⟩ := createManySkip_append clash new rows
  rw [he] at h
  exact (List.mem_append.mp h).imp_right (hmem a)

/-- Skipping duplicates never touches a stored row. -/
theorem mem_createManySkip_of_mem {clash : α → α → Bool} {new rows : List α} {a : α}
    (h : a ∈ rows) : a ∈ createManySkip clash new rows := by
  obtain ⟨extra, he, _⟩ := createManySkip_append clash new rows
  rw [he]
  exact List.mem_append_left _ h

/-- A new row is stored, or a stored row was in its way. -/
theorem createManySkip_covers (clash : α → α → Bool) {new : List α} {a : α} (h : a ∈ new) :
    ∀ rows : List α, ∃ b ∈ createManySkip clash new rows, b = a ∨ clash a b = true := by
  induction new with
  | nil => cases h
  | cons r new ih =>
      intro rows
      rcases List.mem_cons.mp h with rfl | h
      · by_cases hc : rows.any (clash a) = true
        · obtain ⟨b, hb, hab⟩ := List.any_eq_true.mp hc
          exact ⟨b, mem_createManySkip_of_mem hb, Or.inr hab⟩
        · have hin : a ∈ insertSkip clash rows a := by
            unfold insertSkip
            rw [if_neg hc]
            exact List.mem_append_right _ List.mem_cons_self
          have hstay : a ∈ createManySkip clash new (insertSkip clash rows a) :=
            mem_createManySkip_of_mem hin
          exact ⟨a, hstay, Or.inl rfl⟩
      · exact ih h (insertSkip clash rows r)

/-- Inserting the first row for each key keeps the first row for each key. -/
theorem find?_createManySkip [DecidableEq κ] (k : α → κ) (x : κ) (new : List α) :
    ∀ rows : List α, (createManySkip (fun a b => k a == k b) new rows).find? (fun a => k a == x) =
      (rows ++ new).find? fun a => k a == x := by
  induction new with
  | nil =>
      intro rows
      rw [List.append_nil]
      rfl
  | cons r new ih =>
      intro rows
      show (createManySkip _ new (insertSkip _ rows r)).find? _ = _
      rw [ih, insertSkip]
      by_cases hany : rows.any (fun b => k r == k b) = true
      · -- a row with this key comes first already
        rw [if_pos hany, List.find?_append, List.find?_append, List.find?_cons]
        by_cases hx : k r = x
        · obtain ⟨b, hb, hkey⟩ := List.any_eq_true.mp hany
          have hfound : (rows.find? fun a => k a == x).isSome := by
            rw [List.find?_isSome]
            exact ⟨b, hb, beq_iff_eq.mpr ((beq_iff_eq.mp hkey).symm.trans hx)⟩
          obtain ⟨c, hc⟩ := Option.isSome_iff_exists.mp hfound
          rw [hc]
          rfl
        · rw [beq_eq_false_iff_ne.mpr hx]
      · rw [if_neg hany, List.append_assoc, List.singleton_append]

/-- When equal keys clash, the insert keeps the unique index. -/
theorem unique_createManySkip {clash : α → α → Bool} {k : α → κ}
    (hc : ∀ a b, k a = k b → clash b a = true) {new : List α} :
    ∀ {rows : List α}, Unique k rows → Unique k (createManySkip clash new rows) := by
  induction new with
  | nil => intro rows h; exact h
  | cons r new ih =>
      intro rows h
      apply ih
      unfold insertSkip
      split
      · exact h
      · rename_i hn
        apply unique_append h
        intro a ha he
        exact hn (List.any_eq_true.mpr ⟨a, ha, hc a r he⟩)

theorem insertAll_eq {clash : α → α → Bool} {new : List α} :
    ∀ {rows rows' : List α}, insertAll clash new rows = some rows' → rows' = rows ++ new := by
  induction new with
  | nil =>
      intro rows rows' h
      rw [List.append_nil]
      exact (Option.some.inj h).symm
  | cons r new ih =>
      intro rows rows' h
      simp only [insertAll] at h
      split at h
      · cases h
      · rw [ih h, List.append_assoc]
        rfl

/-- All rows are inserted where none clashes with a stored one or with an earlier one. -/
theorem insertAll_some_iff {clash : α → α → Bool} {new : List α} :
    ∀ {rows : List α}, (∃ rows', insertAll clash new rows = some rows') ↔
      (∀ a ∈ new, ∀ r ∈ rows, clash a r = false) ∧ new.Pairwise fun a b => clash b a = false := by
  induction new with
  | nil =>
      intro rows
      exact ⟨fun _ => ⟨fun _ ha => absurd ha List.not_mem_nil, List.Pairwise.nil⟩, fun _ => ⟨rows, rfl⟩⟩
  | cons b new ih =>
      intro rows
      have hstep : (∃ rows', insertAll clash (b :: new) rows = some rows') ↔
          (∀ r ∈ rows, clash b r = false) ∧ ∃ rows', insertAll clash new (rows ++ [b]) = some rows' := by
        by_cases hany : rows.any (clash b) = true
        · obtain ⟨r, hr, hc⟩ := List.any_eq_true.mp hany
          constructor
          · rintro ⟨rows', h⟩
            rw [insertAll, if_pos hany] at h
            cases h
          · rintro ⟨h, _⟩
            rw [h r hr] at hc
            cases hc
        · rw [insertAll, if_neg hany]
          refine ⟨fun h => ⟨fun r hr => ?_, h⟩, fun h => h.2⟩
          exact Bool.eq_false_iff.mpr fun hc => hany (List.any_eq_true.mpr ⟨r, hr, hc⟩)
      rw [hstep, ih, List.pairwise_cons]
      constructor
      · rintro ⟨hb, hrest, hpair⟩
        refine ⟨?_, ?_, hpair⟩
        · intro a ha r hr
          rcases List.mem_cons.mp ha with rfl | ha
          · exact hb r hr
          · exact hrest a ha r (List.mem_append_left _ hr)
        · intro a ha
          exact hrest a ha b (List.mem_append_right _ (List.mem_singleton_self b))
      · rintro ⟨hall, hb, hpair⟩
        refine ⟨fun r hr => hall b List.mem_cons_self r hr, ?_, hpair⟩
        intro a ha r hr
        rcases List.mem_append.mp hr with hr | hr
        · exact hall a (List.mem_cons_of_mem _ ha) r hr
        · rw [List.mem_singleton.mp hr]
          exact hb a ha

theorem unique_insertAll {clash : α → α → Bool} {k : α → κ}
    (hc : ∀ a b, k a = k b → clash b a = true) {new : List α} :
    ∀ {rows rows' : List α}, insertAll clash new rows = some rows' → Unique k rows →
      Unique k rows' := by
  induction new with
  | nil =>
      intro rows rows' h hu
      rw [← Option.some.inj h]
      exact hu
  | cons r new ih =>
      intro rows rows' h hu
      simp only [insertAll] at h
      split at h
      · cases h
      · rename_i hn
        apply ih h
        apply unique_append hu
        intro a ha he
        exact hn (List.any_eq_true.mpr ⟨a, ha, hc a r he⟩)

end Birgap.Lib.Rows
