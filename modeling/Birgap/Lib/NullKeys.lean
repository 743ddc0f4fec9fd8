import Birgap.Lib.Rows

/-!
# Upserts by a unique key with a nullable part

A client names the row of an upsert by its unique key. The part that is nullable in the table may
not be null in that key: the client refuses a transaction with such a call before the database
sees any of it. With the part given, the row with the key is updated, and without one a row is
inserted.
-/
namespace Birgap.Lib.NullKeys

set_option autoImplicit false

variable {α κ δ ι : Type*} [DecidableEq κ] [DecidableEq δ] [DecidableEq ι]

inductive Refusal where
  | nullInKey
  | idTaken
  deriving DecidableEq

/-- INSERT .. ON CONFLICT (key) DO UPDATE: `set` rewrites the row with the key, and without one
`new` is inserted, unless its primary key is taken. -/
def upsert (key : α → κ × Option δ) (id : α → ι) (set : α → α → α) (rows : List α) (new : α) :
    Except Refusal (List α) :=
  if rows.any fun r => key new == key r then
    .ok (Rows.updateMany (fun r => key new == key r) (set new) rows)
  else if rows.any fun r => id new == id r then .error .idTaken
  else .ok (rows ++ [new])

/-- Several upserts in one transaction. -/
def upsertAll (key : α → κ × Option δ) (id : α → ι) (set : α → α → α) (new rows : List α) :
    Except Refusal (List α) :=
  if new.any fun a => (key a).2.isNone then .error .nullInKey
  else new.foldlM (upsert key id set) rows

/-- One NULL is enough for a refusal. -/
theorem upsertAll_null {key : α → κ × Option δ} {id : α → ι} {set : α → α → α} {new : List α}
    {a : α} (ha : a ∈ new) (hnull : (key a).2 = none) (rows : List α) :
    upsertAll key id set new rows = .error .nullInKey := by
  have hany : (new.any fun a => (key a).2.isNone) = true := by
    refine List.any_eq_true.mpr ⟨a, ha, ?_⟩
    rw [hnull]
    rfl
  unfold upsertAll
  rw [if_pos hany]

end Birgap.Lib.NullKeys
