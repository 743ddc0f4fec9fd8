import Birgap.Groups.Members
import Mathlib.Data.List.Dedup

/-!
# Adding members as a union of sets

`addMembers` drops the listed users that are members already and inserts the others as they
are listed. The insert is one statement under the unique key of the membership, so a user who
is listed twice and not yet a member fails the call for the whole list.
-/
namespace Birgap.Groups.Union

set_option autoImplicit false

open Birgap.Lib Birgap.Messages

/-- The listed users that are not members, each once. -/
def missing (groupId : Id) (memberIds : List Id) (db : Db) : List Id :=
  memberIds.dedup.filter fun u => !isMember groupId u db

/-- The members of the group joined with the listed users, in the roles they have or get. -/
structure JoinedWith (groupId : Id) (memberIds : List Id) (db : Db) (count : Nat) (db' : Db) :
    Prop where
  found : ∀ u, findMember groupId u db' = (findMember groupId u db).or
    (if u ∈ memberIds then some { groupId, userId := u, role := "MEMBER" } else none)
  others : ∀ g u, g ≠ groupId → findMember g u db' = findMember g u db
  unique : Rows.Unique (fun m => (m.groupId, m.userId)) db'.groupMembers
  count : count = (missing groupId memberIds db).length

/-- An admin of the group lists users that exist. -/
structure Addable (userId groupId : Id) (memberIds : List Id) (db : Db) : Prop where
  admin : assertGroupAdmin userId groupId db = .ok ()
  exist : ∀ u ∈ memberIds, db.users.any (·.id == u) = true
  unique : Rows.Unique (fun m => (m.groupId, m.userId)) db.groupMembers

section Lists

variable {groupId userId : Id} {memberIds ids : List Id} {db : Db}

theorem findMember_none_iff : findMember groupId userId db = none ↔ isMember groupId userId db = false := by
  unfold findMember isMember
  rw [List.find?_eq_none, List.any_eq_false]

theorem find?_membersOf (g u : Id) :
    (membersOf groupId ids).find? (fun m => m.groupId == g && m.userId == u) =
      if groupId = g ∧ u ∈ ids then some { groupId, userId := u, role := "MEMBER" } else none := by
  induction ids with
  | nil => simp [membersOf]
  | cons id ids ih =>
      show List.find? _ ({ groupId, userId := id, role := "MEMBER" } :: membersOf groupId ids) = _
      by_cases hkey : groupId = g ∧ id = u
      · obtain ⟨rfl, rfl⟩ := hkey
        rw [List.find?_cons_of_pos (by simp), if_pos ⟨rfl, List.mem_cons_self⟩]
      · rw [List.find?_cons_of_neg (by simpa using hkey), ih]
        have hmem : groupId = g ∧ u ∈ id :: ids ↔ groupId = g ∧ u ∈ ids := by
          constructor
          · rintro ⟨hg, hu⟩
            rcases List.mem_cons.mp hu with rfl | hu
            · exact absurd ⟨hg, rfl⟩ hkey
            · exact ⟨hg, hu⟩
          · rintro ⟨hg, hu⟩
            exact ⟨hg, List.mem_cons_of_mem _ hu⟩
        simp only [hmem]

theorem mem_newMemberIds (u : Id) :
    u ∈ newMemberIds groupId memberIds db ↔ u ∈ memberIds ∧ isMember groupId u db = false := by
  simp [newMemberIds, List.mem_filter]

/-- Nobody is inserted twice where the listed users that are no members are listed once. -/
theorem nodup_newMemberIds_iff :
    (newMemberIds groupId memberIds db).Nodup ↔
      ∀ u, isMember groupId u db = false → memberIds.count u ≤ 1 := by
  rw [List.nodup_iff_count_le_one]
  apply forall_congr'
  intro u
  unfold newMemberIds
  cases hu : isMember groupId u db with
  | true =>
      have hout : u ∉ memberIds.filter fun id => !isMember groupId id db := by
        simp [List.mem_filter, hu]
      simp [List.count_eq_zero_of_not_mem hout]
  | false =>
      rw [List.count_filter (by simp [hu])]
      simp

theorem length_missing (h : (newMemberIds groupId memberIds db).Nodup) :
    (missing groupId memberIds db).length = (newMemberIds groupId memberIds db).length := by
  have hnodup : (missing groupId memberIds db).Nodup := (List.nodup_dedup memberIds).filter _
  apply List.Perm.length_eq
  rw [List.perm_ext_iff_of_nodup hnodup h]
  intro u
  simp [missing, newMemberIds, List.mem_filter]

end Lists

section Call

variable {userId groupId : Id} {memberIds : List Id} {db : Db}

theorem addMembers_eq (h : Addable userId groupId memberIds db) :
    addMembers userId groupId memberIds db =
      if (newMemberIds groupId memberIds db).isEmpty then .ok (0, db)
      else (createMembers (membersOf groupId (newMemberIds groupId memberIds db)) db).map
        fun db' => ((newMemberIds groupId memberIds db).length, db') := by
  unfold addMembers
  rw [h.admin]
  show (if _ then _ else _) = _
  split
  · rfl
  · cases createMembers (membersOf groupId (newMemberIds groupId memberIds db)) db <;> rfl

theorem createMembers_unique {new : List GroupMember} {db' : Db} (h : createMembers new db = .ok db')
    (hu : Rows.Unique (fun m => (m.groupId, m.userId)) db.groupMembers) :
    Rows.Unique (fun m => (m.groupId, m.userId)) db'.groupMembers := by
  unfold createMembers at h
  split at h
  · cases h
  · split at h
    · cases h
    · rename_i rows hrows
      rw [← Except.ok.inj h]
      refine Rows.unique_insertAll ?_ hrows hu
      intro a b hkey
      obtain ⟨hgroup, huser⟩ := Prod.mk.inj hkey
      simp [hgroup, huser]

/-- The insert goes through exactly when its list repeats nobody. -/
theorem createMembers_iff (h : Addable userId groupId memberIds db) :
    (∃ db', createMembers (membersOf groupId (newMemberIds groupId memberIds db)) db = .ok db') ↔
      (newMemberIds groupId memberIds db).Nodup := by
  have hexist : (membersOf groupId (newMemberIds groupId memberIds db)).all
      (fun m => db.users.any (·.id == m.userId)) = true := by
    rw [List.all_eq_true]
    intro m hm
    obtain ⟨u, hu, rfl⟩ := List.mem_map.mp hm
    exact h.exist u ((mem_newMemberIds u).mp hu).1
  have hfresh : ∀ a ∈ membersOf groupId (newMemberIds groupId memberIds db), ∀ r ∈ db.groupMembers,
      (a.groupId == r.groupId && a.userId == r.userId) = false := by
    intro a ha r hr
    obtain ⟨u, hu, rfl⟩ := List.mem_map.mp ha
    have hnot := ((mem_newMemberIds u).mp hu).2
    unfold isMember at hnot
    have hrow := List.any_eq_false.mp hnot r hr
    rw [Bool.eq_false_iff]
    intro hclash
    apply hrow
    simp only [Bool.and_eq_true, beq_iff_eq] at hclash ⊢
    exact ⟨hclash.1.symm, hclash.2.symm⟩
  have hpair : (membersOf groupId (newMemberIds groupId memberIds db)).Pairwise
      (fun a b => (b.groupId == a.groupId && b.userId == a.userId) = false) ↔
      (newMemberIds groupId memberIds db).Nodup := by
    unfold membersOf List.Nodup
    rw [List.pairwise_map]
    apply Iff.of_eq
    congr 1
    funext a b
    rw [beq_self_eq_true, Bool.true_and, beq_eq_false_iff_ne, ne_comm]
  have hinsert : (∃ rows, Rows.insertAll (fun a b => a.groupId == b.groupId && a.userId == b.userId)
      (membersOf groupId (newMemberIds groupId memberIds db)) db.groupMembers = some rows) ↔
      (newMemberIds groupId memberIds db).Nodup := by
    rw [Rows.insertAll_some_iff, hpair]
    exact and_iff_right hfresh
  rw [← hinsert]
  unfold createMembers
  rw [hexist]
  cases Rows.insertAll (fun a b => a.groupId == b.groupId && a.userId == b.userId)
      (membersOf groupId (newMemberIds groupId memberIds db)) db.groupMembers with
  | none => simp
  | some rows => simp

/-- Where the insert goes through, its rows are there afterwards, beside the old ones. -/
theorem joinedWith_createMembers (h : Addable userId groupId memberIds db) {db' : Db}
    (hok : createMembers (membersOf groupId (newMemberIds groupId memberIds db)) db = .ok db') :
    JoinedWith groupId memberIds db (newMemberIds groupId memberIds db).length db' := by
  have hfind : ∀ g u, findMember g u db' =
      (findMember g u db).or (if groupId = g ∧ u ∈ newMemberIds groupId memberIds db then
        some { groupId, userId := u, role := "MEMBER" } else none) := by
    intro g u
    rw [createMembers_ok hok]
    unfold findMember
    rw [List.find?_append, find?_membersOf]
  constructor
  · intro u
    rw [hfind]
    cases hfound : findMember groupId u db with
    | some m => rfl
    | none =>
        simp only [mem_newMemberIds, findMember_none_iff.mp hfound, true_and, and_true]
  · intro g u hg
    rw [hfind, if_neg (fun hkey => hg hkey.1.symm), Option.or_none]
  · exact createMembers_unique hok h.unique
  · exact (length_missing ((createMembers_iff h).mp ⟨db', hok⟩)).symm

end Call

def sampleDb : Db :=
  { users := [{ id := "u1", phoneHash := "h1" }, { id := "u2", phoneHash := "h2" }]
    groupMembers := [{ groupId := "g1", userId := "u1", role := "ADMIN" }] }

end Birgap.Groups.Union
