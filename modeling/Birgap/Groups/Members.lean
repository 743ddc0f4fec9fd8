import Birgap.Messages.Edit

/-!
# Group membership

`GroupsService.createGroup`, `addMembers` and `removeMember`. The checks of a call and its
write are separate definitions; the member cache they invalidate is modelled with the
broadcasts that read it.
-/
namespace Birgap.Groups

set_option autoImplicit false

open Birgap.Lib Birgap.Lib.Tx Birgap.Messages

structure CreateGroupDto where
  encryptedMetadata : Ciphertext
  members : List Id

def findMember (groupId userId : Id) (db : Db) : Option GroupMember :=
  db.groupMembers.find? fun m => m.groupId == groupId && m.userId == userId

/-- The ids of the members, as the broadcasts query them. -/
def memberIdsOf (groupId : Id) (db : Db) : List Id :=
  (db.groupMembers.filter (·.groupId == groupId)).map (·.userId)

/-- `createMany` of members: every user exists and none is a member already, or no row is
inserted. -/
def createMembers (new : List GroupMember) (db : Db) : Except Err Db :=
  if !new.all fun m => db.users.any (·.id == m.userId) then
    .error (.failure "Foreign key constraint violated")
  else
    match Rows.insertAll (fun a b => a.groupId == b.groupId && a.userId == b.userId) new
      db.groupMembers with
    | none => .error .uniqueConstraint
    | some rows => .ok { db with groupMembers := rows }

/-- `createGroup`; `groupId` is the id drawn for the group. -/
def createGroup (groupId creatorUserId : Id) (dto : CreateGroupDto) (db : Db) : Except Err Db :=
  let memberIds := (creatorUserId :: dto.members).eraseDups
  if db.groups.any (·.id == groupId) then .error .uniqueConstraint
  else
    createMembers
      (memberIds.map fun userId =>
        { groupId, userId, role := if userId = creatorUserId then "ADMIN" else "MEMBER" })
      { db with groups := db.groups ++ [{ id := groupId, encryptedMetadata := dto.encryptedMetadata }] }

def assertGroupAdmin (userId groupId : Id) (db : Db) : Except Err Unit :=
  match findMember groupId userId db with
  | none => .error (.forbidden "Not a member of this group")
  | some member =>
      if member.role ≠ "ADMIN" then .error (.forbidden "Only group admins can perform this action")
      else .ok ()

/-- The ids of a request that are not members yet. -/
def newMemberIds (groupId : Id) (memberIds : List Id) (db : Db) : List Id :=
  memberIds.filter fun id => !isMember groupId id db

def membersOf (groupId : Id) (ids : List Id) : List GroupMember :=
  ids.map fun userId => { groupId, userId, role := "MEMBER" }

/-- `addMembers`, run alone; answers with the number of rows created. -/
def addMembers (userId groupId : Id) (memberIds : List Id) (db : Db) : Except Err (Nat × Db) := do
  assertGroupAdmin userId groupId db
  let ids := newMemberIds groupId memberIds db
  if ids.isEmpty then pure (0, db)
  else
    let db ← createMembers (membersOf groupId ids) db
    pure (ids.length, db)

/-- The checks of `removeMember`. -/
def removeCheck (userId groupId targetUserId : Id) (db : Db) : Except Err Unit :=
  match findMember groupId userId db with
  | none => .error (.forbidden "Not a member of this group")
  | some member =>
      if userId ≠ targetUserId ∧ member.role ≠ "ADMIN" then
        .error (.forbidden "Only group admins can remove other members")
      else
        match findMember groupId targetUserId db with
        | none => .error (.notFound "Target user is not a member of this group")
        | some _ => .ok ()

/-- The `delete` of `removeMember`. -/
def deleteMember (groupId targetUserId : Id) (db : Db) : Except Err Db :=
  if isMember groupId targetUserId db then
    .ok { db with
      groupMembers := db.groupMembers.filter fun m =>
        !(m.groupId == groupId && m.userId == targetUserId) }
  else .error (.failure "Record to delete does not exist.")

/-- `removeMember`, run alone. -/
def removeMember (userId groupId targetUserId : Id) (db : Db) : Except Err Db := do
  removeCheck userId groupId targetUserId db
  deleteMember groupId targetUserId db

/-! ## Who is a member afterwards -/

theorem isMember_iff {groupId userId : Id} {db : Db} :
    isMember groupId userId db = true ↔
      ∃ m ∈ db.groupMembers, m.groupId = groupId ∧ m.userId = userId := by
  simp [isMember]

theorem mem_memberIdsOf {groupId userId : Id} {db : Db} :
    userId ∈ memberIdsOf groupId db ↔ isMember groupId userId db = true := by
  rw [isMember_iff]
  constructor
  · intro h
    obtain ⟨m, hm, rfl⟩ := List.mem_map.mp h
    obtain ⟨hm, hg⟩ := List.mem_filter.mp hm
    exact ⟨m, hm, by simpa using hg, rfl⟩
  · rintro ⟨m, hm, hg, rfl⟩
    exact List.mem_map.mpr ⟨m, List.mem_filter.mpr ⟨hm, by simpa using hg⟩, rfl⟩

theorem createMembers_ok {new : List GroupMember} {db db' : Db} (h : createMembers new db = .ok db') :
    db' = { db with groupMembers := db.groupMembers ++ new } := by
  unfold createMembers at h
  split at h
  · cases h
  · split at h
    · cases h
    · rename_i rows hrows
      rw [← Rows.insertAll_eq hrows]
      exact (Except.ok.inj h).symm

theorem deleteMember_ok {groupId targetUserId : Id} {db db' : Db}
    (h : deleteMember groupId targetUserId db = .ok db') :
    db' = { db with
      groupMembers := db.groupMembers.filter fun m =>
        !(m.groupId == groupId && m.userId == targetUserId) } := by
  unfold deleteMember at h
  split at h
  · exact (Except.ok.inj h).symm
  · cases h

/-- A created row makes its user a member, and nobody else. -/
theorem isMember_createMembers {groupId userId : Id} {new : List GroupMember} {db db' : Db}
    (h : createMembers new db = .ok db') :
    isMember groupId userId db' = true ↔
      isMember groupId userId db = true ∨ ∃ m ∈ new, m.groupId = groupId ∧ m.userId = userId := by
  rw [createMembers_ok h, isMember_iff, isMember_iff]
  simp only [List.mem_append]
  constructor
  · rintro ⟨m, hm | hm, hkey⟩
    · exact Or.inl ⟨m, hm, hkey⟩
    · exact Or.inr ⟨m, hm, hkey⟩
  · rintro (⟨m, hm, hkey⟩ | ⟨m, hm, hkey⟩)
    · exact ⟨m, Or.inl hm, hkey⟩
    · exact ⟨m, Or.inr hm, hkey⟩

/-- A deletion takes its target out of the group, and nobody else. -/
theorem isMember_deleteMember {groupId targetUserId g u : Id} {db db' : Db}
    (h : deleteMember groupId targetUserId db = .ok db') :
    isMember g u db' = true ↔
      isMember g u db = true ∧ ¬ (g = groupId ∧ u = targetUserId) := by
  rw [deleteMember_ok h, isMember_iff, isMember_iff]
  constructor
  · rintro ⟨m, hm, rfl, rfl⟩
    obtain ⟨hm, hkeep⟩ := List.mem_filter.mp hm
    refine ⟨⟨m, hm, rfl, rfl⟩, ?_⟩
    rintro ⟨hg, hu⟩
    simp [hg, hu] at hkeep
  · rintro ⟨⟨m, hm, rfl, rfl⟩, hne⟩
    refine ⟨m, List.mem_filter.mpr ⟨hm, ?_⟩, rfl, rfl⟩
    by_contra hdel
    simp only [Bool.not_eq_true', Bool.not_eq_false, Bool.and_eq_true, beq_iff_eq] at hdel
    exact hne hdel

end Birgap.Groups
