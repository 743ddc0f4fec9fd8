import Birgap.Groups.Members
import Birgap.Lib.Run

/-!
# Who governs a group

`createGroup`, `addMembers` and `removeMember` with every statement a step of its own, so that
the check of a call may be long past when the call writes. The creator of a group is the only
admin it ever has. Once the creator has left, nobody joins any more but through calls that
passed their check before.
-/
namespace Birgap.Groups.Governance

set_option autoImplicit false

open Birgap.Lib Birgap.Lib.Run Birgap.Messages Birgap.Groups

/-- Where a call stands: past the check of `addMembers`, past its look-up of the members; past the
check of the caller of `removeMember`, past its look-up of the target. -/
inductive Call where
  | idle
  | adding (groupId : Id) (memberIds : List Id)
  | inserting (groupId : Id) (ids : List Id)
  | removing (groupId userId target : Id)
  | deleting (groupId userId target : Id)

/-- A group as it was created. -/
structure Creation where
  groupId : Id
  creator : Id
  members : List Id

/-- A call of `addMembers` that has passed its check. -/
structure Grant where
  groupId : Id
  userId : Id
  memberIds : List Id

/-- A row that was deleted, and the caller. -/
structure Removal where
  groupId : Id
  userId : Id
  target : Id

structure State where
  db : Db
  calls : Nat → Call
  created : List Creation
  granted : List Grant
  removed : List Removal

inductive Act where
  | create (groupId creator : Id) (dto : CreateGroupDto)
  | add (pid : Nat) (userId groupId : Id) (memberIds : List Id)
  | existing (pid : Nat)
  | insert (pid : Nat)
  | remove (pid : Nat) (userId groupId target : Id)
  | target (pid : Nat)
  | delete (pid : Nat)
  | fail (pid : Nat)

/-- The first look-up of `removeMember`. -/
def callerCheck (userId groupId targetUserId : Id) (db : Db) : Except Err Unit :=
  match findMember groupId userId db with
  | none => .error (.forbidden "Not a member of this group")
  | some member =>
      if userId ≠ targetUserId ∧ member.role ≠ "ADMIN" then
        .error (.forbidden "Only group admins can remove other members")
      else .ok ()

/-- The second look-up of `removeMember`. -/
def targetCheck (groupId targetUserId : Id) (db : Db) : Except Err Unit :=
  match findMember groupId targetUserId db with
  | none => .error (.notFound "Target user is not a member of this group")
  | some _ => .ok ()

def State.set (s : State) (pid : Nat) (c : Call) : State :=
  { s with calls := Function.update s.calls pid c }

def step (s : State) : Act → State
  | .create groupId creator dto =>
      match createGroup groupId creator dto s.db with
      | .error _ => s
      | .ok db => { s with db, created := s.created ++ [⟨groupId, creator, dto.members⟩] }
  | .add pid userId groupId memberIds =>
      match s.calls pid with
      | .idle =>
          match assertGroupAdmin userId groupId s.db with
          | .error _ => s
          | .ok () =>
              { s.set pid (.adding groupId memberIds) with
                granted := s.granted ++ [⟨groupId, userId, memberIds⟩] }
      | _ => s
  | .existing pid =>
      match s.calls pid with
      | .adding groupId memberIds =>
          if (newMemberIds groupId memberIds s.db).isEmpty then s.set pid .idle
          else s.set pid (.inserting groupId (newMemberIds groupId memberIds s.db))
      | _ => s
  | .insert pid =>
      match s.calls pid with
      | .inserting groupId ids =>
          match createMembers (membersOf groupId ids) s.db with
          | .error _ => s.set pid .idle
          | .ok db => { s.set pid .idle with db }
      | _ => s
  | .remove pid userId groupId target =>
      match s.calls pid with
      | .idle =>
          match callerCheck userId groupId target s.db with
          | .error _ => s
          | .ok () => s.set pid (.removing groupId userId target)
      | _ => s
  | .target pid =>
      match s.calls pid with
      | .removing groupId userId target =>
          match targetCheck groupId target s.db with
          | .error _ => s.set pid .idle
          | .ok () => s.set pid (.deleting groupId userId target)
      | _ => s
  | .delete pid =>
      match s.calls pid with
      | .deleting groupId userId target =>
          match deleteMember groupId target s.db with
          | .error _ => s.set pid .idle
          | .ok db =>
              { s.set pid .idle with db, removed := s.removed ++ [⟨groupId, userId, target⟩] }
      | _ => s
  | .fail pid => s.set pid .idle

def start (db : Db) : State :=
  { db, calls := fun _ => .idle, created := [], granted := [], removed := [] }

/-! ## Calls that nothing interrupts -/

theorem removeCheck_eq (userId groupId targetUserId : Id) (db : Db) :
    removeCheck userId groupId targetUserId db =
      (do callerCheck userId groupId targetUserId db
          targetCheck groupId targetUserId db) := by
  unfold removeCheck callerCheck targetCheck
  cases findMember groupId userId db with
  | none => rfl
  | some member =>
      dsimp only
      split
      · rfl
      · rfl

/-- The statements of `addMembers` in a row leave what the call leaves. -/
theorem uninterrupted_add (s : State) (pid : Nat) (userId groupId : Id) (memberIds : List Id)
    (hidle : s.calls pid = .idle) :
    let t := run step s [.add pid userId groupId memberIds, .existing pid, .insert pid]
    t.calls pid = .idle ∧
      t.db = match addMembers userId groupId memberIds s.db with
        | .error _ => s.db
        | .ok (_, db) => db := by
  simp only [run_cons, run_nil]
  unfold addMembers
  cases hcheck : assertGroupAdmin userId groupId s.db with
  | error e =>
      simp only [step, hidle, hcheck]
      exact ⟨trivial, rfl⟩
  | ok _ =>
      by_cases hempty : (newMemberIds groupId memberIds s.db).isEmpty = true
      · simp only [step, hidle, hcheck, State.set, Function.update_self, if_pos hempty]
        exact ⟨trivial, rfl⟩
      · simp only [step, hidle, hcheck, State.set, Function.update_self, if_neg hempty]
        cases hcreate : createMembers (membersOf groupId (newMemberIds groupId memberIds s.db)) s.db with
        | error e =>
            exact ⟨Function.update_self .., rfl⟩
        | ok db =>
            exact ⟨Function.update_self .., rfl⟩

/-- The statements of `removeMember` in a row leave what the call leaves. -/
theorem uninterrupted_remove (s : State) (pid : Nat) (userId groupId target : Id)
    (hidle : s.calls pid = .idle) :
    let t := run step s [.remove pid userId groupId target, .target pid, .delete pid]
    t.calls pid = .idle ∧
      t.db = match removeMember userId groupId target s.db with
        | .error _ => s.db
        | .ok db => db := by
  simp only [run_cons, run_nil]
  unfold removeMember
  rw [removeCheck_eq]
  cases hcaller : callerCheck userId groupId target s.db with
  | error e =>
      simp only [step, hidle, hcaller]
      exact ⟨trivial, rfl⟩
  | ok _ =>
      cases htarget : targetCheck groupId target s.db with
      | error e =>
          simp only [step, hidle, hcaller, State.set, Function.update_self, htarget]
          exact ⟨trivial, rfl⟩
      | ok _ =>
          simp only [step, hidle, hcaller, State.set, Function.update_self, htarget]
          cases hdelete : deleteMember groupId target s.db with
          | error e =>
              exact ⟨Function.update_self .., rfl⟩
          | ok db =>
              exact ⟨Function.update_self .., rfl⟩

/-! ## What a step can do -/

def IsAdmin (s : State) (groupId userId : Id) : Prop :=
  ∃ m ∈ s.db.groupMembers, m.groupId = groupId ∧ m.userId = userId ∧ m.role = "ADMIN"

/-- The rows of a new group. -/
def foundingRows (groupId creator : Id) (members : List Id) : List GroupMember :=
  (creator :: members).eraseDups.map fun userId =>
    { groupId, userId, role := if userId = creator then "ADMIN" else "MEMBER" }

/-- Where a call can go on its own. -/
def Continues (s : State) (pid : Nat) : Call → Prop
  | .idle => True
  | .adding _ _ => False
  | .inserting groupId ids => ∃ memberIds, s.calls pid = .adding groupId memberIds ∧ ids ⊆ memberIds
  | .removing groupId userId target => userId = target ∨ IsAdmin s groupId userId
  | .deleting groupId userId target => s.calls pid = .removing groupId userId target

inductive Effect (s : State) : State → Prop where
  | none : Effect s s
  | move (pid : Nat) (c : Call) (hc : Continues s pid c) : Effect s (s.set pid c)
  | create (groupId creator : Id) (members : List Id) (db : Db)
      (hfresh : ∀ x ∈ s.db.groups, x.id ≠ groupId)
      (hgroups : db.groups.map (·.id) = s.db.groups.map (·.id) ++ [groupId])
      (hmembers : db.groupMembers = s.db.groupMembers ++ foundingRows groupId creator members) :
      Effect s { s with db, created := s.created ++ [⟨groupId, creator, members⟩] }
  | grant (pid : Nat) (groupId userId : Id) (memberIds : List Id) (hadmin : IsAdmin s groupId userId) :
      Effect s { s.set pid (.adding groupId memberIds) with
        granted := s.granted ++ [⟨groupId, userId, memberIds⟩] }
  | insert (pid : Nat) (groupId : Id) (ids : List Id) (db : Db)
      (hw : s.calls pid = .inserting groupId ids) (hgroups : db.groups = s.db.groups)
      (hmembers : db.groupMembers = s.db.groupMembers ++ membersOf groupId ids) :
      Effect s { s.set pid .idle with db }
  | delete (pid : Nat) (groupId userId target : Id) (db : Db)
      (hw : s.calls pid = .deleting groupId userId target) (hgroups : db.groups = s.db.groups)
      (hmembers : ∀ m ∈ db.groupMembers, m ∈ s.db.groupMembers) :
      Effect s { s.set pid .idle with db, removed := s.removed ++ [⟨groupId, userId, target⟩] }

theorem findMember_some {groupId userId : Id} {db : Db} {m : GroupMember}
    (h : findMember groupId userId db = some m) :
    m ∈ db.groupMembers ∧ m.groupId = groupId ∧ m.userId = userId := by
  have hkey := List.find?_some h
  simp only [Bool.and_eq_true, beq_iff_eq] at hkey
  exact ⟨List.mem_of_find?_eq_some h, hkey.1, hkey.2⟩

theorem assertGroupAdmin_ok {userId groupId : Id} {s : State}
    (h : assertGroupAdmin userId groupId s.db = .ok ()) : IsAdmin s groupId userId := by
  unfold assertGroupAdmin at h
  cases hfind : findMember groupId userId s.db with
  | none =>
      rw [hfind] at h
      cases h
  | some m =>
      rw [hfind] at h
      obtain ⟨hm, hgroup, huser⟩ := findMember_some hfind
      dsimp only at h
      split at h
      · cases h
      · rename_i hrole
        exact ⟨m, hm, hgroup, huser, not_not.mp hrole⟩

theorem callerCheck_ok {userId groupId target : Id} {s : State}
    (h : callerCheck userId groupId target s.db = .ok ()) :
    userId = target ∨ IsAdmin s groupId userId := by
  unfold callerCheck at h
  cases hfind : findMember groupId userId s.db with
  | none =>
      rw [hfind] at h
      cases h
  | some m =>
      rw [hfind] at h
      obtain ⟨hm, hgroup, huser⟩ := findMember_some hfind
      dsimp only at h
      split at h
      · cases h
      · rename_i hallowed
        by_cases hself : userId = target
        · exact Or.inl hself
        · refine Or.inr ⟨m, hm, hgroup, huser, ?_⟩
          by_contra hrole
          exact hallowed ⟨hself, hrole⟩

theorem createGroup_ok {groupId creator : Id} {dto : CreateGroupDto} {db db' : Db}
    (h : createGroup groupId creator dto db = .ok db') :
    (∀ x ∈ db.groups, x.id ≠ groupId) ∧
    db'.groups.map (·.id) = db.groups.map (·.id) ++ [groupId] ∧
    db'.groupMembers = db.groupMembers ++ foundingRows groupId creator dto.members := by
  unfold createGroup at h
  dsimp only at h
  split at h
  · cases h
  · rename_i hfresh
    obtain rfl := createMembers_ok h
    refine ⟨?_, ?_, rfl⟩
    · intro x hx he
      exact hfresh (List.any_eq_true.mpr ⟨x, hx, beq_iff_eq.mpr he⟩)
    · exact List.map_append

theorem step_effect (s : State) (a : Act) : Effect s (step s a) := by
  cases a with
  | create groupId creator dto =>
      simp only [step]
      split
      · exact .none
      · rename_i db hcreate
        obtain ⟨hfresh, hgroups, hmembers⟩ := createGroup_ok hcreate
        exact .create groupId creator dto.members db hfresh hgroups hmembers
  | add pid userId groupId memberIds =>
      simp only [step]
      split
      · split
        · exact .none
        · rename_i hcheck
          exact .grant pid groupId userId memberIds (assertGroupAdmin_ok hcheck)
      · exact .none
  | existing pid =>
      simp only [step]
      split
      · rename_i groupId memberIds hw
        split
        · exact .move pid .idle trivial
        · exact .move pid _ ⟨memberIds, hw, fun u hu => (List.mem_filter.mp hu).1⟩
      · exact .none
  | insert pid =>
      simp only [step]
      split
      · rename_i groupId ids hw
        split
        · exact .move pid .idle trivial
        · rename_i db hcreate
          obtain rfl := createMembers_ok hcreate
          exact .insert pid groupId ids _ hw rfl rfl
      · exact .none
  | remove pid userId groupId target =>
      simp only [step]
      split
      · split
        · exact .none
        · rename_i hcheck
          exact .move pid _ (callerCheck_ok hcheck)
      · exact .none
  | target pid =>
      simp only [step]
      split
      · rename_i groupId userId target hw
        split
        · exact .move pid .idle trivial
        · exact .move pid _ hw
      · exact .none
  | delete pid =>
      simp only [step]
      split
      · rename_i groupId userId target hw
        split
        · exact .move pid .idle trivial
        · rename_i db hdelete
          obtain rfl := deleteMember_ok hdelete
          exact .delete pid groupId userId target _ hw rfl fun m hm => (List.mem_filter.mp hm).1
      · exact .none
  | fail pid => exact .move pid .idle trivial

/-! ## The creator governs -/

def IsCreator (s : State) (groupId userId : Id) : Prop :=
  ∃ c ∈ s.created, c.groupId = groupId ∧ c.creator = userId

/-- A call of `addMembers` that lists the user has passed its check. -/
def Invited (s : State) (groupId userId : Id) : Prop :=
  ∃ g ∈ s.granted, g.groupId = groupId ∧ userId ∈ g.memberIds

/-- The row is that of the creator, of a user the group was created with, or of one a granted
call lists. -/
def Justified (s : State) (m : GroupMember) : Prop :=
  ∃ c ∈ s.created, c.groupId = m.groupId ∧
    ((m.role = "ADMIN" ∧ m.userId = c.creator) ∨
      (m.role = "MEMBER" ∧ (m.userId ∈ c.members ∨ Invited s m.groupId m.userId)))

/-- What a call may still do has been granted by the creator, or is a departure. -/
def Entitled (s : State) : Call → Prop
  | .idle => True
  | .adding groupId ids => ∀ u ∈ ids, Invited s groupId u
  | .inserting groupId ids => ∀ u ∈ ids, Invited s groupId u
  | .removing groupId userId target => userId = target ∨ IsCreator s groupId userId
  | .deleting groupId userId target => userId = target ∨ IsCreator s groupId userId

structure Governed (s : State) : Prop where
  stored : ∀ c ∈ s.created, ∃ x ∈ s.db.groups, x.id = c.groupId
  once : (s.created.map (·.groupId)).Nodup
  rows : ∀ m ∈ s.db.groupMembers, Justified s m
  granted : ∀ g ∈ s.granted, IsCreator s g.groupId g.userId
  removed : ∀ r ∈ s.removed, r.userId = r.target ∨ IsCreator s r.groupId r.userId
  calls : ∀ pid, Entitled s (s.calls pid)

/-- The logs only grow. -/
structure Grows (s t : State) : Prop where
  created : ∀ c ∈ s.created, c ∈ t.created
  granted : ∀ g ∈ s.granted, g ∈ t.granted

theorem Grows.isCreator {s t : State} (h : Grows s t) {groupId userId : Id}
    (hc : IsCreator s groupId userId) : IsCreator t groupId userId := by
  obtain ⟨c, hc, hkey⟩ := hc
  exact ⟨c, h.created c hc, hkey⟩

theorem Grows.invited {s t : State} (h : Grows s t) {groupId userId : Id}
    (hi : Invited s groupId userId) : Invited t groupId userId := by
  obtain ⟨g, hg, hkey⟩ := hi
  exact ⟨g, h.granted g hg, hkey⟩

theorem Grows.justified {s t : State} (h : Grows s t) {m : GroupMember} (hj : Justified s m) :
    Justified t m := by
  obtain ⟨c, hc, hgroup, hrole⟩ := hj
  refine ⟨c, h.created c hc, hgroup, ?_⟩
  rcases hrole with hadmin | ⟨hmember, hwhy⟩
  · exact Or.inl hadmin
  · exact Or.inr ⟨hmember, hwhy.imp_right h.invited⟩

theorem Grows.entitled {s t : State} (h : Grows s t) {c : Call} (he : Entitled s c) :
    Entitled t c := by
  cases c with
  | idle => trivial
  | adding groupId ids => exact fun u hu => h.invited (he u hu)
  | inserting groupId ids => exact fun u hu => h.invited (he u hu)
  | removing groupId userId target => exact he.imp_right h.isCreator
  | deleting groupId userId target => exact he.imp_right h.isCreator

/-- An admin is the creator: no other row has the role. -/
theorem Governed.isCreator {s : State} (h : Governed s) {groupId userId : Id}
    (ha : IsAdmin s groupId userId) : IsCreator s groupId userId := by
  obtain ⟨m, hm, rfl, rfl, hrole⟩ := ha
  obtain ⟨c, hc, hgroup, hwhy⟩ := h.rows m hm
  rcases hwhy with ⟨_, huser⟩ | ⟨hmember, _⟩
  · exact ⟨c, hc, hgroup, huser.symm⟩
  · rw [hrole] at hmember
    exact absurd hmember (by decide)

/-- The calls stay entitled when one of them moves to an entitled place. -/
theorem Governed.update {s t : State} (h : Governed s) (hgrows : Grows s t) {pid : Nat} {c : Call}
    (hcalls : t.calls = Function.update s.calls pid c) (hc : Entitled t c) :
    ∀ p, Entitled t (t.calls p) := by
  intro p
  rw [hcalls]
  by_cases hp : p = pid
  · subst hp
    rw [Function.update_self]
    exact hc
  · rw [Function.update_of_ne hp]
    exact hgrows.entitled (h.calls p)

theorem founding_justified {s : State} {groupId creator : Id} {members : List Id}
    (hc : ⟨groupId, creator, members⟩ ∈ s.created) {m : GroupMember}
    (hm : m ∈ foundingRows groupId creator members) : Justified s m := by
  obtain ⟨u, hu, rfl⟩ := List.mem_map.mp hm
  refine ⟨_, hc, rfl, ?_⟩
  by_cases hcreator : u = creator
  · exact Or.inl ⟨if_pos hcreator, hcreator⟩
  · refine Or.inr ⟨if_neg hcreator, Or.inl ?_⟩
    have hmem := List.mem_eraseDups.mp hu
    exact (List.mem_cons.mp hmem).resolve_left hcreator

theorem Effect.governed {s t : State} (heff : Effect s t) (h : Governed s) : Governed t := by
  cases heff with
  | none => exact h
  | move pid c hc =>
      have hgrows : Grows s (s.set pid c) := ⟨fun _ hc => hc, fun _ hg => hg⟩
      refine ⟨h.stored, h.once, h.rows, h.granted, h.removed, h.update hgrows rfl ?_⟩
      cases c with
      | idle => trivial
      | adding groupId ids => exact hc.elim
      | inserting groupId ids =>
          obtain ⟨memberIds, hw, hsub⟩ := hc
          have hentitled := h.calls pid
          rw [hw] at hentitled
          exact fun u hu => hentitled u (hsub hu)
      | removing groupId userId target => exact hc.imp_right h.isCreator
      | deleting groupId userId target =>
          have hentitled := h.calls pid
          rw [show s.calls pid = .removing groupId userId target from hc] at hentitled
          exact hentitled
  | create groupId creator members db hfresh hgroups hmembers =>
      have hgrows : Grows s { s with db, created := s.created ++ [⟨groupId, creator, members⟩] } :=
        ⟨fun _ hc => List.mem_append_left _ hc, fun _ hg => hg⟩
      have hids : ∀ id, id ∈ s.db.groups.map (·.id) ∨ id = groupId → ∃ x ∈ db.groups, x.id = id := by
        intro id hid
        have hmem : id ∈ db.groups.map (·.id) := by
          rw [hgroups]
          simpa using hid
        exact List.mem_map.mp hmem
      refine ⟨?_, ?_, ?_, fun g hg => hgrows.isCreator (h.granted g hg),
        fun r hr => (h.removed r hr).imp_right hgrows.isCreator,
        fun p => hgrows.entitled (h.calls p)⟩
      · intro c hc
        rcases List.mem_append.mp hc with hc | hc
        · obtain ⟨x, hx, hid⟩ := h.stored c hc
          exact hids _ (Or.inl (List.mem_map.mpr ⟨x, hx, hid⟩))
        · obtain rfl := List.mem_singleton.mp hc
          exact hids _ (Or.inr rfl)
      · refine Rows.unique_append (k := Creation.groupId) h.once ?_
        intro c hc he
        obtain ⟨x, hx, hid⟩ := h.stored c hc
        exact hfresh x hx (hid.trans he)
      · intro m hm
        rw [show ({ s with db := db, created := s.created ++ [⟨groupId, creator, members⟩] } :
          State).db.groupMembers = _ from hmembers] at hm
        rcases List.mem_append.mp hm with hm | hm
        · exact hgrows.justified (h.rows m hm)
        · exact founding_justified (List.mem_append_right _ (List.mem_singleton.mpr rfl)) hm
  | grant pid groupId userId memberIds hadmin =>
      have hgrows : Grows s { s.set pid (.adding groupId memberIds) with
          granted := s.granted ++ [⟨groupId, userId, memberIds⟩] } :=
        ⟨fun _ hc => hc, fun _ hg => List.mem_append_left _ hg⟩
      refine ⟨h.stored, h.once, fun m hm => hgrows.justified (h.rows m hm), ?_,
        fun r hr => (h.removed r hr).imp_right hgrows.isCreator, h.update hgrows rfl ?_⟩
      · intro g hg
        rcases List.mem_append.mp hg with hg | hg
        · exact hgrows.isCreator (h.granted g hg)
        · obtain rfl := List.mem_singleton.mp hg
          exact hgrows.isCreator (h.isCreator hadmin)
      · intro u hu
        exact ⟨_, List.mem_append_right _ (List.mem_singleton.mpr rfl), rfl, hu⟩
  | insert pid groupId ids db hw hgroups hmembers =>
      have hgrows : Grows s { s.set pid .idle with db } := ⟨fun _ hc => hc, fun _ hg => hg⟩
      refine ⟨?_, h.once, ?_, h.granted, h.removed, h.update hgrows rfl trivial⟩
      · intro c hc
        obtain ⟨x, hx, hid⟩ := h.stored c hc
        exact ⟨x, hgroups ▸ hx, hid⟩
      · intro m hm
        rw [show ({ s.set pid .idle with db := db } : State).db.groupMembers = _ from hmembers] at hm
        rcases List.mem_append.mp hm with hm | hm
        · exact hgrows.justified (h.rows m hm)
        · obtain ⟨u, hu, rfl⟩ := List.mem_map.mp hm
          have hentitled := h.calls pid
          rw [hw] at hentitled
          obtain ⟨g, hg, hgroup, hlisted⟩ := hentitled u hu
          obtain ⟨c, hc, hcgroup, _⟩ := h.granted g hg
          exact ⟨c, hc, hcgroup.trans hgroup, Or.inr ⟨rfl, Or.inr ⟨g, hg, hgroup, hlisted⟩⟩⟩
  | delete pid groupId userId target db hw hgroups hmembers =>
      have hgrows : Grows s { s.set pid .idle with
          db, removed := s.removed ++ [⟨groupId, userId, target⟩] } :=
        ⟨fun _ hc => hc, fun _ hg => hg⟩
      refine ⟨?_, h.once, fun m hm => hgrows.justified (h.rows m (hmembers m hm)), h.granted, ?_,
        h.update hgrows rfl trivial⟩
      · intro c hc
        obtain ⟨x, hx, hid⟩ := h.stored c hc
        exact ⟨x, hgroups ▸ hx, hid⟩
      · intro r hr
        rcases List.mem_append.mp hr with hr | hr
        · exact h.removed r hr
        · obtain rfl := List.mem_singleton.mp hr
          have hentitled := h.calls pid
          rw [hw] at hentitled
          exact hentitled

/-- Members, grants and removals of a state go back to creators. -/
structure CreatorsRule (s : State) : Prop where
  rows : ∀ m ∈ s.db.groupMembers, Justified s m
  oneAdmin : ∀ m ∈ s.db.groupMembers, ∀ m' ∈ s.db.groupMembers, m.role = "ADMIN" →
    m'.role = "ADMIN" → m.groupId = m'.groupId → m.userId = m'.userId
  granted : ∀ g ∈ s.granted, IsCreator s g.groupId g.userId
  removed : ∀ r ∈ s.removed, r.userId = r.target ∨ IsCreator s r.groupId r.userId

theorem run_governed (db : Db) (hnone : db.groupMembers = []) (acts : List Act) :
    Governed (run step (start db) acts) := by
  refine run_invariant (fun s a hs => (step_effect s a).governed hs) acts _ ?_
  refine ⟨?_, List.nodup_nil, ?_, ?_, ?_, fun _ => trivial⟩
  · intro c hc
    cases hc
  · intro m hm
    rw [show (start db).db.groupMembers = [] from hnone] at hm
    cases hm
  · intro g hg
    cases hg
  · intro r hr
    cases hr

/-- A group has one creator. -/
theorem Governed.creator_unique {s : State} (h : Governed s) {groupId userId userId' : Id}
    (hu : IsCreator s groupId userId) (hu' : IsCreator s groupId userId') : userId = userId' := by
  obtain ⟨c, hc, hcg, hcu⟩ := hu
  obtain ⟨c', hc', hcg', hcu'⟩ := hu'
  have hsame : c = c' := Rows.Unique.eq (k := Creation.groupId) h.once hc hc' (hcg.trans hcg'.symm)
  rw [← hcu, ← hcu', hsame]

/-- In every run that begins without members, whatever the interleaving of the statements, only
the creator of a group is ever its admin, every other member was in the request that created it
or in a request of the creator, and a row is deleted by its own user or by the creator. -/
theorem creators_rule (db : Db) (hnone : db.groupMembers = []) (acts : List Act) :
    Always step CreatorsRule (start db) acts := by
  intro pre _
  have h := run_governed db hnone pre
  refine ⟨h.rows, ?_, h.granted, h.removed⟩
  intro m hm m' hm' hrole hrole' hgroup
  exact h.creator_unique (h.isCreator ⟨m, hm, hgroup, rfl, hrole⟩) (h.isCreator ⟨m', hm', rfl, rfl, hrole'⟩)

def sampleStore : Db :=
  { users := ["alice", "bob", "carol"].map fun id => { id, phoneHash := id } }

/-- Alice founds a group with Bob, asks for Carol and leaves before Carol's row is written. -/
def departure : List Act :=
  [.create "g" "alice" { encryptedMetadata := "m", members := ["bob"] },
   .add 0 "alice" "g" ["carol"], .existing 0,
   .remove 1 "alice" "g" "alice", .target 1, .delete 1]

theorem departure_ruled : Always step CreatorsRule (start sampleStore) departure :=
  creators_rule sampleStore rfl departure

/-! ## After the creator has left -/

/-- A call in flight past its check is about to add the user to the group. -/
def Pending (s : State) (groupId userId : Id) : Prop :=
  ∃ pid ids, (s.calls pid = .adding groupId ids ∨ s.calls pid = .inserting groupId ids) ∧ userId ∈ ids

/-- The group exists and has no admin. -/
def Leaderless (s : State) (groupId : Id) : Prop :=
  (∃ x ∈ s.db.groups, x.id = groupId) ∧ ∀ userId, ¬ IsAdmin s groupId userId

/-- The group of `s` is closed: it stays without an admin, its members in `t` are members of `s` or
were pending then, and so are the users that calls in flight may still add. -/
structure Closed (s : State) (groupId : Id) (t : State) : Prop where
  leaderless : Leaderless t groupId
  rows : ∀ m ∈ t.db.groupMembers, m.groupId = groupId →
    m ∈ s.db.groupMembers ∨ Pending s groupId m.userId
  pending : ∀ userId, Pending t groupId userId → Pending s groupId userId

theorem Pending.of_update {s t : State} {groupId userId : Id} {pid : Nat} {c : Call}
    (hcalls : t.calls = Function.update s.calls pid c)
    (hc : ∀ ids, c = .adding groupId ids ∨ c = .inserting groupId ids → userId ∈ ids →
      Pending s groupId userId)
    (h : Pending t groupId userId) : Pending s groupId userId := by
  obtain ⟨p, ids, hp, hu⟩ := h
  rw [hcalls] at hp
  by_cases hpid : p = pid
  · subst hpid
    rw [Function.update_self] at hp
    exact hc ids hp hu
  · rw [Function.update_of_ne hpid] at hp
    exact ⟨p, ids, hp, hu⟩

theorem pending_idle {s : State} {groupId userId : Id} (ids : List Id)
    (h : Call.idle = .adding groupId ids ∨ Call.idle = .inserting groupId ids) (_ : userId ∈ ids) :
    Pending s groupId userId := by
  rcases h with h | h <;> cases h

theorem Effect.closed {s t t' : State} {groupId : Id} (heff : Effect t t') (h : Closed s groupId t) :
    Closed s groupId t' := by
  obtain ⟨⟨hgroup, hadmin⟩, hrows, hpending⟩ := h
  cases heff with
  | none => exact ⟨⟨hgroup, hadmin⟩, hrows, hpending⟩
  | move pid c hc =>
      refine ⟨⟨hgroup, hadmin⟩, hrows, ?_⟩
      intro userId hu
      refine hpending userId (hu.of_update rfl ?_)
      intro ids hplace hlisted
      rcases hplace with rfl | rfl
      · exact hc.elim
      · obtain ⟨memberIds, hw, hsub⟩ := hc
        exact ⟨pid, memberIds, Or.inl hw, hsub hlisted⟩
  | create g creator members db hfresh hgroups hmembers =>
      obtain ⟨x, hx, hid⟩ := hgroup
      -- the new group is another one
      have hother : ∀ m ∈ db.groupMembers, m.groupId = groupId → m ∈ t.db.groupMembers := by
        intro m hm hmg
        rw [hmembers] at hm
        rcases List.mem_append.mp hm with hm | hm
        · exact hm
        · obtain ⟨u, _, rfl⟩ := List.mem_map.mp hm
          exact absurd (hid.trans hmg.symm) (hfresh x hx)
      refine ⟨⟨?_, ?_⟩, fun m hm hmg => hrows m (hother m hm hmg) hmg, hpending⟩
      · have hmem : groupId ∈ db.groups.map (·.id) := by
          rw [hgroups]
          exact List.mem_append_left _ (List.mem_map.mpr ⟨x, hx, hid⟩)
        exact List.mem_map.mp hmem
      · intro userId ha
        obtain ⟨m, hm, hmg, hkey⟩ := ha
        exact hadmin userId ⟨m, hother m hm hmg, hmg, hkey⟩
  | grant pid g userId memberIds ha =>
      refine ⟨⟨hgroup, hadmin⟩, hrows, ?_⟩
      intro u hu
      refine hpending u (hu.of_update rfl ?_)
      intro ids hplace _
      rcases hplace with hplace | hplace
      · obtain ⟨rfl, _⟩ := Call.adding.inj hplace
        exact absurd ha (hadmin userId)
      · cases hplace
  | insert pid g ids db hw hgroups hmembers =>
      refine ⟨⟨?_, ?_⟩, ?_, ?_⟩
      · obtain ⟨x, hx, hid⟩ := hgroup
        exact ⟨x, hgroups ▸ hx, hid⟩
      · intro userId ha
        obtain ⟨m, hm, hmg, hmu, hrole⟩ := ha
        rw [show ({ t.set pid .idle with db := db } : State).db.groupMembers = _ from hmembers] at hm
        rcases List.mem_append.mp hm with hm | hm
        · exact hadmin userId ⟨m, hm, hmg, hmu, hrole⟩
        · obtain ⟨u, _, rfl⟩ := List.mem_map.mp hm
          exact absurd (show "MEMBER" = "ADMIN" from hrole) (by decide)
      · intro m hm hmg
        rw [show ({ t.set pid .idle with db := db } : State).db.groupMembers = _ from hmembers] at hm
        rcases List.mem_append.mp hm with hm | hm
        · exact hrows m hm hmg
        · obtain ⟨u, hu, rfl⟩ := List.mem_map.mp hm
          obtain rfl : g = groupId := hmg
          exact Or.inr (hpending u ⟨pid, ids, Or.inr hw, hu⟩)
      · intro userId hu
        exact hpending userId (hu.of_update rfl pending_idle)
  | delete pid g userId target db hw hgroups hmembers =>
      refine ⟨⟨?_, ?_⟩, fun m hm hmg => hrows m (hmembers m hm) hmg, ?_⟩
      · obtain ⟨x, hx, hid⟩ := hgroup
        exact ⟨x, hgroups ▸ hx, hid⟩
      · intro u ha
        obtain ⟨m, hm, hkey⟩ := ha
        exact hadmin u ⟨m, hmembers m hm, hkey⟩
      · intro u hu
        exact hpending u (hu.of_update rfl pending_idle)

theorem run_closed {s : State} {groupId : Id} (h : Leaderless s groupId) (acts : List Act) :
    Closed s groupId (run step s acts) := by
  refine run_invariant (fun t a ht => (step_effect t a).closed ht) acts s ?_
  exact ⟨h, fun m hm _ => Or.inl hm, fun _ hu => hu⟩

/-- Once a group is without an admin it stays so: whatever the rest of the run, its members are
those it has now, or users listed by calls of `addMembers` that have passed their check by now. -/
theorem leaderless_closed (s : State) (groupId : Id) (h : Leaderless s groupId) (acts : List Act) :
    Leaderless (run step s acts) groupId ∧
    ∀ m ∈ (run step s acts).db.groupMembers, m.groupId = groupId →
      m ∈ s.db.groupMembers ∨ Pending s groupId m.userId := by
  have hclosed := run_closed h acts
  exact ⟨hclosed.leaderless, hclosed.rows⟩

/-- Carol still joins, by the call that was checked before. -/
theorem carol_joins :
    (run step (run step (start sampleStore) departure) [.insert 0]).db.groupMembers.map (·.userId) =
      ["bob", "carol"] ∧
    Leaderless (run step (run step (start sampleStore) departure) [.insert 0]) "g" := by
  refine ⟨by decide, (leaderless_closed (run step (start sampleStore) departure) "g" ?_ [.insert 0]).1⟩
  refine ⟨by decide, ?_⟩
  intro userId ha
  obtain ⟨m, hm, _, _, hrole⟩ := ha
  have hroles : ∀ m ∈ (run step (start sampleStore) departure).db.groupMembers, m.role ≠ "ADMIN" := by
    decide
  exact hroles m hm hrole

/-! ## The departure of the creator -/

/-- A group whose creator has no row has no admin. -/
theorem Governed.leaderless {s : State} (h : Governed s) {groupId creator : Id}
    (hcreator : IsCreator s groupId creator)
    (hgone : ∀ m ∈ s.db.groupMembers, m.groupId = groupId → m.userId ≠ creator) :
    Leaderless s groupId := by
  constructor
  · obtain ⟨c, hc, hgroup, _⟩ := hcreator
    obtain ⟨x, hx, hid⟩ := h.stored c hc
    exact ⟨x, hx, hid.trans hgroup⟩
  · intro userId ha
    have huser := h.creator_unique (h.isCreator ha) hcreator
    obtain ⟨m, hm, hgroup, hmu, _⟩ := ha
    exact hgone m hm hgroup (hmu.trans huser)

/-- After the `delete` of a call the target has no row, whether there was one or not. -/
theorem delete_gone {s : State} {pid : Nat} {groupId userId target : Id}
    (hcall : s.calls pid = .deleting groupId userId target) :
    ∀ m ∈ (step s (.delete pid)).db.groupMembers, m.groupId = groupId → m.userId ≠ target := by
  intro m hm hgroup huser
  simp only [step, hcall] at hm
  cases hdelete : deleteMember groupId target s.db with
  | error e =>
      rw [hdelete] at hm
      unfold deleteMember at hdelete
      split at hdelete
      · cases hdelete
      · rename_i hmember
        exact hmember (isMember_iff.mpr ⟨m, hm, hgroup, huser⟩)
  | ok db =>
      rw [hdelete] at hm
      obtain rfl := deleteMember_ok hdelete
      have hkept := (List.mem_filter.mp hm).2
      simp [hgroup, huser] at hkept

/-- In every run that begins without members: when the row of the creator is deleted, by whatever
call, the group is without an admin for the rest of the run, and closed. -/
theorem creator_departs (db : Db) (hnone : db.groupMembers = []) (before acts : List Act) (pid : Nat)
    (groupId userId creator : Id) (hcreator : IsCreator (run step (start db) before) groupId creator)
    (hcall : (run step (start db) before).calls pid = .deleting groupId userId creator) :
    Closed (run step (start db) (before ++ [.delete pid])) groupId
      (run step (start db) (before ++ .delete pid :: acts)) := by
  have hgoverned := run_governed db hnone (before ++ [.delete pid])
  rw [run_append, run_cons, run_nil] at hgoverned ⊢
  rw [run_append, run_cons]
  refine run_closed (hgoverned.leaderless ?_ (delete_gone hcall)) acts
  obtain ⟨c, hc, hkey⟩ := hcreator
  refine ⟨c, ?_, hkey⟩
  simp only [step, hcall]
  split <;> exact hc

/-- Alice has left her group. -/
example : Leaderless (run step (start sampleStore) departure) "g" := by
  have hclosed := creator_departs sampleStore rfl (departure.take 5) [] 1 "g" "alice" "alice"
    ⟨⟨"g", "alice", ["bob"]⟩, List.mem_cons_self, rfl, rfl⟩ rfl
  exact hclosed.leaderless

end Birgap.Groups.Governance
