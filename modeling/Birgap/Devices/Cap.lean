import Birgap.Auth.Service
import Birgap.Devices.Service
import Birgap.Lib.Run

/-!
# The limit on active devices

Creating a device looks at the limit; registering a deactivated device again does not.
Along a run of registrations, deactivations and logouts every user stays within the limit
exactly when no device is switched on again for a user who has no room left.
-/
namespace Birgap.Devices

set_option autoImplicit false

open Birgap.Common Birgap.Lib Birgap.Lib.Run Birgap.Auth

inductive Op where
  | register (now : Time) (newId userId : Id) (dto : RegisterDeviceDto)
  | deactivate (userId deviceId : Id)
  | logout (now : Time) (user : AuthenticatedUser) (refreshToken : Option String)
      (deviceId : Option Id)

def step (env : AuthEnv) (configuredMax : Option Int) (db : Db) : Op → Db
  | .register now newId userId dto => (register configuredMax now newId userId dto db).2
  | .deactivate userId deviceId => (deactivate userId deviceId db).2
  | .logout now user refreshToken deviceId => logout env now user refreshToken deviceId db

def WithinCap (configuredMax : Option Int) (db : Db) : Prop :=
  ∀ userId, activeCount userId db ≤ maxActiveDevices configuredMax

/-- A deactivated device is registered again only while its owner is below the limit. -/
def ReactivatesWithRoom (configuredMax : Option Int) (db : Db) : Op → Prop
  | .register _ _ userId dto =>
      ∀ d ∈ db.devices, truthy dto.deviceId = some d.id → d.userId = userId → d.active = false →
        activeCount userId db < maxActiveDevices configuredMax
  | _ => True

abbrev DeviceKeys (db : Db) : Prop := Rows.Unique (·.id) db.devices

/-- A logout leaves the device table alone or switches one device off. -/
theorem logout_devices (env : AuthEnv) (now : Time) (user : AuthenticatedUser)
    (refreshToken : Option String) (deviceId : Option Id) (db : Db) :
    (logout env now user refreshToken deviceId db).devices = db.devices ∨
    ∃ id, (logout env now user refreshToken deviceId db).devices =
      Rows.updateMany (fun d => d.id == id && d.userId == user.userId) switchOff db.devices := by
  unfold logout
  dsimp only
  cases Common.truthy deviceId with
  | none =>
      left
      cases Common.truthy refreshToken <;> rfl
  | some id =>
      right
      refine ⟨id, ?_⟩
      cases Common.truthy refreshToken <;> rfl

theorem step_keys (env : AuthEnv) (configuredMax : Option Int) (db : Db) (op : Op)
    (hk : DeviceKeys db) : DeviceKeys (step env configuredMax db op) := by
  cases op with
  | register now newId userId dto =>
      simp only [step]
      rcases register_cases configuredMax now newId userId dto db hk with
        ⟨_, h⟩ | ⟨d, _, _, _, h⟩ | ⟨_, id, hfree, _, h⟩
      · rw [h]
        exact hk
      · rw [h]
        exact Rows.unique_updateMany (f := reregister now dto) (fun _ => rfl) hk
      · rw [h]
        exact Rows.unique_append hk hfree
  | deactivate userId deviceId =>
      simp only [step]
      rcases deactivate_cases userId deviceId db with h | h
      · rw [h]
        exact hk
      · rw [h]
        exact Rows.unique_updateMany (f := switchOff) (fun _ => rfl) hk
  | logout now user refreshToken deviceId =>
      simp only [step, DeviceKeys]
      rcases logout_devices env now user refreshToken deviceId db with h | ⟨id, h⟩
      · rw [h]
        exact hk
      · rw [h]
        exact Rows.unique_updateMany (f := switchOff) (fun _ => rfl) hk

/-- An operation on devices writes the devices and, when it is a logout, the sessions. -/
theorem step_frame (env : AuthEnv) (configuredMax : Option Int) (db : Db) (op : Op) :
    ∃ devices refreshTokens, step env configuredMax db op =
      { db with devices := devices, refreshTokens := refreshTokens } := by
  cases op with
  | register now newId userId dto =>
      simp only [step]
      obtain ⟨devices, h⟩ := register_frame configuredMax now newId userId dto db
      exact ⟨devices, db.refreshTokens, h⟩
  | deactivate userId deviceId =>
      simp only [step]
      rcases deactivate_cases userId deviceId db with h | h
      · exact ⟨db.devices, db.refreshTokens, h⟩
      · exact ⟨_, db.refreshTokens, h⟩
  | logout now user refreshToken deviceId =>
      simp only [step, logout, revokeWhere]
      cases Common.truthy refreshToken with
      | none => cases Common.truthy deviceId <;> exact ⟨_, _, rfl⟩
      | some token => cases Common.truthy deviceId <;> exact ⟨_, _, rfl⟩

/-- No operation removes a device or changes its owner. -/
theorem step_owners (env : AuthEnv) (configuredMax : Option Int) (db : Db) (op : Op)
    (hk : DeviceKeys db) {d : Device} (hd : d ∈ db.devices) :
    ∃ d' ∈ (step env configuredMax db op).devices, d'.id = d.id ∧ d'.userId = d.userId := by
  have hkept : ∀ {q : Device → Bool} {f : Device → Device},
      (∀ x, ((f x).id, (f x).userId) = (x.id, x.userId)) →
      ∃ d' ∈ Rows.updateMany q f db.devices, d'.id = d.id ∧ d'.userId = d.userId := by
    intro q f hf
    obtain ⟨d', hd', he⟩ := Rows.updateMany_kept (p := q) (f := f)
      (k := fun x => (x.id, x.userId)) hf hd
    exact ⟨d', hd', Prod.mk.inj he⟩
  cases op with
  | register now newId userId dto =>
      simp only [step]
      rcases register_cases configuredMax now newId userId dto db hk with
        ⟨_, h⟩ | ⟨x, _, _, _, h⟩ | ⟨_, id, _, _, h⟩
      · rw [h]
        exact ⟨d, hd, rfl, rfl⟩
      · rw [h]
        exact hkept (f := reregister now dto) (fun _ => rfl)
      · rw [h]
        exact ⟨d, List.mem_append_left _ hd, rfl, rfl⟩
  | deactivate userId deviceId =>
      simp only [step]
      rcases deactivate_cases userId deviceId db with h | h
      · rw [h]
        exact ⟨d, hd, rfl, rfl⟩
      · rw [h]
        exact hkept (f := switchOff) (fun _ => rfl)
  | logout now user refreshToken deviceId =>
      simp only [step]
      rcases logout_devices env now user refreshToken deviceId db with h | ⟨id, h⟩
      · rw [h]
        exact ⟨d, hd, rfl, rfl⟩
      · rw [h]
        exact hkept (f := switchOff) (fun _ => rfl)

/-- Registering a device again adds one to the count of its owner if it was off. -/
theorem activeCount_reregister {db : Db} {d : Device} (hk : DeviceKeys db) (hd : d ∈ db.devices)
    (now : Time) (dto : RegisterDeviceDto) (userId : Id) :
    activeCount userId { db with
        devices := Rows.updateMany (·.id == d.id) (reregister now dto) db.devices } =
      activeCount userId db + if d.userId = userId ∧ d.active = false then 1 else 0 := by
  obtain ⟨pre, post, hrows, hup⟩ := hk.updateMany_split hd
  unfold activeCount
  dsimp only
  rw [hup, hrows, List.countP_append, List.countP_append, List.countP_cons, List.countP_cons]
  by_cases hown : d.userId = userId
  · cases hactive : d.active with
    | true => simp [reregister, hown]
    | false =>
        simp only [reregister, hown, beq_self_eq_true, Bool.and_self, Bool.and_false, ↓reduceIte,
          Bool.false_eq_true, and_self]
        omega
  · simp [reregister, hown]

/-- Switching devices off never adds to a count. -/
theorem activeCount_switchOff {db db' : Db} {q : Device → Bool}
    (h : db'.devices = Rows.updateMany q switchOff db.devices) (userId : Id) :
    activeCount userId db' ≤ activeCount userId db := by
  unfold activeCount
  rw [h]
  apply Rows.countP_updateMany_le
  intro d hp
  simp [switchOff] at hp

/-- Registering an own device again stays within the limit exactly when the device is on, or
its owner has room for one more. -/
theorem withinCap_reregister_iff {configuredMax : Option Int} {db : Db} {d : Device}
    (hk : DeviceKeys db) (hw : WithinCap configuredMax db) (hd : d ∈ db.devices) (now : Time)
    (dto : RegisterDeviceDto) :
    WithinCap configuredMax { db with
        devices := Rows.updateMany (·.id == d.id) (reregister now dto) db.devices } ↔
      (d.active = false → activeCount d.userId db < maxActiveDevices configuredMax) := by
  constructor
  · intro hcap hoff
    have hone := hcap d.userId
    rw [activeCount_reregister hk hd, if_pos ⟨rfl, hoff⟩] at hone
    exact hone
  · intro hroom u
    rw [activeCount_reregister hk hd]
    by_cases hoff : d.userId = u ∧ d.active = false
    · obtain ⟨rfl, hoff'⟩ := hoff
      rw [if_pos ⟨rfl, hoff'⟩]
      exact hroom hoff'
    · rw [if_neg hoff]
      exact hw u

theorem withinCap_newDevice {configuredMax : Option Int} {db : Db} {userId : Id}
    (hw : WithinCap configuredMax db)
    (hroom : activeCount userId db < maxActiveDevices configuredMax) (now : Time) (id : Id)
    (dto : RegisterDeviceDto) :
    WithinCap configuredMax { db with devices := db.devices ++ [newDevice now id userId dto] } := by
  intro u
  have hcount : activeCount u { db with
        devices := db.devices ++ [newDevice now id userId dto] } =
      activeCount u db + if userId = u then 1 else 0 := by
    unfold activeCount
    simp [newDevice, List.countP_append, List.countP_singleton]
  rw [hcount]
  by_cases hu : userId = u
  · subst hu
    rw [if_pos rfl]
    exact hroom
  · rw [if_neg hu]
    exact hw u

theorem step_withinCap_iff (env : AuthEnv) (configuredMax : Option Int) (db : Db) (op : Op)
    (hk : DeviceKeys db) (hw : WithinCap configuredMax db) :
    WithinCap configuredMax (step env configuredMax db op) ↔
      ReactivatesWithRoom configuredMax db op := by
  have hless : ∀ db', (∀ userId, activeCount userId db' ≤ activeCount userId db) →
      WithinCap configuredMax db' := fun db' h userId => (h userId).trans (hw userId)
  cases op with
  | register now newId userId dto =>
      simp only [step, ReactivatesWithRoom]
      rcases register_cases configuredMax now newId userId dto db hk with
        ⟨hno, h⟩ | ⟨d, hd, hid, rfl, h⟩ | ⟨hno, id, _, hroom, h⟩
      · rw [h]
        exact iff_of_true hw fun d hd hid hown => absurd hown (hno d hd hid)
      · -- The one branch that switches a device on without counting.
        rw [h, withinCap_reregister_iff hk hw hd]
        constructor
        · intro hroom d' hd' hid' _ hoff
          obtain rfl : d' = d := hk.eq hd' hd (Option.some.inj (hid'.symm.trans hid))
          exact hroom hoff
        · intro hroom hoff
          exact hroom d hd hid rfl hoff
      · rw [h]
        exact iff_of_true (withinCap_newDevice hw hroom now id dto)
          fun d hd hid => absurd hid (hno d hd)
  | deactivate userId deviceId =>
      refine iff_of_true ?_ trivial
      simp only [step]
      rcases deactivate_cases userId deviceId db with h | h
      · rw [h]
        exact hw
      · rw [h]
        exact hless _ (activeCount_switchOff rfl)
  | logout now user refreshToken deviceId =>
      refine iff_of_true ?_ trivial
      simp only [step]
      rcases logout_devices env now user refreshToken deviceId db with h | ⟨id, h⟩
      · intro userId
        unfold activeCount
        rw [h]
        exact hw userId
      · exact hless _ (activeCount_switchOff h)

/-- In every run of registrations, deactivations and logouts that starts within the limit,
every user stays within it exactly when no deactivated device comes back without room. -/
theorem device_cap_iff (env : AuthEnv) (configuredMax : Option Int) (db : Db) (ops : List Op)
    (hk : DeviceKeys db) (hw : WithinCap configuredMax db) :
    Always (step env configuredMax) (WithinCap configuredMax) db ops ↔
      Along (step env configuredMax) (ReactivatesWithRoom configuredMax) db ops :=
  always_iff_along (fun db op hk => step_keys env configuredMax db op hk)
    (fun db op hk hw => step_withinCap_iff env configuredMax db op hk hw) ops db hk hw

def sampleEnv : AuthEnv :=
  { sha256 := fun s => "sha256:" ++ s, hmacSha256 := fun s k => "hmac:" ++ k ++ ":" ++ s }

def sampleDto (deviceId : Id) : RegisterDeviceDto :=
  { deviceId := some deviceId, platform := .ios, identityPublicKey := "identity-public-key-" ++ deviceId }

def sampleRegister (now : Time) (deviceId : Id) : Op :=
  .register now "unused" "alice" (sampleDto deviceId)

/-- Three devices, one of them switched off and replaced, then registered again. -/
def fourDevices : List Op :=
  [sampleRegister 0 "d1", sampleRegister 1 "d2", sampleRegister 2 "d3", .deactivate "alice" "d1",
   sampleRegister 3 "d4", sampleRegister 4 "d1"]

/-- With the default limit of three, four devices are active at the end. -/
theorem reactivation_exceeds_cap :
    ¬ ∀ (env : AuthEnv) (configuredMax : Option Int) (db : Db) (ops : List Op), DeviceKeys db →
      WithinCap configuredMax db →
      Always (step env configuredMax) (WithinCap configuredMax) db ops := by
  intro h
  have hrun := h sampleEnv none {} fourDevices List.nodup_nil (fun _ => Nat.zero_le _)
  have hlast := hrun fourDevices (List.prefix_refl _) "alice"
  revert hlast
  decide

/-- Registering an active device again is within the limit. -/
theorem reregistration_within_cap :
    Always (step sampleEnv none) (WithinCap none) {} [sampleRegister 0 "d1", sampleRegister 1 "d1"] := by
  apply (device_cap_iff sampleEnv none {} _ List.nodup_nil (fun _ => Nat.zero_le _)).mpr
  refine (along_cons _ _ _ _ _).mpr ⟨?_, (along_cons _ _ _ _ _).mpr ⟨?_, along_nil _ _ _⟩⟩
  · intro d hd
    cases hd
  · intro d _ _ _ _
    decide

end Birgap.Devices
