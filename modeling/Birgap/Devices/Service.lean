import Birgap.Common.Crypto
import Birgap.Lib.Rows

/-!
# Registering and deactivating devices

`DevicesService.register` and `deactivate`. A device becomes active in three ways: it is
created, it is registered again while active, or it is registered again after it was
deactivated. The limit on active devices is looked at when a device is created.
-/
namespace Birgap.Devices

set_option autoImplicit false

open Birgap.Common Birgap.Lib

/-- An absent field is `none`; validation also lets a null pass, which is `some none`. -/
structure RegisterDeviceDto where
  deviceId : Option Id := none
  platform : DevicePlatform
  displayName : Option (Option String) := none
  identityPublicKey : String
  pushToken : Option (Option String) := none
  pushPlatform : Option (Option PushPlatform) := none
  pushActive : Option Bool := none

/-- The effective limit; `configuredMax` is `Number(MAX_ACTIVE_DEVICES)` when that is an
integer. -/
def maxActiveDevices (configuredMax : Option Int) : Nat :=
  match configuredMax with
  | some n => if 0 < n then n.toNat else 3
  | none => 3

def activeCount (userId : Id) (db : Db) : Nat :=
  db.devices.countP fun d => d.userId == userId && d.active

/-- The row of an existing device after it was registered again; a field that the request
leaves out keeps its value. -/
def reregister (now : Time) (dto : RegisterDeviceDto) (d : Device) : Device :=
  { d with
    platform := dto.platform, displayName := dto.displayName.getD d.displayName
    identityPublicKey := dto.identityPublicKey, pushToken := dto.pushToken.getD d.pushToken
    pushPlatform := dto.pushPlatform.getD d.pushPlatform, pushActive := dto.pushActive.getD false
    active := true, lastSeenAt := some now }

def newDevice (now : Time) (id userId : Id) (dto : RegisterDeviceDto) : Device :=
  { id, userId, platform := dto.platform, displayName := dto.displayName.join
    identityPublicKey := dto.identityPublicKey, pushToken := dto.pushToken.join
    pushPlatform := dto.pushPlatform.join, pushActive := dto.pushActive.getD false
    lastSeenAt := some now, createdAt := now }

/-- The end of `register` for a device that is not stored yet. -/
def createDevice (configuredMax : Option Int) (now : Time) (id userId : Id)
    (dto : RegisterDeviceDto) (db : Db) : Except Err Device × Db :=
  let maxActive := maxActiveDevices configuredMax
  if maxActive ≤ activeCount userId db then
    (.error (.conflict ("Maximum active devices reached (" ++ toString maxActive ++ ")")), db)
  else if db.devices.any (·.id == id) then (.error .uniqueConstraint, db)
  else
    let device := newDevice now id userId dto
    (.ok device, { db with devices := db.devices ++ [device] })

/-- `DevicesService.register`; `newId` is the id the database draws. -/
def register (configuredMax : Option Int) (now : Time) (newId userId : Id)
    (dto : RegisterDeviceDto) (db : Db) : Except Err Device × Db :=
  match truthy dto.deviceId with
  | none => createDevice configuredMax now (dto.deviceId.getD newId) userId dto db
  | some id =>
      match db.devices.find? (·.id == id) with
      | none => createDevice configuredMax now id userId dto db
      | some existing =>
          if existing.userId ≠ userId then
            (.error (.forbidden "Device belongs to another user"), db)
          else
            (.ok (reregister now dto existing),
              { db with
                devices := Rows.updateMany (·.id == id) (reregister now dto) db.devices })

/-- The row of a device that was switched off, by `deactivate` or by a logout. -/
def switchOff (d : Device) : Device := { d with active := false, pushActive := false }

/-- `DevicesService.deactivate`. -/
def deactivate (userId deviceId : Id) (db : Db) : Except Err Device × Db :=
  match db.devices.find? (·.id == deviceId) with
  | none => (.error (.notFound "Device not found"), db)
  | some device =>
      if device.userId ≠ userId then (.error (.forbidden "Device belongs to another user"), db)
      else
        (.ok (switchOff device),
          { db with devices := Rows.updateMany (·.id == deviceId) switchOff db.devices })

theorem createDevice_cases (configuredMax : Option Int) (now : Time) (id userId : Id)
    (dto : RegisterDeviceDto) (db : Db) :
    (createDevice configuredMax now id userId dto db).2 = db ∨
    ((∀ d ∈ db.devices, d.id ≠ id) ∧ activeCount userId db < maxActiveDevices configuredMax ∧
      (createDevice configuredMax now id userId dto db).2 =
        { db with devices := db.devices ++ [newDevice now id userId dto] }) := by
  unfold createDevice
  dsimp only
  by_cases hroom : maxActiveDevices configuredMax ≤ activeCount userId db
  · rw [if_pos hroom]
    exact Or.inl rfl
  · rw [if_neg hroom]
    by_cases hused : db.devices.any (·.id == id) = true
    · rw [if_pos hused]
      exact Or.inl rfl
    · rw [if_neg hused]
      refine Or.inr ⟨?_, not_le.mp hroom, rfl⟩
      intro d hd he
      exact hused (List.any_eq_true.mpr ⟨d, hd, by simp [he]⟩)

/-- A registration writes the device table only. -/
theorem register_frame (configuredMax : Option Int) (now : Time) (newId userId : Id)
    (dto : RegisterDeviceDto) (db : Db) :
    ∃ devices, (register configuredMax now newId userId dto db).2 = { db with devices := devices } := by
  have hcreate : ∀ id, ∃ devices,
      (createDevice configuredMax now id userId dto db).2 = { db with devices := devices } := by
    intro id
    rcases createDevice_cases configuredMax now id userId dto db with h | ⟨_, _, h⟩
    · exact ⟨db.devices, h⟩
    · exact ⟨_, h⟩
  unfold register
  split
  · exact hcreate _
  · split
    · exact hcreate _
    · split
      · exact ⟨db.devices, rfl⟩
      · exact ⟨_, rfl⟩

/-- The three outcomes of a registration: refused without naming an own device, an own
device written over, or a new row under an unused id while the limit leaves room. -/
theorem register_cases (configuredMax : Option Int) (now : Time) (newId userId : Id)
    (dto : RegisterDeviceDto) (db : Db) (hk : Rows.Unique (·.id) db.devices) :
    ((∀ d ∈ db.devices, truthy dto.deviceId = some d.id → d.userId ≠ userId) ∧
      (register configuredMax now newId userId dto db).2 = db) ∨
    (∃ d ∈ db.devices, truthy dto.deviceId = some d.id ∧ d.userId = userId ∧
      (register configuredMax now newId userId dto db).2 =
        { db with devices := Rows.updateMany (·.id == d.id) (reregister now dto) db.devices }) ∨
    ((∀ d ∈ db.devices, truthy dto.deviceId ≠ some d.id) ∧
      ∃ id, (∀ d ∈ db.devices, d.id ≠ id) ∧ activeCount userId db < maxActiveDevices configuredMax ∧
      (register configuredMax now newId userId dto db).2 =
        { db with devices := db.devices ++ [newDevice now id userId dto] }) := by
  unfold register
  cases hdto : truthy dto.deviceId with
  | none =>
      dsimp only
      have hno : ∀ d ∈ db.devices, (none : Option Id) ≠ some d.id := by
        intro d _ he
        cases he
      rcases createDevice_cases configuredMax now (dto.deviceId.getD newId) userId dto db with h | h
      · exact Or.inl ⟨fun d hd he => absurd he (hno d hd), h⟩
      · exact Or.inr (Or.inr ⟨hno, dto.deviceId.getD newId, h⟩)
  | some id =>
      dsimp only
      cases hf : db.devices.find? (·.id == id) with
      | none =>
          have hno : ∀ d ∈ db.devices, some id ≠ some d.id := by
            intro d hd he
            have hd' := List.find?_eq_none.mp hf d hd
            simp [Option.some.inj he] at hd'
          rcases createDevice_cases configuredMax now id userId dto db with h | h
          · exact Or.inl ⟨fun d hd he => absurd he (hno d hd), h⟩
          · exact Or.inr (Or.inr ⟨hno, id, h⟩)
      | some d =>
          dsimp only
          have hid : d.id = id := by simpa using List.find?_some hf
          have hd := List.mem_of_find?_eq_some hf
          by_cases hown : d.userId = userId
          · rw [if_neg (not_not.mpr hown)]
            refine Or.inr (Or.inl ⟨d, hd, ?_, hown, ?_⟩)
            · rw [hid]
            · rw [hid]
          · rw [if_pos hown]
            refine Or.inl ⟨?_, rfl⟩
            intro x hx he
            rw [hk.eq hx hd ((Option.some.inj he).symm.trans hid.symm)]
            exact hown

/-- A deactivation is refused or switches an own device off. -/
theorem deactivate_cases (userId deviceId : Id) (db : Db) :
    (deactivate userId deviceId db).2 = db ∨
    (deactivate userId deviceId db).2 =
      { db with devices := Rows.updateMany (·.id == deviceId) switchOff db.devices } := by
  unfold deactivate
  cases db.devices.find? (·.id == deviceId) with
  | none => exact Or.inl rfl
  | some d =>
      dsimp only
      by_cases hown : d.userId = userId
      · rw [if_neg (not_not.mpr hown)]
        exact Or.inr rfl
      · rw [if_pos hown]
        exact Or.inl rfl

end Birgap.Devices
