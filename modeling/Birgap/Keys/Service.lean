import Birgap.Schema
import Birgap.Lib.Rows
import Birgap.Lib.Tx

/-!
# One-time prekeys

`PreKeysService.refill` and `UsersService.getDeviceKeyBundles`, statement by statement:
each definition is one query or update of the source, or what it computes between two
of them.
-/
namespace Birgap.Keys

set_option autoImplicit false

open Birgap.Lib Birgap.Lib.Tx

structure OneTimePrekeyDto where
  keyId : Nat
  publicKey : String
  deriving DecidableEq

def assertDeviceOwner (userId deviceId : Id) (db : Db) : Except Err Unit :=
  match db.devices.find? (·.id == deviceId) with
  | none => .error (.notFound "Active device not found")
  | some device =>
      if !device.active then .error (.notFound "Active device not found")
      else if device.userId ≠ userId then .error (.forbidden "Device belongs to another user")
      else .ok ()

/-- The count of `refill` and the limit it checks. -/
def refillCheck (maxTotal : Nat) (deviceId : Id) (prekeys : List OneTimePrekeyDto) (db : Db) :
    Except Err Unit :=
  let current := db.oneTimePrekeys.countP fun p => p.deviceId == deviceId && p.consumedAt.isNone
  ensure (decide (current + prekeys.length ≤ maxTotal))
    (.badRequest ("Prekey refill would exceed device limit. Current: " ++ toString current ++
      ", adding: " ++ toString prekeys.length ++ ", max: " ++ toString maxTotal))

/-- The unique indexes of the table. -/
def prekeyClash (a b : OneTimePrekey) : Bool :=
  a.id == b.id || (a.deviceId == b.deviceId && a.keyId == b.keyId)

/-- `createMany({ skipDuplicates: true })` of `refill`; `prekeyId` draws the ids. -/
def refillInsert (now : Time) (prekeyId : Nat → Id) (deviceId : Id)
    (prekeys : List OneTimePrekeyDto) (db : Db) : Db :=
  let rows := prekeys.zipIdx.map fun (p, i) =>
    { id := prekeyId i, deviceId, keyId := p.keyId, publicKey := p.publicKey, createdAt := now }
  { db with oneTimePrekeys := Rows.createManySkip prekeyClash rows db.oneTimePrekeys }

/-- A device as the first query of `getDeviceKeyBundles` selects it. -/
structure DeviceKeys where
  id : Id
  userId : Id
  platform : DevicePlatform
  identityPublicKey : String
  signedPrekey : Option SignedPrekey
  deriving DecidableEq

/-- The active devices of a user in the order of their creation, each with its newest
active signed prekey. -/
def deviceKeys (userId : Id) (db : Db) : List DeviceKeys :=
  ((db.devices.filter fun d => d.userId == userId && d.active).insertionSort
      fun a b => a.createdAt ≤ b.createdAt).map fun d =>
    { id := d.id, userId := d.userId, platform := d.platform
      identityPublicKey := d.identityPublicKey
      signedPrekey := Rows.newest (·.createdAt)
        (db.signedPrekeys.filter fun p => p.deviceId == d.id && p.active) }

/-- The unconsumed prekeys of the devices, oldest first. -/
def availablePrekeys (devices : List DeviceKeys) (db : Db) : List OneTimePrekey :=
  (db.oneTimePrekeys.filter fun p =>
      (devices.map (·.id)).contains p.deviceId && p.consumedAt.isNone).insertionSort
    fun a b => a.createdAt ≤ b.createdAt

/-- The map of the source: the first prekey of every device. -/
def prekeyByDevice (prekeys : List OneTimePrekey) : List OneTimePrekey :=
  Rows.createManySkip (fun a b => a.deviceId == b.deviceId) prekeys []

/-- The update of `getDeviceKeyBundles`; it filters on the ids alone. -/
def consume (now : Time) (chosen : List OneTimePrekey) (db : Db) : Db :=
  { db with
    oneTimePrekeys := Rows.updateMany (fun p => (chosen.map (·.id)).contains p.id)
      (fun p => { p with consumedAt := some now }) db.oneTimePrekeys }

structure KeyBundle where
  deviceId : Id
  userId : Id
  platform : DevicePlatform
  identityPublicKey : String
  signedPrekey : Option SignedPrekey
  oneTimePrekey : Option OneTimePrekeyDto
  deriving DecidableEq

def bundles (devices : List DeviceKeys) (chosen : List OneTimePrekey) : List KeyBundle :=
  devices.map fun d =>
    { deviceId := d.id, userId := d.userId, platform := d.platform
      identityPublicKey := d.identityPublicKey, signedPrekey := d.signedPrekey
      oneTimePrekey := (chosen.find? (·.deviceId == d.id)).map fun p =>
        { keyId := p.keyId, publicKey := p.publicKey } }

/-- `PreKeysService.refill` as one call; returns the number of rows inserted. -/
def refill (maxTotal : Option Nat) (now : Time) (prekeyId : Nat → Id) (userId deviceId : Id)
    (prekeys : List OneTimePrekeyDto) (db : Db) : Except Err Nat × Db :=
  match assertDeviceOwner userId deviceId db with
  | .error e => (.error e, db)
  | .ok () =>
      match refillCheck (maxTotal.getD 500) deviceId prekeys db with
      | .error e => (.error e, db)
      | .ok () =>
          let db' := refillInsert now prekeyId deviceId prekeys db
          (.ok (db'.oneTimePrekeys.length - db.oneTimePrekeys.length), db')

structure RotateSignedPrekeyDto where
  keyId : Nat
  publicKey : String
  signature : String

/-- A stored signed prekey uploaded again under its number. -/
def renew (now : Time) (dto : RotateSignedPrekeyDto) (p : SignedPrekey) : SignedPrekey :=
  { p with publicKey := dto.publicKey, signature := dto.signature, active := true, createdAt := now }

/-- The upsert of `rotateSignedPrekey` on the index `(deviceId, keyId)`, with the row it
returns; `newId` is the id of a created row. -/
def upsertSignedPrekey (now : Time) (newId deviceId : Id) (dto : RotateSignedPrekeyDto)
    (rows : List SignedPrekey) : Except Err (SignedPrekey × List SignedPrekey) :=
  match rows.find? fun p => p.deviceId == deviceId && p.keyId == dto.keyId with
  | some p =>
      .ok (renew now dto p,
        Rows.updateMany (fun p => p.deviceId == deviceId && p.keyId == dto.keyId) (renew now dto) rows)
  | none =>
      if rows.any (·.id == newId) then .error .uniqueConstraint
      else
        let row : SignedPrekey :=
          { id := newId, deviceId, keyId := dto.keyId, publicKey := dto.publicKey
            signature := dto.signature, createdAt := now }
        .ok (row, rows ++ [row])

def retire (p : SignedPrekey) : SignedPrekey := { p with active := false }

/-- `PreKeysService.rotateSignedPrekey`. -/
def rotateSignedPrekey (now : Time) (newId userId deviceId : Id) (dto : RotateSignedPrekeyDto)
    (db : Db) : Except Err SignedPrekey × Db :=
  match assertDeviceOwner userId deviceId db with
  | .error e => (.error e, db)
  | .ok () =>
      let retired := Rows.updateMany (fun p => p.deviceId == deviceId && p.active) retire
        db.signedPrekeys
      match upsertSignedPrekey now newId deviceId dto retired with
      | .error e => (.error e, db)
      | .ok (row, rows) => (.ok row, { db with signedPrekeys := rows })

/-- `UsersService.getDeviceKeyBundles` as one call. -/
def getDeviceKeyBundles (now : Time) (userId : Id) (db : Db) : Except Err (List KeyBundle) × Db :=
  let devices := deviceKeys userId db
  if devices.isEmpty then (.error (.notFound "No active devices found for user"), db)
  else
    let chosen := prekeyByDevice (availablePrekeys devices db)
    (.ok (bundles devices chosen), if chosen.isEmpty then db else consume now chosen db)

/-- The one-time prekeys handed out in a list of bundles. -/
def prekeysOf (bs : List KeyBundle) : List (Id × Nat) :=
  bs.filterMap fun b => b.oneTimePrekey.map fun p => (b.deviceId, p.keyId)

theorem prekeysOf_append (as bs : List KeyBundle) :
    prekeysOf (as ++ bs) = prekeysOf as ++ prekeysOf bs := List.filterMap_append

/-- The choice for a device is one of the prekeys offered, at most one for a device. -/
theorem mem_prekeyByDevice {prekeys : List OneTimePrekey} {p : OneTimePrekey}
    (h : p ∈ prekeyByDevice prekeys) : p ∈ prekeys := by
  rcases Rows.mem_createManySkip h with hn | hp
  · cases hn
  · exact hp

theorem prekeyByDevice_unique (prekeys : List OneTimePrekey) :
    Rows.Unique (·.deviceId) (prekeyByDevice prekeys) :=
  Rows.unique_createManySkip (fun a b hab => by simp [hab]) List.nodup_nil

theorem mem_availablePrekeys {devices : List DeviceKeys} {db : Db} {p : OneTimePrekey} :
    p ∈ availablePrekeys devices db ↔
      p ∈ db.oneTimePrekeys ∧ p.deviceId ∈ devices.map (·.id) ∧ p.consumedAt = none := by
  unfold availablePrekeys
  rw [List.mem_insertionSort, List.mem_filter, Bool.and_eq_true, List.contains_iff_mem,
    Option.isNone_iff_eq_none]

/-- The bundles hand out exactly the chosen prekeys. -/
theorem mem_prekeysOf_bundles {devices : List DeviceKeys} {chosen : List OneTimePrekey}
    (hu : Rows.Unique (·.deviceId) chosen) (hd : ∀ p ∈ chosen, p.deviceId ∈ devices.map (·.id))
    {k : Id × Nat} :
    k ∈ prekeysOf (bundles devices chosen) ↔ ∃ p ∈ chosen, (p.deviceId, p.keyId) = k := by
  unfold prekeysOf bundles
  rw [List.filterMap_map, List.mem_filterMap]
  constructor
  · rintro ⟨d, _, hk⟩
    simp only [Function.comp_apply, Option.map_map, Option.map_eq_some_iff] at hk
    obtain ⟨p, hf, hpk⟩ := hk
    have hdev : p.deviceId = d.id := by simpa using List.find?_some hf
    refine ⟨p, List.mem_of_find?_eq_some hf, ?_⟩
    rw [hdev]
    exact hpk
  · rintro ⟨p, hp, rfl⟩
    obtain ⟨d, hdm, hid⟩ := List.mem_map.mp (hd p hp)
    refine ⟨d, hdm, ?_⟩
    simp only [Function.comp_apply, hid, hu.find?_eq hp, Option.map_some]

/-- One response never hands out a prekey twice. -/
theorem prekeysOf_bundles_nodup {devices : List DeviceKeys} {chosen : List OneTimePrekey}
    (hd : Rows.Unique (·.id) devices) : (prekeysOf (bundles devices chosen)).Nodup := by
  have hdev : (prekeysOf (bundles devices chosen)).map Prod.fst =
      (devices.filter fun d => (chosen.find? (·.deviceId == d.id)).isSome).map (·.id) := by
    unfold prekeysOf bundles
    induction devices with
    | nil => rfl
    | cons d devices ih =>
        have hrest := ih (List.nodup_cons.mp hd).2
        simp only [List.map_cons, List.filterMap_cons]
        cases hf : chosen.find? (·.deviceId == d.id) with
        | none => simpa [hf] using hrest
        | some p => simpa [hf] using hrest
  apply List.Nodup.of_map Prod.fst
  rw [hdev]
  exact hd.filter _

theorem deviceKeys_unique {userId : Id} {db : Db} (h : Rows.Unique (·.id) db.devices) :
    Rows.Unique (·.id) (deviceKeys userId db) := by
  unfold Rows.Unique deviceKeys
  rw [List.map_map]
  exact ((List.perm_insertionSort _ _).map _).nodup_iff.mpr (h.filter _)

theorem assertDeviceOwner_ok {userId deviceId : Id} {db : Db} {u : Unit}
    (h : assertDeviceOwner userId deviceId db = .ok u) : ∃ d ∈ db.devices, d.id = deviceId := by
  unfold assertDeviceOwner at h
  split at h
  · cases h
  · rename_i d hf
    exact ⟨d, List.mem_of_find?_eq_some hf, by simpa using List.find?_some hf⟩

/-- A refill leaves the store alone or inserts rows of a stored device. -/
theorem refill_cases (maxTotal : Option Nat) (now : Time) (prekeyId : Nat → Id)
    (userId deviceId : Id) (prekeys : List OneTimePrekeyDto) (db : Db) :
    (refill maxTotal now prekeyId userId deviceId prekeys db).2 = db ∨
    ((∃ d ∈ db.devices, d.id = deviceId) ∧
      (refill maxTotal now prekeyId userId deviceId prekeys db).2 =
        refillInsert now prekeyId deviceId prekeys db) := by
  unfold refill
  cases ha : assertDeviceOwner userId deviceId db with
  | error e => exact Or.inl rfl
  | ok u =>
      dsimp only
      cases refillCheck (maxTotal.getD 500) deviceId prekeys db with
      | error e => exact Or.inl rfl
      | ok v => exact Or.inr ⟨assertDeviceOwner_ok ha, rfl⟩

theorem mem_refillInsert {now : Time} {prekeyId : Nat → Id} {deviceId : Id}
    {prekeys : List OneTimePrekeyDto} {db : Db} {p : OneTimePrekey}
    (h : p ∈ (refillInsert now prekeyId deviceId prekeys db).oneTimePrekeys) :
    p ∈ db.oneTimePrekeys ∨ p.deviceId = deviceId := by
  rcases Rows.mem_createManySkip h with h | h
  · exact Or.inl h
  · obtain ⟨⟨q, i⟩, _, rfl⟩ := List.mem_map.mp h
    exact Or.inr rfl

theorem prekeyClash_of_number (a b : OneTimePrekey)
    (h : (a.deviceId, a.keyId) = (b.deviceId, b.keyId)) : prekeyClash b a = true := by
  obtain ⟨hd, hk⟩ := Prod.mk.inj h
  simp [prekeyClash, hd, hk]

/-- After the upsert the rows of other devices are as before, and of the device itself only
the uploaded number is active. -/
theorem mem_upsertSignedPrekey {now : Time} {newId deviceId : Id} {dto : RotateSignedPrekeyDto}
    {old rows : List SignedPrekey} {row : SignedPrekey}
    (h : upsertSignedPrekey now newId deviceId dto
      (Rows.updateMany (fun p => p.deviceId == deviceId && p.active) retire old) = .ok (row, rows))
    {p : SignedPrekey} (hp : p ∈ rows) :
    (p.deviceId ≠ deviceId ∧ p ∈ old) ∨
    (p.deviceId = deviceId ∧ (p.active = true → p.keyId = dto.keyId)) := by
  have hretired : ∀ q ∈ Rows.updateMany (fun p => p.deviceId == deviceId && p.active) retire old,
      (q.deviceId ≠ deviceId ∧ q ∈ old) ∨ (q.deviceId = deviceId ∧ q.active = false) := by
    intro q hq
    obtain ⟨o, ho, rfl⟩ := Rows.mem_updateMany.mp hq
    by_cases hdev : o.deviceId = deviceId
    · right
      cases hact : o.active with
      | true => simp [hdev, retire]
      | false => simp [hdev, hact]
    · left
      rw [if_neg (by simp [hdev])]
      exact ⟨hdev, ho⟩
  unfold upsertSignedPrekey at h
  split at h
  · obtain ⟨_, rfl⟩ := Prod.mk.inj (Except.ok.inj h)
    obtain ⟨q, hq, rfl⟩ := Rows.mem_updateMany.mp hp
    by_cases hsel : (q.deviceId == deviceId && q.keyId == dto.keyId) = true
    · rw [if_pos hsel]
      simp only [Bool.and_eq_true, beq_iff_eq] at hsel
      exact Or.inr ⟨hsel.1, fun _ => hsel.2⟩
    · rw [if_neg hsel]
      rcases hretired q hq with hother | ⟨hdev, hoff⟩
      · exact Or.inl hother
      · exact Or.inr ⟨hdev, fun hact => absurd hact (by simp [hoff])⟩
  · split at h
    · cases h
    · obtain ⟨_, rfl⟩ := Prod.mk.inj (Except.ok.inj h)
      rcases List.mem_append.mp hp with hq | hq
      · rcases hretired p hq with hother | ⟨hdev, hoff⟩
        · exact Or.inl hother
        · exact Or.inr ⟨hdev, fun hact => absurd hact (by simp [hoff])⟩
      · rw [List.mem_singleton.mp hq]
        exact Or.inr ⟨rfl, fun _ => rfl⟩

/-- What a rotation that succeeded did. -/
theorem rotateSignedPrekey_ok {now : Time} {newId userId deviceId : Id}
    {dto : RotateSignedPrekeyDto} {db db' : Db} {row : SignedPrekey}
    (h : rotateSignedPrekey now newId userId deviceId dto db = (.ok row, db')) :
    (∃ d ∈ db.devices, d.id = deviceId) ∧
    ∃ rows, db' = { db with signedPrekeys := rows } ∧
      ∀ p ∈ rows, (p.deviceId ≠ deviceId ∧ p ∈ db.signedPrekeys) ∨
        (p.deviceId = deviceId ∧ (p.active = true → p.keyId = dto.keyId)) := by
  unfold rotateSignedPrekey at h
  cases ha : assertDeviceOwner userId deviceId db with
  | error e =>
      rw [ha] at h
      cases (Prod.mk.inj h).1
  | ok u =>
      rw [ha] at h
      dsimp only at h
      split at h
      · cases (Prod.mk.inj h).1
      · rename_i row' rows hu
        obtain ⟨_, rfl⟩ := Prod.mk.inj h
        exact ⟨assertDeviceOwner_ok ha, rows, rfl, fun p hp => mem_upsertSignedPrekey hu hp⟩

theorem mem_deviceKeys {userId : Id} {db : Db} {k : DeviceKeys} :
    k ∈ deviceKeys userId db ↔ ∃ d ∈ db.devices, (d.userId = userId ∧ d.active = true) ∧
      k = { id := d.id, userId := d.userId, platform := d.platform
            identityPublicKey := d.identityPublicKey
            signedPrekey := Rows.newest (·.createdAt)
              (db.signedPrekeys.filter fun p => p.deviceId == d.id && p.active) } := by
  unfold deviceKeys
  rw [List.mem_map]
  constructor
  · rintro ⟨d, hd, rfl⟩
    rw [List.mem_insertionSort, List.mem_filter] at hd
    simp only [Bool.and_eq_true, beq_iff_eq] at hd
    exact ⟨d, hd.1, hd.2, rfl⟩
  · rintro ⟨d, hd, hown, rfl⟩
    refine ⟨d, ?_, rfl⟩
    rw [List.mem_insertionSort, List.mem_filter]
    simp only [Bool.and_eq_true, beq_iff_eq]
    exact ⟨hd, hown⟩

/-- A device with a prekey on offer gets one. -/
theorem prekeyByDevice_covers {prekeys : List OneTimePrekey} {p : OneTimePrekey}
    (h : p ∈ prekeys) : ∃ q ∈ prekeyByDevice prekeys, q.deviceId = p.deviceId := by
  obtain ⟨q, hq, hpq⟩ := Rows.createManySkip_covers
    (fun a b : OneTimePrekey => a.deviceId == b.deviceId) h []
  refine ⟨q, hq, ?_⟩
  rcases hpq with rfl | hpq
  · rfl
  · exact (by simpa using hpq : p.deviceId = q.deviceId).symm

end Birgap.Keys
