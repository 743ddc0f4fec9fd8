import Birgap.Devices.Service
import Birgap.Keys.Service
import Birgap.Lib.Run

/-!
# Key bundles and identity keys

A prekey is uploaded under the identity key its device has at that time. The tags of the
state record that key; nothing the services do reads them. Registering a device again may
replace its identity key and leaves its prekeys in place, so the bundles offered are
consistent in every state of a run exactly when no registration replaces the identity key of
a device that still has prekeys to offer.
-/
namespace Birgap.Keys.Identity

set_option autoImplicit false

open Birgap.Common Birgap.Lib Birgap.Lib.Run Birgap.Devices

/-- The store, with the identity key in force when the prekey of a device and number was
uploaded. -/
structure State where
  db : Db
  signedTag : Id → Nat → Option String
  oneTimeTag : Id → Nat → Option String

inductive Op where
  | register (now : Time) (newId userId : Id) (dto : RegisterDeviceDto)
  | deactivate (userId deviceId : Id)
  | rotateSignedPrekey (now : Time) (newId userId deviceId : Id) (dto : RotateSignedPrekeyDto)
  | refill (now : Time) (prekeyId : Nat → Id) (userId deviceId : Id)
      (prekeys : List OneTimePrekeyDto)
  | getDeviceKeyBundles (now : Time) (userId : Id)

def identityKey (deviceId : Id) (db : Db) : Option String :=
  (db.devices.find? (·.id == deviceId)).map (·.identityPublicKey)

def storedOneTime (deviceId : Id) (keyId : Nat) (db : Db) : Bool :=
  db.oneTimePrekeys.any fun p => p.deviceId == deviceId && p.keyId == keyId

def step (configuredMax : Option Int) (maxTotal : Option Nat) (s : State) : Op → State
  | .register now newId userId dto =>
      { s with db := (register configuredMax now newId userId dto s.db).2 }
  | .deactivate userId deviceId => { s with db := (deactivate userId deviceId s.db).2 }
  | .rotateSignedPrekey now newId userId deviceId dto =>
      match rotateSignedPrekey now newId userId deviceId dto s.db with
      | (.error _, _) => s
      | (.ok _, db) =>
          { s with
            db := db
            signedTag := fun d k =>
              if d = deviceId ∧ k = dto.keyId then identityKey deviceId s.db else s.signedTag d k }
  | .refill now prekeyId userId deviceId prekeys =>
      let db := (refill maxTotal now prekeyId userId deviceId prekeys s.db).2
      { s with
        db := db
        oneTimeTag := fun d k =>
          if storedOneTime d k db ∧ ¬ storedOneTime d k s.db then identityKey d s.db
          else s.oneTimeTag d k }
  | .getDeviceKeyBundles now userId => { s with db := (getDeviceKeyBundles now userId s.db).2 }

/-- No prekeys yet; any users and devices. -/
def start (db : Db) : State :=
  { db := { db with signedPrekeys := [], oneTimePrekeys := [] }
    signedTag := fun _ _ => none
    oneTimeTag := fun _ _ => none }

/-- The prekeys of a bundle were uploaded under the identity key it carries. -/
def BundleConsistent (s : State) (b : KeyBundle) : Prop :=
  (∀ p, b.signedPrekey = some p → s.signedTag b.deviceId p.keyId = some b.identityPublicKey) ∧
  (∀ p, b.oneTimePrekey = some p → s.oneTimeTag b.deviceId p.keyId = some b.identityPublicKey)

/-- Whoever asks now gets consistent bundles. -/
def Consistent (s : State) : Prop :=
  ∀ now userId bs, (getDeviceKeyBundles now userId s.db).1 = .ok bs → ∀ b ∈ bs, BundleConsistent s b

/-- A registration that replaces the identity key of an own device finds no active signed
prekey and no unconsumed one-time prekey of it. -/
def KeepsIdentity (s : State) : Op → Prop
  | .register _ _ userId dto =>
      ∀ d ∈ s.db.devices, truthy dto.deviceId = some d.id → d.userId = userId →
        dto.identityPublicKey ≠ d.identityPublicKey →
        (∀ p ∈ s.db.signedPrekeys, p.deviceId = d.id → p.active = false) ∧
        (∀ p ∈ s.db.oneTimePrekeys, p.deviceId = d.id → p.consumedAt ≠ none)
  | _ => True

/-- The indexes and foreign keys of the three tables. -/
structure Indexed (s : State) : Prop where
  devices : Rows.Unique (·.id) s.db.devices
  numbers : Rows.Unique (fun p => (p.deviceId, p.keyId)) s.db.oneTimePrekeys
  signedOwned : ∀ p ∈ s.db.signedPrekeys, ∃ d ∈ s.db.devices, d.id = p.deviceId
  oneTimeOwned : ∀ p ∈ s.db.oneTimePrekeys, ∃ d ∈ s.db.devices, d.id = p.deviceId

/-- Every prekey that can still be offered is tagged with the current identity key. -/
structure Tagged (s : State) : Prop where
  signed : ∀ p ∈ s.db.signedPrekeys, p.active = true → ∀ d ∈ s.db.devices, d.id = p.deviceId →
    s.signedTag p.deviceId p.keyId = some d.identityPublicKey
  oneTime : ∀ p ∈ s.db.oneTimePrekeys, p.consumedAt = none → ∀ d ∈ s.db.devices, d.id = p.deviceId →
    s.oneTimeTag p.deviceId p.keyId = some d.identityPublicKey

theorem start_indexed {db : Db} (hk : Rows.Unique (·.id) db.devices) : Indexed (start db) := by
  refine ⟨hk, List.nodup_nil, ?_, ?_⟩
  · intro p h
    cases h
  · intro p h
    cases h

theorem start_tagged (db : Db) : Tagged (start db) := by
  constructor
  · intro p h
    cases h
  · intro p h
    cases h

/-- Device operations keep ids and add ids that no prekey refers to. -/
theorem Indexed.devices_changed {s : State} (h : Indexed s) {devices : List Device}
    (hu : Rows.Unique (·.id) devices) (hkept : ∀ d ∈ s.db.devices, ∃ d' ∈ devices, d'.id = d.id) :
    Indexed { s with db := { s.db with devices := devices } } := by
  refine ⟨hu, h.numbers, ?_, ?_⟩
  · intro p hp
    obtain ⟨d, hd, hid⟩ := h.signedOwned p hp
    obtain ⟨d', hd', hid'⟩ := hkept d hd
    exact ⟨d', hd', hid'.trans hid⟩
  · intro p hp
    obtain ⟨d, hd, hid⟩ := h.oneTimeOwned p hp
    obtain ⟨d', hd', hid'⟩ := hkept d hd
    exact ⟨d', hd', hid'.trans hid⟩

theorem step_indexed (configuredMax : Option Int) (maxTotal : Option Nat) (s : State) (op : Op)
    (h : Indexed s) : Indexed (step configuredMax maxTotal s op) := by
  cases op with
  | register now newId userId dto =>
      simp only [step]
      rcases register_cases configuredMax now newId userId dto s.db h.devices with
        ⟨_, he⟩ | ⟨d, _, _, _, he⟩ | ⟨_, id, hfree, _, he⟩
      · rw [he]
        exact h
      · rw [he]
        exact h.devices_changed
          (Rows.unique_updateMany (f := reregister now dto) (fun _ => rfl) h.devices)
          fun d hd => Rows.updateMany_kept (f := reregister now dto) (fun _ => rfl) hd
      · rw [he]
        exact h.devices_changed (Rows.unique_append h.devices hfree)
          fun d hd => ⟨d, List.mem_append_left _ hd, rfl⟩
  | deactivate userId deviceId =>
      simp only [step]
      rcases deactivate_cases userId deviceId s.db with he | he
      · rw [he]
        exact h
      · rw [he]
        exact h.devices_changed (Rows.unique_updateMany (f := switchOff) (fun _ => rfl) h.devices)
          fun d hd => Rows.updateMany_kept (f := switchOff) (fun _ => rfl) hd
  | rotateSignedPrekey now newId userId deviceId dto =>
      simp only [step]
      split
      · exact h
      · rename_i row db hr
        obtain ⟨⟨d, hd, hid⟩, rows, rfl, hrows⟩ := rotateSignedPrekey_ok hr
        refine ⟨h.devices, h.numbers, ?_, h.oneTimeOwned⟩
        intro p hp
        rcases hrows p hp with ⟨_, hold⟩ | ⟨hdev, _⟩
        · exact h.signedOwned p hold
        · exact ⟨d, hd, hid.trans hdev.symm⟩
  | refill now prekeyId userId deviceId prekeys =>
      simp only [step]
      rcases refill_cases maxTotal now prekeyId userId deviceId prekeys s.db with
        he | ⟨⟨d, hd, hid⟩, he⟩
      · rw [he]
        exact ⟨h.devices, h.numbers, h.signedOwned, h.oneTimeOwned⟩
      · rw [he]
        refine ⟨h.devices, Rows.unique_createManySkip prekeyClash_of_number h.numbers,
          h.signedOwned, ?_⟩
        intro p hp
        rcases mem_refillInsert hp with hold | hdev
        · exact h.oneTimeOwned p hold
        · exact ⟨d, hd, hid.trans hdev.symm⟩
  | getDeviceKeyBundles now userId =>
      simp only [step, getDeviceKeyBundles]
      split
      · exact h
      · split
        · exact h
        · refine ⟨h.devices, Rows.unique_updateMany
            (f := fun p : OneTimePrekey => { p with consumedAt := some now }) (fun _ => rfl) h.numbers,
            h.signedOwned, ?_⟩
          intro p hp
          obtain ⟨q, hq, rfl⟩ := Rows.mem_updateMany.mp hp
          obtain ⟨d, hd, hid⟩ := h.oneTimeOwned q hq
          refine ⟨d, hd, ?_⟩
          split <;> exact hid

/-- What a bundle of a device carries. -/
theorem consistent_of_tagged {s : State} (h : Tagged s) : Consistent s := by
  intro now userId bs hbs b hb
  unfold getDeviceKeyBundles at hbs
  dsimp only at hbs
  split at hbs
  · cases hbs
  · obtain rfl := Except.ok.inj hbs
    obtain ⟨k, hk, rfl⟩ := List.mem_map.mp hb
    obtain ⟨d, hd, _, rfl⟩ := mem_deviceKeys.mp hk
    constructor
    · intro p hp
      have hmem := List.mem_filter.mp (Rows.newest_mem hp)
      simp only [Bool.and_eq_true, beq_iff_eq] at hmem
      obtain ⟨hrow, hdev, hact⟩ := hmem
      have htag := h.signed p hrow hact d hd hdev.symm
      rw [hdev] at htag
      exact htag
    · intro o ho
      obtain ⟨p, hf, rfl⟩ := Option.map_eq_some_iff.mp ho
      have hdev : p.deviceId = d.id := by simpa using List.find?_some hf
      have hoffer := mem_prekeyByDevice (List.mem_of_find?_eq_some hf)
      obtain ⟨hrow, _, hfresh⟩ := mem_availablePrekeys.mp hoffer
      have htag := h.oneTime p hrow hfresh d hd hdev.symm
      rw [hdev] at htag
      exact htag

theorem identityKey_eq {s : State} (h : Indexed s) {d : Device} (hd : d ∈ s.db.devices) :
    identityKey d.id s.db = some d.identityPublicKey := by
  unfold identityKey
  rw [h.devices.find?_eq hd]
  rfl

/-- Operations that keep every identity key keep the tags right. -/
theorem Tagged.devices_changed {s : State} (h : Tagged s) {devices : List Device}
    (hsigned : ∀ p ∈ s.db.signedPrekeys, p.active = true → ∀ d' ∈ devices, d'.id = p.deviceId →
      ∃ d ∈ s.db.devices, d.id = d'.id ∧ d.identityPublicKey = d'.identityPublicKey)
    (honeTime : ∀ p ∈ s.db.oneTimePrekeys, p.consumedAt = none → ∀ d' ∈ devices,
      d'.id = p.deviceId →
      ∃ d ∈ s.db.devices, d.id = d'.id ∧ d.identityPublicKey = d'.identityPublicKey) :
    Tagged { s with db := { s.db with devices := devices } } := by
  constructor
  · intro p hp hact d' hd' hid'
    obtain ⟨d, hd, hid, hkey⟩ := hsigned p hp hact d' hd' hid'
    rw [h.signed p hp hact d hd (hid.trans hid'), hkey]
  · intro p hp hfresh d' hd' hid'
    obtain ⟨d, hd, hid, hkey⟩ := honeTime p hp hfresh d' hd' hid'
    rw [h.oneTime p hp hfresh d hd (hid.trans hid'), hkey]

/-- An own device is registered again; prekeys on offer see no new identity key. -/
theorem Tagged.reregistered {s : State} (hk : Indexed s) (h : Tagged s) {d : Device}
    (hd : d ∈ s.db.devices) (now : Time) (dto : RegisterDeviceDto)
    (hc : dto.identityPublicKey ≠ d.identityPublicKey →
      (∀ p ∈ s.db.signedPrekeys, p.deviceId = d.id → p.active = false) ∧
      (∀ p ∈ s.db.oneTimePrekeys, p.deviceId = d.id → p.consumedAt ≠ none)) :
    Tagged { s with db := { s.db with
      devices := Rows.updateMany (·.id == d.id) (reregister now dto) s.db.devices } } := by
  have hrow : ∀ d' ∈ Rows.updateMany (·.id == d.id) (reregister now dto) s.db.devices,
      (∃ x ∈ s.db.devices, x.id = d'.id ∧ x.identityPublicKey = d'.identityPublicKey) ∨
      (d'.id = d.id ∧ dto.identityPublicKey ≠ d.identityPublicKey) := by
    intro d' hd'
    obtain ⟨x, hx, rfl⟩ := Rows.mem_updateMany.mp hd'
    by_cases hid : x.id = d.id
    · rw [if_pos (by simpa using hid)]
      obtain rfl := hk.devices.eq hx hd hid
      by_cases hsame : dto.identityPublicKey = x.identityPublicKey
      · exact Or.inl ⟨x, hx, rfl, hsame.symm⟩
      · exact Or.inr ⟨rfl, hsame⟩
    · rw [if_neg (by simpa using hid)]
      exact Or.inl ⟨x, hx, rfl, rfl⟩
  apply h.devices_changed
  · intro p hp hact d' hd' hid'
    rcases hrow d' hd' with hold | ⟨hid, hnew⟩
    · exact hold
    · have hoff := (hc hnew).1 p hp (hid'.symm.trans hid)
      rw [hoff] at hact
      cases hact
  · intro p hp hfresh d' hd' hid'
    rcases hrow d' hd' with hold | ⟨hid, hnew⟩
    · exact hold
    · exact absurd hfresh ((hc hnew).2 p hp (hid'.symm.trans hid))

/-- No prekey refers to the id of a new device. -/
theorem Tagged.created {s : State} (hk : Indexed s) (h : Tagged s) {device : Device}
    (hfree : ∀ d ∈ s.db.devices, d.id ≠ device.id) :
    Tagged { s with db := { s.db with devices := s.db.devices ++ [device] } } := by
  have hold : ∀ deviceId, (∃ x ∈ s.db.devices, x.id = deviceId) →
      ∀ d' ∈ s.db.devices ++ [device], d'.id = deviceId →
      ∃ x ∈ s.db.devices, x.id = d'.id ∧ x.identityPublicKey = d'.identityPublicKey := by
    intro deviceId hx d' hd' hid'
    obtain ⟨x, hx, hxid⟩ := hx
    rcases List.mem_append.mp hd' with hd' | hd'
    · exact ⟨d', hd', rfl, rfl⟩
    · rw [List.mem_singleton.mp hd'] at hid'
      exact absurd (hxid.trans hid'.symm) (hfree x hx)
  apply h.devices_changed
  · intro p hp _ d' hd' hid'
    exact hold p.deviceId (hk.signedOwned p hp) d' hd' hid'
  · intro p hp _ d' hd' hid'
    exact hold p.deviceId (hk.oneTimeOwned p hp) d' hd' hid'

/-- Switching a device off leaves its identity key. -/
theorem Tagged.switchedOff {s : State} (h : Tagged s) (deviceId : Id) :
    Tagged { s with db := { s.db with
      devices := Rows.updateMany (·.id == deviceId) switchOff s.db.devices } } := by
  have hrow : ∀ d' ∈ Rows.updateMany (·.id == deviceId) switchOff s.db.devices,
      ∃ x ∈ s.db.devices, x.id = d'.id ∧ x.identityPublicKey = d'.identityPublicKey := by
    intro d' hd'
    obtain ⟨x, hx, rfl⟩ := Rows.mem_updateMany.mp hd'
    refine ⟨x, hx, ?_⟩
    split <;> exact ⟨rfl, rfl⟩
  apply h.devices_changed
  · intro p _ _ d' hd' _
    exact hrow d' hd'
  · intro p _ _ d' hd' _
    exact hrow d' hd'

section Uploads

variable (configuredMax : Option Int) (maxTotal : Option Nat)

theorem rotateSignedPrekey_tagged {s : State} (hk : Indexed s) (h : Tagged s) (now : Time)
    (newId userId deviceId : Id) (dto : RotateSignedPrekeyDto) :
    Tagged (step configuredMax maxTotal s (.rotateSignedPrekey now newId userId deviceId dto)) := by
  simp only [step]
  split
  · exact h
  · rename_i row db hr
    obtain ⟨_, rows, rfl, hrows⟩ := rotateSignedPrekey_ok hr
    refine ⟨?_, h.oneTime⟩
    intro p hp hact d hd hid
    dsimp only
    rcases hrows p hp with ⟨hdev, hold⟩ | ⟨hdev, hnumber⟩
    · rw [if_neg fun hsel => hdev hsel.1]
      exact h.signed p hold hact d hd hid
    · rw [if_pos ⟨hdev, hnumber hact⟩, ← hdev, ← hid]
      exact identityKey_eq hk hd

theorem refill_tagged {s : State} (hk : Indexed s) (h : Tagged s) (now : Time)
    (prekeyId : Nat → Id) (userId deviceId : Id) (prekeys : List OneTimePrekeyDto) :
    Tagged (step configuredMax maxTotal s (.refill now prekeyId userId deviceId prekeys)) := by
  have hkeys := step_indexed configuredMax maxTotal s
    (.refill now prekeyId userId deviceId prekeys) hk
  simp only [step] at hkeys ⊢
  rcases refill_cases maxTotal now prekeyId userId deviceId prekeys s.db with he | ⟨_, he⟩
  · rw [he]
    refine ⟨h.signed, ?_⟩
    intro p hp hfresh d hd hid
    dsimp only
    rw [if_neg fun hsel => hsel.2 hsel.1]
    exact h.oneTime p hp hfresh d hd hid
  · rw [he] at hkeys ⊢
    refine ⟨h.signed, ?_⟩
    intro p hp hfresh d hd hid
    dsimp only
    by_cases hstored : storedOneTime p.deviceId p.keyId s.db = true
    · rw [if_neg fun hsel => hsel.2 hstored]
      -- The number was stored before, so by the index this is the old row.
      obtain ⟨q, hq, hqp⟩ := List.any_eq_true.mp hstored
      simp only [Bool.and_eq_true, beq_iff_eq] at hqp
      have hq' : q ∈ (refillInsert now prekeyId deviceId prekeys s.db).oneTimePrekeys :=
        Rows.mem_createManySkip_of_mem hq
      have hpq : q = p := hkeys.numbers.eq hq' hp (Prod.ext hqp.1 hqp.2)
      subst hpq
      exact h.oneTime q hq hfresh d hd hid
    · have hnow : storedOneTime p.deviceId p.keyId
          (refillInsert now prekeyId deviceId prekeys s.db) = true :=
        List.any_eq_true.mpr ⟨p, hp, by simp⟩
      rw [if_pos ⟨hnow, hstored⟩, ← hid]
      exact identityKey_eq hk hd

/-- A fetch only consumes, and a consumed prekey is not on offer. -/
theorem getDeviceKeyBundles_tagged {s : State} (h : Tagged s) (now : Time) (userId : Id) :
    Tagged (step configuredMax maxTotal s (.getDeviceKeyBundles now userId)) := by
  simp only [step, getDeviceKeyBundles]
  split
  · exact h
  · split
    · exact h
    · refine ⟨h.signed, ?_⟩
      intro p hp hfresh d hd hid
      obtain ⟨q, hq, rfl⟩ := Rows.mem_updateMany.mp hp
      by_cases hsel : ((prekeyByDevice (availablePrekeys (deviceKeys userId s.db) s.db)).map
          (·.id)).contains q.id = true
      · rw [if_pos hsel] at hfresh
        cases hfresh
      · rw [if_neg hsel] at hfresh hid ⊢
        exact h.oneTime q hq hfresh d hd hid

theorem step_tagged (s : State) (op : Op) (hk : Indexed s) (h : Tagged s)
    (hc : KeepsIdentity s op) : Tagged (step configuredMax maxTotal s op) := by
  cases op with
  | register now newId userId dto =>
      simp only [step]
      rcases register_cases configuredMax now newId userId dto s.db hk.devices with
        ⟨_, he⟩ | ⟨d, hd, hdto, hown, he⟩ | ⟨_, id, hfree, _, he⟩
      · rw [he]
        exact h
      · rw [he]
        exact h.reregistered hk hd now dto (hc d hd hdto hown)
      · rw [he]
        exact h.created hk hfree
  | deactivate userId deviceId =>
      simp only [step]
      rcases deactivate_cases userId deviceId s.db with he | he
      · rw [he]
        exact h
      · rw [he]
        exact h.switchedOff deviceId
  | rotateSignedPrekey now newId userId deviceId dto =>
      exact rotateSignedPrekey_tagged configuredMax maxTotal hk h now newId userId deviceId dto
  | refill now prekeyId userId deviceId prekeys =>
      exact refill_tagged configuredMax maxTotal hk h now prekeyId userId deviceId prekeys
  | getDeviceKeyBundles now userId =>
      exact getDeviceKeyBundles_tagged configuredMax maxTotal h now userId

end Uploads

/-- Consistency read off for one active device: some active signed prekey and some
unconsumed one-time prekey of it carry its identity key, if it has any. -/
theorem Consistent.offered {s : State} (h : Consistent s) {d : Device} (hd : d ∈ s.db.devices)
    (hact : d.active = true) :
    ((∃ p ∈ s.db.signedPrekeys, p.deviceId = d.id ∧ p.active = true) →
      ∃ p ∈ s.db.signedPrekeys, (p.deviceId = d.id ∧ p.active = true) ∧
        s.signedTag d.id p.keyId = some d.identityPublicKey) ∧
    ((∃ p ∈ s.db.oneTimePrekeys, p.deviceId = d.id ∧ p.consumedAt = none) →
      ∃ p ∈ s.db.oneTimePrekeys, (p.deviceId = d.id ∧ p.consumedAt = none) ∧
        s.oneTimeTag d.id p.keyId = some d.identityPublicKey) := by
  have hk := mem_deviceKeys.mpr ⟨d, hd, ⟨rfl, hact⟩, rfl⟩
  have hok : (getDeviceKeyBundles 0 d.userId s.db).1 = .ok (bundles (deviceKeys d.userId s.db)
      (prekeyByDevice (availablePrekeys (deviceKeys d.userId s.db) s.db))) := by
    unfold getDeviceKeyBundles
    dsimp only
    rw [if_neg]
    intro hempty
    rw [List.isEmpty_iff.mp hempty] at hk
    cases hk
  obtain ⟨hsigned, honeTime⟩ := h 0 d.userId _ hok _ (List.mem_map_of_mem hk)
  constructor
  · rintro ⟨p, hp, hdev, hon⟩
    cases hnew : Rows.newest (·.createdAt)
        (s.db.signedPrekeys.filter fun p => p.deviceId == d.id && p.active) with
    | none =>
        have hnil := Rows.newest_eq_none hnew
        have hmem : p ∈ s.db.signedPrekeys.filter fun p => p.deviceId == d.id && p.active :=
          List.mem_filter.mpr ⟨hp, by simp [hdev, hon]⟩
        rw [hnil] at hmem
        cases hmem
    | some q =>
        have hq := List.mem_filter.mp (Rows.newest_mem hnew)
        simp only [Bool.and_eq_true, beq_iff_eq] at hq
        exact ⟨q, hq.1, hq.2, hsigned q hnew⟩
  · rintro ⟨p, hp, hdev, hfresh⟩
    have hoffer : p ∈ availablePrekeys (deviceKeys d.userId s.db) s.db :=
      mem_availablePrekeys.mpr ⟨hp, List.mem_map.mpr ⟨_, hk, hdev.symm⟩, hfresh⟩
    obtain ⟨q, hq, hqdev⟩ := prekeyByDevice_covers hoffer
    cases hf : (prekeyByDevice (availablePrekeys (deviceKeys d.userId s.db) s.db)).find?
        (·.deviceId == d.id) with
    | none =>
        have hno := List.find?_eq_none.mp hf q hq
        simp [hqdev, hdev] at hno
    | some o =>
        have hodev : o.deviceId = d.id := by simpa using List.find?_some hf
        obtain ⟨hrow, _, hofresh⟩ :=
          mem_availablePrekeys.mp (mem_prekeyByDevice (List.mem_of_find?_eq_some hf))
        refine ⟨o, hrow, ⟨hodev, hofresh⟩, honeTime { keyId := o.keyId, publicKey := o.publicKey } ?_⟩
        dsimp only
        rw [hf]
        rfl

/-- A registration that replaces an identity key over prekeys on offer shows at once. -/
theorem keepsIdentity_of_consistent (configuredMax : Option Int) (maxTotal : Option Nat)
    (s : State) (op : Op) (hk : Indexed s) (h : Tagged s)
    (hc : Consistent (step configuredMax maxTotal s op)) : KeepsIdentity s op := by
  cases op with
  | register now newId userId dto =>
      intro d hd hdto hown hnew
      simp only [step] at hc
      rcases register_cases configuredMax now newId userId dto s.db hk.devices with
        ⟨hno, _⟩ | ⟨x, hx, hxdto, _, he⟩ | ⟨hno, _⟩
      · exact absurd hown (hno d hd hdto)
      · obtain rfl : x = d := hk.devices.eq hx hd (Option.some.inj (hxdto.symm.trans hdto))
        rw [he] at hc
        have hrow : reregister now dto x ∈
            Rows.updateMany (·.id == x.id) (reregister now dto) s.db.devices := by
          refine Rows.mem_updateMany.mpr ⟨x, hd, ?_⟩
          rw [if_pos (by simp)]
        obtain ⟨hsigned, honeTime⟩ := hc.offered hrow rfl
        constructor
        · intro p hp hdev
          by_contra hon
          obtain ⟨q, hq, ⟨hqdev, hqon⟩, htag⟩ :=
            hsigned ⟨p, hp, hdev, Bool.not_eq_false _ ▸ hon⟩
          have hold := h.signed q hq hqon x hd hqdev.symm
          rw [hqdev] at hold
          exact hnew (Option.some.inj (htag.symm.trans hold))
        · intro p hp hdev hfresh
          obtain ⟨q, hq, ⟨hqdev, hqfresh⟩, htag⟩ := honeTime ⟨p, hp, hdev, hfresh⟩
          have hold := h.oneTime q hq hqfresh x hd hqdev.symm
          rw [hqdev] at hold
          exact hnew (Option.some.inj (htag.symm.trans hold))
      · exact absurd hdto (hno d hd)
  | deactivate userId deviceId => trivial
  | rotateSignedPrekey now newId userId deviceId dto => trivial
  | refill now prekeyId userId deviceId prekeys => trivial
  | getDeviceKeyBundles now userId => trivial

/-- In every run of registrations, deactivations, rotations, refills and fetches from a store
without prekeys, the bundles on offer are consistent in every state exactly when no
registration replaces the identity key of a device with prekeys on offer. -/
theorem bundles_consistent_iff (configuredMax : Option Int) (maxTotal : Option Nat) (db : Db)
    (ops : List Op) (hk : Rows.Unique (·.id) db.devices) :
    Always (step configuredMax maxTotal) Consistent (start db) ops ↔
      Along (step configuredMax maxTotal) KeepsIdentity (start db) ops :=
  always_iff_along_of (fun s op h => step_indexed configuredMax maxTotal s op h)
    (fun _ _ h => consistent_of_tagged h)
    (fun s op hk h hc => step_tagged configuredMax maxTotal s op hk h hc)
    (fun s op hk h hc => keepsIdentity_of_consistent configuredMax maxTotal s op hk h hc) ops
    (start db) (start_indexed hk) (start_tagged db)

def sampleRegister (now : Time) (identityPublicKey : String) : Op :=
  .register now "unused" "bob" { deviceId := some "d2", platform := .ios, identityPublicKey }

/-- A device uploads a signed prekey and is then registered with another identity key. -/
def reinstalled : List Op :=
  [sampleRegister 0 "identity-public-key-1",
   .rotateSignedPrekey 1 "p1" "bob" "d2"
     { keyId := 1, publicKey := "signed-public-key-1", signature := "signed-by-identity-1" },
   sampleRegister 2 "identity-public-key-2"]

/-- The bundle pairs the new identity key with the prekey of the old one. -/
theorem reregistration_mixes_keys :
    ¬ ∀ (configuredMax : Option Int) (maxTotal : Option Nat) (db : Db) (ops : List Op),
      Rows.Unique (·.id) db.devices →
      Always (step configuredMax maxTotal) Consistent (start db) ops := by
  intro h
  have hlast := h none none {} reinstalled List.nodup_nil reinstalled (List.prefix_refl _)
  have hbundle := hlast 3 "bob"
    [{ deviceId := "d2", userId := "bob", platform := .ios
       identityPublicKey := "identity-public-key-2"
       signedPrekey := some { id := "p1", deviceId := "d2", keyId := 1
                              publicKey := "signed-public-key-1"
                              signature := "signed-by-identity-1", createdAt := 1 }
       oneTimePrekey := none }] (by decide) _ List.mem_cons_self
  have htag := hbundle.1 _ rfl
  revert htag
  decide

/-- Registering with the same identity key keeps the bundles consistent. -/
theorem same_identity_consistent :
    Always (step none none) Consistent (start {})
      [sampleRegister 0 "identity-public-key-1",
       .rotateSignedPrekey 1 "p1" "bob" "d2"
         { keyId := 1, publicKey := "signed-public-key-1", signature := "signed-by-identity-1" },
       sampleRegister 2 "identity-public-key-1"] := by
  apply (bundles_consistent_iff none none {} _ List.nodup_nil).mpr
  simp only [along_cons]
  refine ⟨?_, trivial, ?_, along_nil _ _ _⟩
  · intro d hd
    cases hd
  · intro d hd _ _ hnew
    exfalso
    revert d
    decide

end Birgap.Keys.Identity
