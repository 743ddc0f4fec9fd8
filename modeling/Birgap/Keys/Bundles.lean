import Birgap.Keys.OneTime
import Birgap.Lib.Paging

/-!
# What a fetch of key bundles hands out

The queries of `getDeviceKeyBundles` sort by creation time alone, so rows of equal time come in
an order that is up to the engine. The fetch is followed here under every such order: the
grouping by first occurrence keeps the oldest prekey of each device, and the bulk update by id
hits the rows that were handed out and no other.
-/
namespace Birgap.Keys.Bundles

set_option autoImplicit false

open Birgap.Lib Birgap.Lib.Paging Birgap.Keys Birgap.Keys.OneTime

/-- The arrangements of the three queries. -/
structure Orders where
  devices : OrderBy fun d : Device => d.createdAt
  signedPrekeys : OrderBy fun p : SignedPrekey => OrderDual.toDual p.createdAt
  oneTimePrekeys : OrderBy fun p : OneTimePrekey => p.createdAt

/-- Rows of equal time as they are stored. -/
def Orders.stable : Orders where
  devices := .stable _
  signedPrekeys := .stable _
  oneTimePrekeys := .stable _

def isActiveOf (userId : Id) (d : Device) : Bool := d.userId == userId && d.active

def activePrekeysOf (deviceId : Id) (db : Db) : List SignedPrekey :=
  db.signedPrekeys.filter fun p => p.deviceId == deviceId && p.active

def keysOf (o : Orders) (db : Db) (d : Device) : DeviceKeys :=
  { id := d.id, userId := d.userId, platform := d.platform
    identityPublicKey := d.identityPublicKey
    signedPrekey := (o.signedPrekeys.arrange (activePrekeysOf d.id db)).head? }

def deviceRows (o : Orders) (userId : Id) (db : Db) : List Device :=
  o.devices.arrange (db.devices.filter (isActiveOf userId))

/-- The first query of `getDeviceKeyBundles`. -/
def findDevices (o : Orders) (userId : Id) (db : Db) : List DeviceKeys :=
  (deviceRows o userId db).map (keysOf o db)

/-- The second query. -/
def findPrekeys (o : Orders) (devices : List DeviceKeys) (db : Db) : List OneTimePrekey :=
  o.oneTimePrekeys.arrange (db.oneTimePrekeys.filter fun p =>
    (devices.map (·.id)).contains p.deviceId && p.consumedAt.isNone)

/-- `UsersService.getDeviceKeyBundles`. -/
def getDeviceKeyBundlesBy (o : Orders) (now : Time) (userId : Id) (db : Db) :
    Except Err (List KeyBundle) × Db :=
  let devices := findDevices o userId db
  if devices.isEmpty then (.error (.notFound "No active devices found for user"), db)
  else
    let chosen := prekeyByDevice (findPrekeys o devices db)
    (.ok (bundles devices chosen), if chosen.isEmpty then db else consume now chosen db)

/-- The primary key and the unique index of the one-time prekeys. -/
structure Indexed (db : Db) : Prop where
  ids : Rows.Unique (·.id) db.oneTimePrekeys
  keys : Rows.Unique key db.oneTimePrekeys

/-- The one-time prekeys that a device has left. -/
def IsAvailable (deviceId : Id) (db : Db) (p : OneTimePrekey) : Prop :=
  p ∈ db.oneTimePrekeys ∧ p.deviceId = deviceId ∧ p.consumedAt = none

def IsActive (deviceId : Id) (db : Db) (p : SignedPrekey) : Prop :=
  p ∈ db.signedPrekeys ∧ p.deviceId = deviceId ∧ p.active = true

/-- The bundle of a device in a store. -/
structure BundleOf (db : Db) (d : Device) (b : KeyBundle) : Prop where
  deviceId : b.deviceId = d.id
  userId : b.userId = d.userId
  platform : b.platform = d.platform
  identityPublicKey : b.identityPublicKey = d.identityPublicKey
  signed : ∀ p, b.signedPrekey = some p → IsActive d.id db p ∧
    ∀ q, IsActive d.id db q → q.createdAt ≤ p.createdAt
  unsigned : b.signedPrekey = none ↔ ∀ q, ¬ IsActive d.id db q
  oneTime : ∀ k, b.oneTimePrekey = some k → ∃ p, IsAvailable d.id db p ∧
    k = { keyId := p.keyId, publicKey := p.publicKey } ∧
    ∀ q, IsAvailable d.id db q → p.createdAt ≤ q.createdAt
  exhausted : b.oneTimePrekey = none ↔ ∀ q, ¬ IsAvailable d.id db q

/-- What is handed out has become consumed, and nothing else has changed. -/
def consumed (now : Time) (bs : List KeyBundle) (p : OneTimePrekey) : OneTimePrekey :=
  if key p ∈ prekeysOf bs then { p with consumedAt := some now } else p

/-! ## The settled order -/

theorem newest_eq (rows : List SignedPrekey) :
    Rows.newest (·.createdAt) rows = (Orders.stable.signedPrekeys.arrange rows).head? := by
  show _ = (rows.insertionSort fun a b => b.createdAt ≤ a.createdAt).head?
  induction rows with
  | nil => rfl
  | cons r rows ih =>
      rw [Rows.newest, ih, List.insertionSort_cons]
      cases hs : rows.insertionSort fun a b : SignedPrekey => b.createdAt ≤ a.createdAt with
      | nil => rfl
      | cons s rest =>
          rw [List.orderedInsert]
          by_cases hle : s.createdAt ≤ r.createdAt
          · rw [if_pos hle]
            exact if_pos hle
          · rw [if_neg hle]
            exact if_neg hle

/-- With rows of equal time in the order they are stored, the fetch is `getDeviceKeyBundles`. -/
theorem getDeviceKeyBundlesBy_stable (now : Time) (userId : Id) (db : Db) :
    getDeviceKeyBundlesBy .stable now userId db = getDeviceKeyBundles now userId db := by
  have hdevices : findDevices .stable userId db = deviceKeys userId db := by
    unfold findDevices deviceKeys
    apply List.map_congr_left
    intro d _
    unfold keysOf activePrekeysOf
    rw [newest_eq]
  unfold getDeviceKeyBundlesBy getDeviceKeyBundles
  rw [hdevices]
  rfl

/-! ## The queries -/

section Queries

variable {o : Orders} {userId : Id} {db : Db}

theorem mem_findPrekeys {devices : List DeviceKeys} {p : OneTimePrekey} :
    p ∈ findPrekeys o devices db ↔
      p ∈ db.oneTimePrekeys ∧ p.deviceId ∈ devices.map (·.id) ∧ p.consumedAt = none := by
  unfold findPrekeys
  rw [o.oneTimePrekeys.mem_arrange, List.mem_filter, Bool.and_eq_true, List.contains_iff_mem,
    Option.isNone_iff_eq_none]

/-- Of a listed device the query returns what the device has left. -/
theorem mem_findPrekeys_of {devices : List DeviceKeys} {k : DeviceKeys} (hk : k ∈ devices)
    {p : OneTimePrekey} :
    p ∈ findPrekeys o devices db ∧ p.deviceId = k.id ↔ IsAvailable k.id db p := by
  rw [mem_findPrekeys]
  constructor
  · intro h
    exact ⟨h.1.1, h.2, h.1.2.2⟩
  · intro h
    obtain ⟨hp, hdevice, hleft⟩ := h
    exact ⟨⟨hp, hdevice ▸ List.mem_map_of_mem hk, hleft⟩, hdevice⟩

theorem mem_activePrekeysOf {deviceId : Id} {p : SignedPrekey} :
    p ∈ activePrekeysOf deviceId db ↔ IsActive deviceId db p := by
  unfold activePrekeysOf IsActive
  simp [List.mem_filter]

/-- The map of the source keeps the first prekey of each device. -/
theorem find?_prekeyByDevice (prekeys : List OneTimePrekey) (deviceId : Id) :
    (prekeyByDevice prekeys).find? (·.deviceId == deviceId) =
      prekeys.find? (·.deviceId == deviceId) :=
  Rows.find?_createManySkip (fun p : OneTimePrekey => p.deviceId) deviceId prekeys []

/-- The prekey chosen for a listed device is the oldest it has left. -/
theorem chosen_oldest {devices : List DeviceKeys} {k : DeviceKeys} (hk : k ∈ devices)
    {p : OneTimePrekey}
    (hp : (prekeyByDevice (findPrekeys o devices db)).find? (·.deviceId == k.id) = some p) :
    IsAvailable k.id db p ∧ ∀ q, IsAvailable k.id db q → p.createdAt ≤ q.createdAt := by
  rw [find?_prekeyByDevice] at hp
  have hdevice : p.deviceId = k.id := by simpa using List.find?_some hp
  refine ⟨(mem_findPrekeys_of hk).mp ⟨List.mem_of_find?_eq_some hp, hdevice⟩, ?_⟩
  intro q hq
  obtain ⟨hmem, hqdevice⟩ := (mem_findPrekeys_of (o := o) hk).mpr hq
  exact find?_least (o.oneTimePrekeys.sorted _) hp q hmem (beq_iff_eq.mpr hqdevice)

theorem chosen_none_iff {devices : List DeviceKeys} {k : DeviceKeys} (hk : k ∈ devices) :
    (prekeyByDevice (findPrekeys o devices db)).find? (·.deviceId == k.id) = none ↔
      ∀ q, ¬ IsAvailable k.id db q := by
  rw [find?_prekeyByDevice, List.find?_eq_none]
  constructor
  · intro h q hq
    obtain ⟨hmem, hdevice⟩ := (mem_findPrekeys_of (o := o) hk).mpr hq
    exact h q hmem (beq_iff_eq.mpr hdevice)
  · intro h q hq hdevice
    exact h q ((mem_findPrekeys_of hk).mp ⟨hq, beq_iff_eq.mp hdevice⟩)

end Queries

/-! ## The fetch -/

section Fetch

variable {o : Orders} {now : Time} {userId : Id} {db : Db}

/-- The bundle of a device in the list that the source builds. -/
theorem bundle_of {d : Device} (hd : d ∈ deviceRows o userId db) {b : KeyBundle}
    (hb : bundles [keysOf o db d]
      (prekeyByDevice (findPrekeys o (findDevices o userId db) db)) = [b]) : BundleOf db d b := by
  have hk : keysOf o db d ∈ findDevices o userId db := List.mem_map_of_mem hd
  obtain rfl := List.singleton_inj.mp hb
  constructor
  · rfl
  · rfl
  · rfl
  · rfl
  · intro p hp
    obtain ⟨hmem, hmax⟩ := o.signedPrekeys.head?_least hp
    exact ⟨mem_activePrekeysOf.mp hmem, fun q hq => hmax q (mem_activePrekeysOf.mpr hq)⟩
  · show (o.signedPrekeys.arrange (activePrekeysOf d.id db)).head? = none ↔ _
    rw [o.signedPrekeys.head?_eq_none, List.eq_nil_iff_forall_not_mem]
    exact forall_congr' fun q => not_congr mem_activePrekeysOf
  · intro k hkey
    obtain ⟨p, hp, rfl⟩ := Option.map_eq_some_iff.mp hkey
    obtain ⟨hleft, holdest⟩ := chosen_oldest hk hp
    exact ⟨p, hleft, rfl, holdest⟩
  · show Option.map _ _ = none ↔ _
    rw [Option.map_eq_none_iff]
    exact chosen_none_iff hk

theorem consume_nil : consume now [] db = db := by
  unfold consume
  rw [Rows.updateMany_eq_self]
  intro p _
  rfl

/-- The chosen rows are the rows with the numbers handed out. -/
theorem chosen_contains (h : Indexed db) {devices : List DeviceKeys} {p : OneTimePrekey}
    (hp : p ∈ db.oneTimePrekeys) :
    ((prekeyByDevice (findPrekeys o devices db)).map (·.id)).contains p.id = true ↔
      key p ∈ prekeysOf (bundles devices (prekeyByDevice (findPrekeys o devices db))) := by
  have hstored : ∀ q ∈ prekeyByDevice (findPrekeys o devices db),
      q ∈ db.oneTimePrekeys ∧ q.deviceId ∈ devices.map (·.id) := by
    intro q hq
    obtain ⟨hmem, hdevice, _⟩ := mem_findPrekeys.mp (mem_prekeyByDevice hq)
    exact ⟨hmem, hdevice⟩
  rw [mem_prekeysOf_bundles (prekeyByDevice_unique _) fun q hq => (hstored q hq).2,
    List.contains_iff_mem, List.mem_map]
  constructor
  · intro hid
    obtain ⟨q, hq, hid⟩ := hid
    obtain rfl := h.ids.eq (hstored q hq).1 hp hid
    exact ⟨q, hq, rfl⟩
  · intro hkey
    obtain ⟨q, hq, hkey⟩ := hkey
    obtain rfl := h.keys.eq (hstored q hq).1 hp hkey
    exact ⟨q, hq, rfl⟩

end Fetch

/-- Under every order of rows of equal time, a fetch returns a bundle for each active device of
the user by time of creation, each the bundle of its device, and of all rows it changes the
prekeys it has returned and no other. -/
theorem bundles_exact (o : Orders) (now : Time) (userId : Id) {db : Db} (h : Indexed db)
    (hactive : ∃ d ∈ db.devices, d.userId = userId ∧ d.active = true) :
    ∃ (devices : List Device) (bs : List KeyBundle),
      (getDeviceKeyBundlesBy o now userId db).1 = .ok bs ∧
      devices.Perm (db.devices.filter (isActiveOf userId)) ∧
      devices.Pairwise (fun a b => a.createdAt ≤ b.createdAt) ∧
      List.Forall₂ (BundleOf db) devices bs ∧
      (getDeviceKeyBundlesBy o now userId db).2 =
        { db with oneTimePrekeys := db.oneTimePrekeys.map (consumed now bs) } := by
  have hsome : (findDevices o userId db).isEmpty = false := by
    obtain ⟨d, hd, hown, hon⟩ := hactive
    have hrow : d ∈ deviceRows o userId db := by
      unfold deviceRows
      rw [o.devices.mem_arrange, List.mem_filter]
      exact ⟨hd, by simp [isActiveOf, hown, hon]⟩
    rw [List.isEmpty_eq_false_iff]
    exact List.ne_nil_of_mem (List.mem_map_of_mem hrow)
  have hfetch : getDeviceKeyBundlesBy o now userId db =
      (.ok (bundles (findDevices o userId db)
          (prekeyByDevice (findPrekeys o (findDevices o userId db) db))),
        consume now (prekeyByDevice (findPrekeys o (findDevices o userId db) db)) db) := by
    unfold getDeviceKeyBundlesBy
    dsimp only
    rw [hsome, if_neg Bool.false_ne_true]
    split
    · rename_i hnone
      rw [List.isEmpty_iff.mp hnone, consume_nil]
    · rfl
  refine ⟨deviceRows o userId db, _, congrArg Prod.fst hfetch, o.devices.perm _, o.devices.sorted _,
    ?_, ?_⟩
  · unfold findDevices bundles
    rw [List.forall₂_map_right_iff, List.forall₂_map_right_iff, List.forall₂_same]
    intro d hd
    exact bundle_of hd rfl
  · rw [hfetch]
    show { db with oneTimePrekeys := Rows.updateMany _ _ _ } = _
    congr 1
    apply List.map_congr_left
    intro p hp
    unfold consumed
    exact if_congr (chosen_contains h hp) rfl rfl

/-- Bob's two devices, the newer one stored first, with prekeys of each. -/
def twoDevices : Db :=
  { devices :=
      [{ id := "d3", userId := "bob", platform := .android, identityPublicKey := "ik3"
         createdAt := 2 },
        { id := "d2", userId := "bob", platform := .ios, identityPublicKey := "ik2"
          createdAt := 1 }]
    signedPrekeys :=
      [{ id := "s1", deviceId := "d2", keyId := 1, publicKey := "spk1", signature := "sig1"
         createdAt := 1 }]
    oneTimePrekeys :=
      [{ id := "p1", deviceId := "d2", keyId := 7, publicKey := "pk7", createdAt := 3 },
        { id := "p2", deviceId := "d2", keyId := 8, publicKey := "pk8", createdAt := 1 },
        { id := "p3", deviceId := "d3", keyId := 7, publicKey := "pk7", createdAt := 2
          consumedAt := some 4 },
        { id := "p4", deviceId := "d3", keyId := 9, publicKey := "pk9", createdAt := 5 }] }

/-- Each device gives its oldest prekey that is left, and those two become consumed. -/
theorem bundles_exact_sample :
    (getDeviceKeyBundlesBy .stable 6 "bob" twoDevices).2.oneTimePrekeys.map (·.consumedAt) =
      [none, some 6, some 4, some 6] ∧
    ∃ devices bs, (getDeviceKeyBundlesBy .stable 6 "bob" twoDevices).1 = .ok bs ∧
      devices.Perm (twoDevices.devices.filter (isActiveOf "bob")) ∧
      devices.Pairwise (fun a b => a.createdAt ≤ b.createdAt) ∧
      List.Forall₂ (BundleOf twoDevices) devices bs ∧
      (getDeviceKeyBundlesBy .stable 6 "bob" twoDevices).2 =
        { twoDevices with oneTimePrekeys := twoDevices.oneTimePrekeys.map (consumed 6 bs) } := by
  have hindexed : Indexed twoDevices := ⟨by decide, by decide⟩
  refine ⟨by decide, ?_⟩
  exact bundles_exact .stable 6 "bob" hindexed ⟨_, List.mem_cons_self, rfl, rfl⟩

end Birgap.Keys.Bundles
