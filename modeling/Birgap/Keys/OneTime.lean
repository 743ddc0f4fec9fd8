import Birgap.Keys.Service
import Birgap.Lib.Run
import Mathlib.Logic.Function.Basic

/-!
# One-time prekeys under concurrent fetches

The statements of `refill` and `getDeviceKeyBundles` calls interleave freely, each
reading committed data. A fetch selects prekeys in one statement and consumes them in a
later one that does not look at `consumedAt` again, so a prekey is handed out twice exactly
when a fetch commits a prekey that another fetch consumed after it was selected.
-/
namespace Birgap.Keys.OneTime

set_option autoImplicit false

open Birgap.Lib Birgap.Lib.Run Birgap.Keys

/-- How far a call in flight has come. -/
inductive Flight where
  | idle
  | owned (deviceId : Id) (prekeys : List OneTimePrekeyDto)
  | counted (deviceId : Id) (prekeys : List OneTimePrekeyDto)
  | fetching (devices : List DeviceKeys)
  | selected (devices : List DeviceKeys) (chosen : List OneTimePrekey)

/-- The store, the calls in flight, and every bundle returned so far. -/
structure State where
  db : Db
  flights : Nat → Flight
  returned : List KeyBundle

/-- One statement of the call with number `pid`. The update of a fetch becomes visible when
its transaction commits, and nothing is read in between, so the two are one step. -/
inductive Act where
  | refillOwner (pid : Nat) (userId deviceId : Id) (prekeys : List OneTimePrekeyDto)
  | refillCount (pid : Nat) (maxTotal : Nat)
  | refillInsert (pid : Nat) (now : Time) (prekeyId : Nat → Id)
  | fetchDevices (pid : Nat) (userId : Id)
  | fetchSelect (pid : Nat)
  | fetchCommit (pid : Nat) (now : Time)
  | fail (pid : Nat)

def State.set (s : State) (pid : Nat) (f : Flight) : State :=
  { s with flights := Function.update s.flights pid f }

def step (s : State) : Act → State
  | .refillOwner pid userId deviceId prekeys =>
      match s.flights pid, assertDeviceOwner userId deviceId s.db with
      | .idle, .ok () => s.set pid (.owned deviceId prekeys)
      | _, _ => s
  | .refillCount pid maxTotal =>
      match s.flights pid with
      | .owned deviceId prekeys =>
          match refillCheck maxTotal deviceId prekeys s.db with
          | .ok () => s.set pid (.counted deviceId prekeys)
          | .error _ => s.set pid .idle
      | _ => s
  | .refillInsert pid now prekeyId =>
      match s.flights pid with
      | .counted deviceId prekeys =>
          { s.set pid .idle with db := Keys.refillInsert now prekeyId deviceId prekeys s.db }
      | _ => s
  | .fetchDevices pid userId =>
      match s.flights pid with
      | .idle =>
          let devices := deviceKeys userId s.db
          if devices.isEmpty then s else s.set pid (.fetching devices)
      | _ => s
  | .fetchSelect pid =>
      match s.flights pid with
      | .fetching devices =>
          s.set pid (.selected devices (prekeyByDevice (availablePrekeys devices s.db)))
      | _ => s
  | .fetchCommit pid now =>
      match s.flights pid with
      | .selected devices chosen =>
          { s.set pid .idle with
            db := consume now chosen s.db
            returned := s.returned ++ bundles devices chosen }
      | _ => s
  | .fail pid => s.set pid .idle

def start (db : Db) : State := { db, flights := fun _ => .idle, returned := [] }

def key (p : OneTimePrekey) : Id × Nat := (p.deviceId, p.keyId)

/-- Every one-time prekey is in at most one returned bundle. -/
def HandedOutOnce (s : State) : Prop := (prekeysOf s.returned).Nodup

/-- The prekeys a fetch has selected and not yet consumed. -/
def Flight.chosen : Flight → List OneTimePrekey
  | .selected _ chosen => chosen
  | _ => []

/-- A fetch commits only prekeys that are still unconsumed. -/
def StillUnconsumed (s : State) : Act → Prop
  | .fetchCommit pid _ =>
      ∀ p ∈ (s.flights pid).chosen, ∀ r ∈ s.db.oneTimePrekeys, r.id = p.id → r.consumedAt = none
  | _ => True

/-- What a call holds while it is in flight. A chosen prekey is stored, and has been
returned if it is no longer available. -/
def FlightOk (db : Db) (returned : List KeyBundle) : Flight → Prop
  | .fetching devices => Rows.Unique (·.id) devices
  | .selected devices chosen =>
      Rows.Unique (·.id) devices ∧ Rows.Unique (·.deviceId) chosen ∧
      ∀ p ∈ chosen, p.deviceId ∈ devices.map (·.id) ∧
        ∃ r ∈ db.oneTimePrekeys, r.id = p.id ∧ key r = key p ∧
          (r.consumedAt = none ∨ key p ∈ prekeysOf returned)
  | _ => True

/-- The invariant of every run: the indexes, and that the returned prekeys are exactly
among the consumed ones. -/
structure Wf (s : State) : Prop where
  devices : Rows.Unique (·.id) s.db.devices
  ids : Rows.Unique (·.id) s.db.oneTimePrekeys
  keys : Rows.Unique key s.db.oneTimePrekeys
  stored : ∀ k ∈ prekeysOf s.returned, ∃ r ∈ s.db.oneTimePrekeys, key r = k
  unconsumed : ∀ r ∈ s.db.oneTimePrekeys, r.consumedAt = none → key r ∉ prekeysOf s.returned
  flights : ∀ pid, FlightOk s.db s.returned (s.flights pid)

theorem start_wf {db : Db} (hd : Rows.Unique (·.id) db.devices)
    (hi : Rows.Unique (·.id) db.oneTimePrekeys) (hk : Rows.Unique key db.oneTimePrekeys) :
    Wf (start db) := by
  constructor
  · exact hd
  · exact hi
  · exact hk
  · intro k h
    cases h
  · intro r _ _ h
    cases h
  · intro pid
    trivial

/-- A step that moves one call and leaves the store alone. -/
theorem Wf.set {s : State} (h : Wf s) (pid : Nat) {f : Flight} (hf : FlightOk s.db s.returned f) :
    Wf (s.set pid f) := by
  refine ⟨h.devices, h.ids, h.keys, h.stored, h.unconsumed, ?_⟩
  exact (Function.forall_update_iff s.flights fun _ f => FlightOk s.db s.returned f).mpr
    ⟨hf, fun q _ => h.flights q⟩

/-- Selecting reads unconsumed rows of the devices, one for each. -/
theorem select_flightOk {s : State} {devices : List DeviceKeys}
    (hd : Rows.Unique (·.id) devices) :
    FlightOk s.db s.returned (.selected devices (prekeyByDevice (availablePrekeys devices s.db))) := by
  refine ⟨hd, prekeyByDevice_unique _, ?_⟩
  intro p hp
  obtain ⟨hmem, hdev, hnull⟩ := mem_availablePrekeys.mp (mem_prekeyByDevice hp)
  exact ⟨hdev, p, hmem, rfl, rfl, Or.inl hnull⟩

/-- New rows have keys that were never stored, so none of them was returned. -/
theorem refill_wf {s : State} (h : Wf s) (pid : Nat) (now : Time) (prekeyId : Nat → Id)
    (deviceId : Id) (prekeys : List OneTimePrekeyDto) :
    Wf { s.set pid .idle with db := Keys.refillInsert now prekeyId deviceId prekeys s.db } := by
  have hidle := h.set pid (f := .idle) trivial
  have hold : ∀ r ∈ s.db.oneTimePrekeys,
      r ∈ (Keys.refillInsert now prekeyId deviceId prekeys s.db).oneTimePrekeys :=
    fun r hr => Rows.mem_createManySkip_of_mem hr
  have hkeys : Rows.Unique key (Keys.refillInsert now prekeyId deviceId prekeys s.db).oneTimePrekeys := by
    refine Rows.unique_createManySkip (fun a b hab => ?_) h.keys
    obtain ⟨hdev, hid⟩ := Prod.mk.inj hab
    simp [prekeyClash, hdev, hid]
  constructor
  · exact h.devices
  · exact Rows.unique_createManySkip (fun a b hab => by simp [prekeyClash, hab]) h.ids
  · exact hkeys
  · intro k hk
    obtain ⟨r, hr, he⟩ := h.stored k hk
    exact ⟨r, hold r hr, he⟩
  · intro r hr hnull hret
    obtain ⟨r₀, hr₀, he⟩ := h.stored _ hret
    obtain rfl := hkeys.eq (hold r₀ hr₀) hr he
    exact h.unconsumed r₀ hr₀ hnull hret
  · intro q
    have hq := hidle.flights q
    revert hq
    show FlightOk s.db s.returned (Function.update s.flights pid .idle q) →
      FlightOk _ s.returned (Function.update s.flights pid .idle q)
    cases Function.update s.flights pid .idle q with
    | idle => exact fun _ => trivial
    | owned deviceId prekeys => exact fun _ => trivial
    | counted deviceId prekeys => exact fun _ => trivial
    | fetching devices => exact fun hq => hq
    | selected devices chosen =>
        rintro ⟨hd, hu, hch⟩
        refine ⟨hd, hu, ?_⟩
        intro p hp
        obtain ⟨hdev, r, hr, hrest⟩ := hch p hp
        exact ⟨hdev, r, hold r hr, hrest⟩

section Commit

variable {s : State} {devices : List DeviceKeys} {chosen : List OneTimePrekey}

theorem mem_returned (hf : FlightOk s.db s.returned (.selected devices chosen)) {k : Id × Nat} :
    k ∈ prekeysOf (s.returned ++ bundles devices chosen) ↔
      k ∈ prekeysOf s.returned ∨ ∃ p ∈ chosen, key p = k := by
  rw [prekeysOf_append, List.mem_append]
  exact or_congr_right (mem_prekeysOf_bundles hf.2.1 fun p hp => (hf.2.2 p hp).1)

/-- The stored row of a chosen prekey. -/
theorem chosen_row (hw : Wf s) (hf : FlightOk s.db s.returned (.selected devices chosen))
    {p r : OneTimePrekey} (hp : p ∈ chosen) (hr : r ∈ s.db.oneTimePrekeys) (hid : r.id = p.id) :
    key r = key p ∧ (r.consumedAt = none ∨ key p ∈ prekeysOf s.returned) := by
  obtain ⟨_, r₀, hr₀, hid₀, hrest⟩ := hf.2.2 p hp
  obtain rfl := hw.ids.eq hr hr₀ (hid.trans hid₀.symm)
  exact hrest

/-- The commit keeps what every other call in flight holds: a row it consumes is returned. -/
theorem commit_flightOk (hw : Wf s) (hf : FlightOk s.db s.returned (.selected devices chosen))
    (now : Time) {f : Flight} (h : FlightOk s.db s.returned f) :
    FlightOk (consume now chosen s.db) (s.returned ++ bundles devices chosen) f := by
  cases f with
  | idle => trivial
  | owned deviceId prekeys => trivial
  | counted deviceId prekeys => trivial
  | fetching devices => exact h
  | selected devices' chosen' =>
      obtain ⟨hd, hu, hch⟩ := h
      refine ⟨hd, hu, ?_⟩
      intro p hp
      obtain ⟨hdev, r, hr, hid, hkey, hfree⟩ := hch p hp
      refine ⟨hdev, _, Rows.mem_updateMany.mpr ⟨r, hr, rfl⟩, ?_⟩
      rw [mem_returned hf]
      by_cases hc : r.id ∈ chosen.map (·.id)
      · rw [if_pos (List.contains_iff_mem.mpr hc)]
        obtain ⟨p₁, hp₁, hid₁⟩ := List.mem_map.mp hc
        have hk₁ := (chosen_row hw hf hp₁ hr hid₁.symm).1
        exact ⟨hid, hkey, Or.inr (Or.inr ⟨p₁, hp₁, hk₁.symm.trans hkey⟩)⟩
      · rw [if_neg (fun h => hc (List.contains_iff_mem.mp h))]
        exact ⟨hid, hkey, hfree.imp_right Or.inl⟩

theorem commit_wf (hw : Wf s) (hf : FlightOk s.db s.returned (.selected devices chosen))
    (pid : Nat) (now : Time) :
    Wf { s.set pid .idle with
      db := consume now chosen s.db
      returned := s.returned ++ bundles devices chosen } := by
  have hidle := hw.set pid (f := .idle) trivial
  have hrow : ∀ r ∈ s.db.oneTimePrekeys,
      ∃ r' ∈ (consume now chosen s.db).oneTimePrekeys, key r' = key r := by
    intro r hr
    refine ⟨_, Rows.mem_updateMany.mpr ⟨r, hr, rfl⟩, ?_⟩
    split <;> rfl
  constructor
  · exact hw.devices
  · exact Rows.unique_updateMany (f := fun p => { p with consumedAt := some now }) (fun _ => rfl) hw.ids
  · exact Rows.unique_updateMany (f := fun p => { p with consumedAt := some now }) (fun _ => rfl) hw.keys
  · intro k hk
    have hold : ∃ r ∈ s.db.oneTimePrekeys, key r = k := by
      rcases (mem_returned hf).mp hk with hk | ⟨p, hp, rfl⟩
      · exact hw.stored k hk
      · obtain ⟨_, r, hr, _, hkey, _⟩ := hf.2.2 p hp
        exact ⟨r, hr, hkey⟩
    obtain ⟨r, hr, rfl⟩ := hold
    exact hrow r hr
  · intro r' hr' hnull hret
    obtain ⟨r, hr, rfl⟩ := Rows.mem_updateMany.mp hr'
    by_cases hc : r.id ∈ chosen.map (·.id)
    · rw [if_pos (List.contains_iff_mem.mpr hc)] at hnull
      cases hnull
    · rw [if_neg (fun h => hc (List.contains_iff_mem.mp h))] at hnull hret
      rcases (mem_returned hf).mp hret with hret | ⟨p, hp, hkey⟩
      · exact hw.unconsumed r hr hnull hret
      · obtain ⟨_, r₀, hr₀, hid₀, hkey₀, _⟩ := hf.2.2 p hp
        obtain rfl := hw.keys.eq hr hr₀ (hkey.symm.trans hkey₀.symm)
        exact hc (List.mem_map.mpr ⟨p, hp, hid₀.symm⟩)
  · intro q
    exact commit_flightOk hw hf now (hidle.flights q)

/-- The bundles of a commit repeat no earlier one exactly when what they hold is still
unconsumed. -/
theorem commit_once_iff (hw : Wf s) (ho : HandedOutOnce s)
    (hf : FlightOk s.db s.returned (.selected devices chosen)) :
    (prekeysOf (s.returned ++ bundles devices chosen)).Nodup ↔
      ∀ p ∈ chosen, ∀ r ∈ s.db.oneTimePrekeys, r.id = p.id → r.consumedAt = none := by
  have hnew : ∀ k, k ∈ prekeysOf (bundles devices chosen) ↔ ∃ p ∈ chosen, key p = k :=
    fun k => mem_prekeysOf_bundles hf.2.1 fun p hp => (hf.2.2 p hp).1
  rw [prekeysOf_append, List.nodup_append]
  constructor
  · rintro ⟨_, _, hdisj⟩ p hp r hr hid
    obtain ⟨_, hnull | hret⟩ := chosen_row hw hf hp hr hid
    · exact hnull
    · exact absurd rfl (hdisj _ hret _ ((hnew _).mpr ⟨p, hp, rfl⟩))
  · intro hfree
    refine ⟨ho, prekeysOf_bundles_nodup hf.1, ?_⟩
    intro k hk k' hk' he
    subst he
    obtain ⟨p, hp, hpk⟩ := (hnew k).mp hk'
    obtain ⟨_, r, hr, hid, hkey, _⟩ := hf.2.2 p hp
    apply hw.unconsumed r hr (hfree p hp r hr hid)
    rw [hkey]
    exact hpk ▸ hk

end Commit

theorem step_wf (s : State) (a : Act) (h : Wf s) : Wf (step s a) := by
  cases a with
  | refillOwner pid userId deviceId prekeys =>
      simp only [step]
      split
      · exact h.set pid trivial
      · exact h
  | refillCount pid maxTotal =>
      simp only [step]
      split
      · split
        · exact h.set pid trivial
        · exact h.set pid trivial
      · exact h
  | refillInsert pid now prekeyId =>
      simp only [step]
      split
      · exact refill_wf h pid now prekeyId _ _
      · exact h
  | fetchDevices pid userId =>
      simp only [step]
      split
      · split
        · exact h
        · exact h.set pid (deviceKeys_unique h.devices)
      · exact h
  | fetchSelect pid =>
      simp only [step]
      split
      · rename_i devices hp
        have hf := h.flights pid
        rw [hp] at hf
        exact h.set pid (select_flightOk hf)
      · exact h
  | fetchCommit pid now =>
      simp only [step]
      split
      · rename_i devices chosen hp
        have hf := h.flights pid
        rw [hp] at hf
        exact commit_wf h hf pid now
      · exact h
  | fail pid => exact h.set pid trivial

/-- Only a commit returns bundles. -/
theorem step_once_iff (s : State) (a : Act) (hw : Wf s) (ho : HandedOutOnce s) :
    HandedOutOnce (step s a) ↔ StillUnconsumed s a := by
  cases a with
  | fetchCommit pid now =>
      simp only [StillUnconsumed, step]
      split
      · rename_i devices chosen hp
        have hf := hw.flights pid
        rw [hp] at hf
        rw [hp]
        exact commit_once_iff hw ho hf
      · rename_i hp
        refine ⟨fun _ p hc => ?_, fun _ => ho⟩
        cases hfl : s.flights pid with
        | selected devices chosen => exact absurd hfl (hp devices chosen)
        | idle => rw [hfl] at hc; cases hc
        | owned deviceId prekeys => rw [hfl] at hc; cases hc
        | counted deviceId prekeys => rw [hfl] at hc; cases hc
        | fetching devices => rw [hfl] at hc; cases hc
  | refillOwner pid userId deviceId prekeys =>
      refine ⟨fun _ => trivial, fun _ => ?_⟩
      simp only [step]
      split <;> exact ho
  | refillCount pid maxTotal =>
      refine ⟨fun _ => trivial, fun _ => ?_⟩
      simp only [step]
      split
      · split <;> exact ho
      · exact ho
  | refillInsert pid now prekeyId =>
      refine ⟨fun _ => trivial, fun _ => ?_⟩
      simp only [step]
      split <;> exact ho
  | fetchDevices pid userId =>
      refine ⟨fun _ => trivial, fun _ => ?_⟩
      simp only [step]
      split
      · split <;> exact ho
      · exact ho
  | fetchSelect pid =>
      refine ⟨fun _ => trivial, fun _ => ?_⟩
      simp only [step]
      split <;> exact ho
  | fail pid => exact ⟨fun _ => trivial, fun _ => ho⟩

/-- In every interleaving of refills and fetches, every one-time prekey is in at most one
returned bundle if and only if every fetch commits prekeys that are still unconsumed. -/
theorem prekeys_once_iff (db : Db) (hd : Rows.Unique (·.id) db.devices)
    (hi : Rows.Unique (·.id) db.oneTimePrekeys) (hk : Rows.Unique key db.oneTimePrekeys)
    (acts : List Act) :
    Always step HandedOutOnce (start db) acts ↔ Along step StillUnconsumed (start db) acts :=
  always_iff_along (fun s a => step_wf s a) (fun s a => step_once_iff s a) acts (start db)
    (start_wf hd hi hk) List.nodup_nil

/-- Bob's only device, with one prekey left. -/
def sampleDb : Db :=
  { devices := [{ id := "d2", userId := "bob", platform := .ios, identityPublicKey := "ik2"
                  createdAt := 0 }]
    oneTimePrekeys := [{ id := "p1", deviceId := "d2", keyId := 7, publicKey := "pk7"
                         createdAt := 0 }] }

/-- Two clients fetch Bob's bundles; both select before either commits. -/
def overlappingFetches : List Act :=
  [.fetchDevices 0 "bob", .fetchDevices 1 "bob", .fetchSelect 0, .fetchSelect 1,
   .fetchCommit 0 10, .fetchCommit 1 11]

theorem overlapping_fetches_share_prekey :
    prekeysOf (run step (start sampleDb) overlappingFetches).returned = [("d2", 7), ("d2", 7)] ∧
    ¬ Always step HandedOutOnce (start sampleDb) overlappingFetches := by
  have hret : prekeysOf (run step (start sampleDb) overlappingFetches).returned =
      [("d2", 7), ("d2", 7)] := by decide
  refine ⟨hret, ?_⟩
  intro h
  have hlast := h overlappingFetches (List.prefix_refl _)
  unfold HandedOutOnce at hlast
  rw [hret] at hlast
  exact absurd hlast (by decide)

/-- One after the other, the second fetch finds the prekey consumed. -/
def fetchesInTurn : List Act :=
  [.fetchDevices 0 "bob", .fetchSelect 0, .fetchCommit 0 10,
   .fetchDevices 1 "bob", .fetchSelect 1, .fetchCommit 1 11]

theorem fetches_in_turn_once : Always step HandedOutOnce (start sampleDb) fetchesInTurn := by
  refine (prekeys_once_iff sampleDb (by decide) (by decide) (by decide) fetchesInTurn).mpr ?_
  unfold fetchesInTurn
  simp only [along_cons]
  refine ⟨trivial, trivial, ?_, trivial, trivial, ?_, along_nil _ _ _⟩
  · unfold StillUnconsumed
    decide
  · unfold StillUnconsumed
    decide

end Birgap.Keys.OneTime
