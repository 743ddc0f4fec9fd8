import Birgap.Messaging.Steps

/-!
# A message comes from a device of its sender

`send` and `forwardToDirect` check the sending device inside their transaction, `forward`
checks it once before its targets, and `queueGroupMessage` does not check it. The rows added
along a run come from active devices of their senders exactly when every group insert names
a device that the missing check would have passed.
-/
namespace Birgap.Messaging

set_option autoImplicit false

open Birgap.Lib Birgap.Lib.Tx Birgap.Lib.Run Birgap.Messages Birgap.Groups Birgap.Auth

/-- The device of every message belongs to its sender. -/
def SendersOwn (s : State) : Prop :=
  ∀ m ∈ s.db.messages, ∃ d ∈ s.db.devices, d.id = m.senderDeviceId ∧ d.userId = m.senderUserId

/-- The messages a step adds come from active devices of their senders. -/
def CreatedFromActive (env : AuthEnv) (configuredMax : Option Int) (s : State) (a : Act) : Prop :=
  ∀ m ∈ (step env configuredMax s a).db.messages, m ∉ s.db.messages →
    ∃ d ∈ s.db.devices, d.id = m.senderDeviceId ∧ d.userId = m.senderUserId ∧ d.active = true

/-- A group insert that goes through names an active device of the caller or, for a forward,
the device that was checked before, still active. -/
def GroupDeviceActive (s : State) : Act → Prop
  | .commit pid now messageId mediaId =>
      match s.calls pid with
      | .validated t sequence replyTo =>
          ∀ db, commitGroupMessage now mediaId
              (groupMessage now messageId t.request sequence replyTo) t.request s.db = .ok db →
            match t with
            | .message senderUserId _ dto =>
                assertActiveDevice senderUserId dto.senderDeviceId s.db = .ok ()
            | .forward f _ _ => ∀ d ∈ s.db.devices, d.id = f.dto.senderDeviceId → d.active = true
      | _ => True
  | _ => True

/-- The device of a forward belongs to its caller. -/
def ForwarderOwns (db : Db) (c : Call) : Prop :=
  ∀ f, c.forwardOf = some f → ∃ d ∈ db.devices, d.id = f.dto.senderDeviceId ∧ d.userId = f.userId

structure Owned (s : State) : Prop where
  devices : Devices.DeviceKeys s.db
  forwards : ∀ pid, ForwarderOwns s.db (s.calls pid)

theorem start_owned {db : Db} (hk : Rows.Unique (·.id) db.devices) : Owned (start db) :=
  ⟨hk, fun _ f hf => by cases hf⟩

theorem assertActiveDevice_ok {userId deviceId : Id} {db : Db} :
    assertActiveDevice userId deviceId db = .ok () ↔
      ∃ d ∈ db.devices, d.id = deviceId ∧ d.userId = userId ∧ d.active = true := by
  unfold assertActiveDevice
  rw [ensure_ok, List.any_eq_true]
  simp only [Bool.and_eq_true, beq_iff_eq, and_assoc]

theorem Effect.owned {env : AuthEnv} {configuredMax : Option Int} {s : State} {a : Act}
    {o : State × Option Returned} (he : Effect env configuredMax s a o) (h : Owned s) :
    Owned o.1 := by
  refine ⟨he.deviceKeys h.devices, ?_⟩
  intro pid f hf
  apply he.owner_kept h.devices
  rcases he.continues hf with ⟨f₀, hf₀, huser, hdto, _⟩ | ⟨userId, dto, hstart⟩
  · rw [hdto, huser]
    exact h.forwards pid f₀ hf₀
  · obtain ⟨huser, hdto, _, hdevice⟩ := startForward_ok hstart
    obtain ⟨d, hd, hid, hown, _⟩ := assertActiveDevice_ok.mp hdevice
    rw [hdto, huser]
    exact ⟨d, hd, hid, hown⟩

/-- Apart from the group inserts, a new message was checked inside its transaction. -/
theorem Effect.created {env : AuthEnv} {configuredMax : Option Int} {s : State} {a : Act}
    {o : State × Option Returned} (he : Effect env configuredMax s a o)
    (hother : ∀ pid now messageId mediaId, a ≠ .commit pid now messageId mediaId) :
    ∀ m ∈ o.1.db.messages, m ∉ s.db.messages →
      ∃ d ∈ s.db.devices, d.id = m.senderDeviceId ∧ d.userId = m.senderUserId ∧ d.active = true := by
  intro m hm hnew
  rcases he.inserts with hsame | ⟨x, hx⟩
  · rw [hsame.messages] at hm
    exact absurd hm hnew
  · rw [hx.messages.2] at hm
    obtain rfl : m = x := by
      rcases List.mem_append.mp hm with hold | hlast
      · exact absurd hold hnew
      · exact List.mem_singleton.mp hlast
    cases hx with
    | posted hc htx =>
        obtain ⟨_, _, _, hroute, hw, _⟩ := DirectTask.tx_ok htx
        rw [hw.device, hw.sender]
        exact (routeDevices_ok hroute).1
    | @committed pid t sequence replyTo now messageId mediaId hc hdb =>
        exact absurd rfl (hother pid now messageId mediaId)

/-- For a forward the device exists and is owned, so only its being active is open. -/
theorem Owned.forward_active_iff {s : State} (h : Owned s) {pid : Nat} {f : Forwarding}
    (hf : (s.calls pid).forwardOf = some f) :
    (∃ d ∈ s.db.devices, d.id = f.dto.senderDeviceId ∧ d.userId = f.userId ∧ d.active = true) ↔
      ∀ d ∈ s.db.devices, d.id = f.dto.senderDeviceId → d.active = true := by
  obtain ⟨x, hx, hxid, hxown⟩ := h.forwards pid f hf
  constructor
  · rintro ⟨d, hd, hid, _, hactive⟩ y hy hyid
    rw [h.devices.eq hy hd (hyid.trans hid.symm)]
    exact hactive
  · intro hall
    exact ⟨x, hx, hxid, hxown, hall x hx hxid⟩

section Steps

variable (env : AuthEnv) (configuredMax : Option Int)

theorem created_of_same {s : State} {a : Act} (h : (step env configuredMax s a).db = s.db) :
    CreatedFromActive env configuredMax s a := by
  intro m hm hnew
  rw [h] at hm
  exact absurd hm hnew

/-- A group insert adds the message of its request, under a fresh id. -/
theorem committed_created_iff {s : State} {pid : Nat} {t : GroupTask} {sequence : Nat}
    {replyTo : Option Id} {now : Time} {messageId : Id} {mediaId : Nat → Id} {db : Db}
    (hc : s.calls pid = .validated t sequence replyTo)
    (hdb : commitGroupMessage now mediaId (groupMessage now messageId t.request sequence replyTo)
      t.request s.db = .ok db) :
    CreatedFromActive env configuredMax s (.commit pid now messageId mediaId) ↔
      ∃ d ∈ s.db.devices, d.id = t.request.senderDeviceId ∧ d.userId = t.request.senderUserId ∧
        d.active = true := by
  have hstep : (step env configuredMax s (.commit pid now messageId mediaId)).db = db := by
    simp only [step, exec, hc, hdb, State.set]
  obtain ⟨hclash, hmsgs, _, _⟩ := commitGroupMessage_ok hdb
  obtain ⟨hsender, hdevice, _⟩ := groupMessage_sender now messageId t.request sequence replyTo
  unfold CreatedFromActive
  rw [hstep, hmsgs]
  constructor
  · intro hall
    have hfresh : groupMessage now messageId t.request sequence replyTo ∉ s.db.messages := fun hold =>
      messageClash_fresh hclash _ hold rfl
    have hnew := hall _ (List.mem_append_right _ (List.mem_singleton_self _)) hfresh
    rw [hsender, hdevice] at hnew
    exact hnew
  · intro hd m hm hnew
    rcases List.mem_append.mp hm with hm | hm
    · exact absurd hm hnew
    · rw [List.mem_singleton.mp hm, hsender, hdevice]
      exact hd

theorem step_created_iff (s : State) (a : Act) (h : Owned s) :
    CreatedFromActive env configuredMax s a ↔ GroupDeviceActive s a := by
  unfold GroupDeviceActive
  split
  · rename_i pid now messageId mediaId
    cases hc : s.calls pid with
    | validated t sequence replyTo =>
        dsimp only
        cases hdb : commitGroupMessage now mediaId
            (groupMessage now messageId t.request sequence replyTo) t.request s.db with
        | error e =>
            refine iff_of_true (created_of_same env configuredMax ?_) (fun db he => by cases he)
            simp only [step, exec, hc, hdb, State.finish, State.set]
        | ok db =>
            rw [committed_created_iff env configuredMax hc hdb]
            cases t with
            | message senderUserId groupId dto =>
                constructor
                · intro hd _ _
                  exact assertActiveDevice_ok.mpr hd
                · intro hall
                  exact assertActiveDevice_ok.mp (hall db rfl)
            | forward f groupId ciphertext =>
                have hf : (s.calls pid).forwardOf = some f := by
                  rw [hc]
                  rfl
                have hiff := h.forward_active_iff hf
                constructor
                · intro hd _ _
                  exact hiff.mp hd
                · intro hall
                  exact hiff.mpr (hall db rfl)
    | _ => exact iff_of_true (created_of_same env configuredMax (by simp only [step, exec, hc])) trivial
  · rename_i hother
    exact iff_of_true ((exec_effect env configuredMax s a).created hother) trivial

theorem step_owned (s : State) (a : Act) (h : Owned s) : Owned (step env configuredMax s a) :=
  (exec_effect env configuredMax s a).owned h

/-- A step that adds messages from active devices leaves every device with its sender. -/
theorem step_sendersOwn (s : State) (a : Act) (h : Owned s) (hs : SendersOwn s)
    (hc : CreatedFromActive env configuredMax s a) : SendersOwn (step env configuredMax s a) := by
  intro m hm
  apply (exec_effect env configuredMax s a).owner_kept h.devices
  by_cases hold : m ∈ s.db.messages
  · exact hs m hold
  · obtain ⟨d, hd, hid, hown, _⟩ := hc m hm hold
    exact ⟨d, hd, hid, hown⟩

/-- In every interleaving the device of every message belongs to its sender and was active
when the message was created exactly when every group insert names an active device of its
caller, a forward the one it has checked. -/
theorem sender_device_iff (db : Db) (acts : List Act) (hk : Rows.Unique (·.id) db.devices) :
    (Always (step env configuredMax) SendersOwn (start db) acts ∧
      Along (step env configuredMax) (CreatedFromActive env configuredMax) (start db) acts) ↔
    Along (step env configuredMax) GroupDeviceActive (start db) acts := by
  have hiff := along_congr (step_owned env configuredMax) (step_created_iff env configuredMax) acts
    (start db) (start_owned hk)
  constructor
  · intro h
    exact hiff.mp h.2
  · intro h
    have hcreated := hiff.mpr h
    have hinv : Always (step env configuredMax) (fun s => Owned s ∧ SendersOwn s) (start db) acts :=
      always_of_along
        (fun s a hs hc => ⟨step_owned env configuredMax s a hs.1,
          step_sendersOwn env configuredMax s a hs.1 hs.2 hc⟩)
        acts (start db) ⟨start_owned hk, fun m hm => by cases hm⟩ hcreated
    exact ⟨hinv.mono fun s hs => hs.2, hcreated⟩

end Steps

/-- Mallory sends to a group and names Alice's device. -/
theorem borrowed_device_accepted :
    ¬ ∀ (env : AuthEnv) (configuredMax : Option Int) (db : Db) (acts : List Act),
      Rows.Unique (·.id) db.devices →
      Always (step env configuredMax) SendersOwn (start db) acts ∧
        Along (step env configuredMax) (CreatedFromActive env configuredMax) (start db) acts := by
  intro h
  have hrun := (h Devices.sampleEnv none sampleDb (groupSend 0 "mallory" "d1" "group-key-1" "m1")
    (by decide)).1
  have hlast := hrun _ (List.prefix_refl _)
  revert hlast
  unfold SendersOwn
  decide

/-- Alice sends from her own device. -/
theorem own_device_accepted :
    Always (step Devices.sampleEnv none) SendersOwn (start sampleDb)
        (groupSend 0 "alice" "d1" "group-key-1" "m1") ∧
      Along (step Devices.sampleEnv none) (CreatedFromActive Devices.sampleEnv none) (start sampleDb)
        (groupSend 0 "alice" "d1" "group-key-1" "m1") := by
  apply (sender_device_iff Devices.sampleEnv none sampleDb _ (by decide)).mpr
  simp only [groupSend, along_cons]
  refine ⟨trivial, trivial, trivial, trivial, ?_, along_nil _ _ _⟩
  intro db _
  decide

end Birgap.Messaging
