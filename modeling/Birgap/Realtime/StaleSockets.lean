import Birgap.Realtime.Presence

/-!
# Pruning dead sockets

`pruneStaleSockets` puts the sockets of a user and of a device in one list, asks for all of them
in one pipeline and tells the answers apart by their position. The loop over the answers is
proved to keep each socket on its own side of the split, and the prune is then a filter of both
sets. The prune that the handlers of the gateway run command by command is the same one.
-/
namespace Birgap.Realtime.StaleSockets

set_option autoImplicit false

open Birgap.Lib Birgap.Lib.Run Birgap.Lib.ExpiringSets Birgap.Realtime.Presence

/-- One pass of the loop over the answers, at position `i`; the lists are `staleUserSockets` and
`staleDeviceSockets`. -/
def collect (allSocketIds : List Id) (results : List Bool) (split : Nat)
    (stale : List Id × List Id) (i : Nat) : List Id × List Id :=
  match allSocketIds[i]?, results[i]? with
  | some id, some false =>
      if i < split then (stale.1 ++ [id], stale.2) else (stale.1, stale.2 ++ [id])
  | _, _ => stale

/-- `RedisService.pruneStaleSockets`. -/
def pruneStaleSockets (now : Nat) (userId deviceId : Id) (r : Redis) : Redis :=
  let userKey : Key := .user userId
  let deviceKey : Key := .device deviceId
  let userSockets := members now r.sets userKey
  let deviceSockets := members now r.sets deviceKey
  let allSocketIds := userSockets ++ deviceSockets
  if allSocketIds.length = 0 then r
  else
    let results := allSocketIds.map (r.exists_ now)
    let stale := (List.range allSocketIds.length).foldl
      (collect allSocketIds results userSockets.length) ([], [])
    if 0 < stale.1.length ∨ 0 < stale.2.length then
      (stale.1.map (Command.srem userKey) ++ stale.2.map (Command.srem deviceKey)).foldl (Command.exec now) r
    else r

/-- The sockets whose key is gone. -/
def dead (now : Nat) (r : Redis) (ids : List Id) : List Id := ids.filter fun id => !r.exists_ now id

/-! ## The loop -/

/-- After `n` answers the dead sockets seen so far are on their sides of the split. -/
theorem collect_range {now : Nat} {r : Redis} (ids : List Id) (split : Nat) :
    ∀ n ≤ ids.length,
      (List.range n).foldl (collect ids (ids.map (r.exists_ now)) split) ([], []) =
        (dead now r ((ids.take n).take split), dead now r ((ids.take n).drop split)) := by
  intro n
  induction n with
  | zero =>
      intro _
      rw [List.take_zero, List.take_nil, List.drop_nil]
      rfl
  | succ n ih =>
      intro hn
      have hid : ids[n]? = some ids[n] := List.getElem?_eq_getElem hn
      have hlength : (ids.take n).length = n := by
        rw [List.length_take]
        omega
      have htake : ids.take (n + 1) = ids.take n ++ [ids[n]] := List.take_succ_eq_append_getElem hn
      rw [List.range_succ, List.foldl_append, ih (Nat.le_of_succ_le hn)]
      show collect ids (ids.map (r.exists_ now)) split (_, _) n = _
      unfold collect
      rw [List.getElem?_map, hid, Option.map_some, htake]
      by_cases hsplit : n < split
      · -- the socket is one of the user's
        have hleft : (ids.take n ++ [ids[n]]).take split = (ids.take n).take split ++ [ids[n]] := by
          rw [List.take_of_length_le (by simp; omega),
            List.take_of_length_le (i := split) (l := ids.take n) (by omega)]
        have hright : (ids.take n ++ [ids[n]]).drop split = (ids.take n).drop split := by
          rw [List.drop_of_length_le (by simp; omega), List.drop_of_length_le (by omega)]
        rw [hleft, hright]
        cases hexists : r.exists_ now ids[n] with
        | false => simp [dead, hexists, hsplit]
        | true => simp [dead, hexists]
      · have hleft : (ids.take n ++ [ids[n]]).take split = (ids.take n).take split :=
          List.take_append_of_le_length (by omega)
        have hright : (ids.take n ++ [ids[n]]).drop split = (ids.take n).drop split ++ [ids[n]] :=
          List.drop_append_of_le_length (by omega)
        rw [hleft, hright]
        cases hexists : r.exists_ now ids[n] with
        | false => simp [dead, hexists, hsplit]
        | true => simp [dead, hexists]

/-- The loop gives each set its own dead sockets. -/
theorem collect_all {now : Nat} {r : Redis} (userSockets deviceSockets : List Id) :
    (List.range (userSockets ++ deviceSockets).length).foldl
        (collect (userSockets ++ deviceSockets) ((userSockets ++ deviceSockets).map (r.exists_ now))
          userSockets.length) ([], []) =
      (dead now r userSockets, dead now r deviceSockets) := by
  rw [collect_range _ _ _ (Nat.le_refl _), List.take_length, List.take_left, List.drop_left]

/-- The removals of a prune. -/
def removals (now : Nat) (userId deviceId : Id) (r : Redis) : List Command :=
  (dead now r (members now r.sets (.user userId))).map (.srem (.user userId)) ++
    (dead now r (members now r.sets (.device deviceId))).map (.srem (.device deviceId))

/-- The two early ends of the prune are those where there is nothing to remove. -/
theorem pruneStaleSockets_eq (now : Nat) (userId deviceId : Id) (r : Redis) :
    pruneStaleSockets now userId deviceId r =
      (removals now userId deviceId r).foldl (Command.exec now) r := by
  unfold pruneStaleSockets removals
  dsimp only
  rw [collect_all]
  generalize members now r.sets (.user userId) = userSockets
  generalize members now r.sets (.device deviceId) = deviceSockets
  split
  · rename_i hempty
    obtain ⟨rfl, rfl⟩ := List.append_eq_nil_iff.mp (List.length_eq_zero_iff.mp hempty)
    rfl
  · split
    · rfl
    · rename_i hnone
      obtain ⟨huser, hdevice⟩ := not_or.mp hnone
      rw [List.length_pos_iff, not_not] at huser hdevice
      dsimp only at huser hdevice
      rw [huser, hdevice]
      rfl

/-! ## The removals -/

section Removals

variable {now : Nat} {key other : Key} {ids : List Id} {r : Redis}

theorem foldl_srem_sockets :
    ((ids.map (.srem key)).foldl (Command.exec now) r).sockets = r.sockets := by
  induction ids generalizing r with
  | nil => rfl
  | cons id ids ih => exact ih

theorem foldl_srem_of_ne (hne : other ≠ key) :
    ((ids.map (.srem key)).foldl (Command.exec now) r).sets other = r.sets other := by
  induction ids generalizing r with
  | nil => rfl
  | cons id ids ih => exact ih.trans (srem_of_ne hne)

theorem members_foldl_srem :
    members now ((ids.map (.srem key)).foldl (Command.exec now) r).sets key =
      (members now r.sets key).filter (· ∉ ids) := by
  induction ids generalizing r with
  | nil => simp
  | cons id ids ih =>
      rw [List.map_cons, List.foldl_cons, ih]
      show (members now (srem now key id r.sets) key).filter _ = _
      rw [members_srem, List.filter_filter]
      apply List.filter_congr
      intro x _
      simp [Bool.and_comm]

/-- A set without its dead members is the set of those whose key exists. -/
theorem filter_not_dead :
    ids.filter (· ∉ dead now r ids) = ids.filter (r.exists_ now) := by
  apply List.filter_congr
  intro id hid
  simp [dead, hid]

theorem members_congr {a b : Sets Key Id} (h : a key = b key) : members now a key = members now b key := by
  unfold members lookUp
  rw [h]

end Removals

section Prune

variable {now : Nat} {userId deviceId : Id} {r : Redis}

theorem prune_sockets : (pruneStaleSockets now userId deviceId r).sockets = r.sockets := by
  rw [pruneStaleSockets_eq, removals, List.foldl_append, foldl_srem_sockets, foldl_srem_sockets]

theorem prune_of_ne {key : Key} (huser : key ≠ .user userId) (hdevice : key ≠ .device deviceId) :
    (pruneStaleSockets now userId deviceId r).sets key = r.sets key := by
  rw [pruneStaleSockets_eq, removals, List.foldl_append, foldl_srem_of_ne hdevice,
    foldl_srem_of_ne huser]

theorem prune_user :
    members now (pruneStaleSockets now userId deviceId r).sets (.user userId) =
      (members now r.sets (.user userId)).filter (r.exists_ now) := by
  rw [pruneStaleSockets_eq, removals, List.foldl_append,
    members_congr (foldl_srem_of_ne (by intro h; cases h)), members_foldl_srem, filter_not_dead]

theorem prune_device :
    members now (pruneStaleSockets now userId deviceId r).sets (.device deviceId) =
      (members now r.sets (.device deviceId)).filter (r.exists_ now) := by
  rw [pruneStaleSockets_eq, removals, List.foldl_append, members_foldl_srem,
    members_congr (foldl_srem_of_ne (by intro h; cases h)), filter_not_dead]

theorem dead_filter {pruned : Redis} (hsockets : pruned.sockets = r.sockets) (ids : List Id) :
    dead now pruned (ids.filter (r.exists_ now)) = [] := by
  unfold dead
  rw [List.filter_eq_nil_iff]
  intro id hid
  have hexists : pruned.exists_ now id = r.exists_ now id := by
    unfold Redis.exists_
    rw [hsockets]
  rw [hexists, (List.mem_filter.mp hid).2]
  decide

/-- A prune leaves no dead socket behind. -/
theorem removals_prune : removals now userId deviceId (pruneStaleSockets now userId deviceId r) = [] := by
  unfold removals
  rw [prune_user, prune_device, dead_filter prune_sockets, dead_filter prune_sockets]
  rfl

end Prune

/-! ## The prune of the gateway -/

section Gateway

variable {socketId userId deviceId : Id}

/-- The handler of a socket stands at a connection state. -/
def At (socketId userId deviceId : Id) (connection : Connection) (s : State) : Prop :=
  ∃ c, s.clients socketId = some c ∧ c.data = some (userId, deviceId) ∧ c.connection = connection

/-- `n` commands of the handler, with nothing in between. -/
def after (socketId : Id) (n : Nat) (s : State) : State :=
  run step s (List.replicate n (.advance socketId))

theorem after_succ (n : Nat) (s : State) :
    after socketId (n + 1) s = after socketId n (step s (.advance socketId)) := rfl

theorem after_add (m n : Nat) (s : State) :
    after socketId (m + n) s = after socketId n (after socketId m s) := by
  unfold after
  rw [List.replicate_add, run_append]

/-- The next command, and that only this client's handler has moved on. -/
theorem step_advance {connection : Connection} {s : State} {c : Client}
    (hc : s.clients socketId = some c) (hdata : c.data = some (userId, deviceId))
    (hat : c.connection = connection) :
    step s (.advance socketId) = advance s socketId { c with connection } userId deviceId := by
  cases c with
  | mk data connected at_ leaving =>
      obtain rfl : data = some (userId, deviceId) := hdata
      obtain rfl : at_ = connection := hat
      simp only [step, hc]

theorem At.put {next : Connection} {s : State} (redis : Redis) {c : Client}
    (hdata : c.data = some (userId, deviceId)) :
    At socketId userId deviceId next
      ({ s with redis }.put socketId { c with connection := next }) :=
  ⟨{ c with connection := next }, Function.update_self .., hdata, rfl⟩

/-- The questions find what is dead, and write nothing. -/
theorem after_asking {sockets : List (Key × Id)} :
    ∀ {stale : List (Key × Id)} {s : State}, At socketId userId deviceId (.asking sockets stale) s →
      ∃ n, At socketId userId deviceId
          (.removing (stale ++ sockets.filter fun p => !s.redis.exists_ s.now p.2))
          (after socketId n s) ∧
        (after socketId n s).redis = s.redis ∧ (after socketId n s).now = s.now := by
  induction sockets with
  | nil =>
      intro stale s hs
      obtain ⟨c, hc, hdata, hat⟩ := hs
      refine ⟨1, ?_, ?_, ?_⟩
      · rw [after_succ, step_advance hc hdata hat, List.filter_nil, List.append_nil]
        exact At.put s.redis hdata
      · rw [after_succ, step_advance hc hdata hat]
        rfl
      · rw [after_succ, step_advance hc hdata hat]
        rfl
  | cons p sockets ih =>
      intro stale s hs
      obtain ⟨c, hc, hdata, hat⟩ := hs
      obtain ⟨key, id⟩ := p
      have hstep := step_advance hc hdata hat
      have hnext : At socketId userId deviceId (.asking sockets
          (if s.redis.exists_ s.now id then stale else stale ++ [(key, id)]))
          (step s (.advance socketId)) := by
        rw [hstep]
        exact At.put s.redis hdata
      obtain ⟨n, hn, hredis, hnow⟩ := ih hnext
      have hredis' : (step s (.advance socketId)).redis = s.redis := by
        rw [hstep]
        rfl
      have hnow' : (step s (.advance socketId)).now = s.now := by
        rw [hstep]
        rfl
      refine ⟨n + 1, ?_, hredis.trans hredis', hnow.trans hnow'⟩
      rw [hredis', hnow'] at hn
      rw [after_succ]
      cases hexists : s.redis.exists_ s.now id with
      | false => simpa [hexists] using hn
      | true => simpa [hexists] using hn

/-- The removals are sent one by one. -/
theorem after_removing {stale : List (Key × Id)} :
    ∀ {s : State}, At socketId userId deviceId (.removing stale) s →
      ∃ n, At socketId userId deviceId .ended (after socketId n s) ∧
        (after socketId n s).redis =
          (stale.map fun p => Command.srem p.1 p.2).foldl (Command.exec s.now) s.redis := by
  induction stale with
  | nil =>
      intro s hs
      obtain ⟨c, hc, hdata, hat⟩ := hs
      refine ⟨1, ?_, ?_⟩
      · rw [after_succ, step_advance hc hdata hat]
        exact At.put s.redis hdata
      · rw [after_succ, step_advance hc hdata hat]
        rfl
  | cons p stale ih =>
      intro s hs
      obtain ⟨c, hc, hdata, hat⟩ := hs
      obtain ⟨key, id⟩ := p
      have hstep := step_advance hc hdata hat
      have hnext : At socketId userId deviceId (.removing stale) (step s (.advance socketId)) := by
        rw [hstep]
        exact At.put _ hdata
      obtain ⟨n, hn, hredis⟩ := ih hnext
      refine ⟨n + 1, hn, hredis.trans ?_⟩
      rw [hstep]
      rfl

/-- What the questions about both sets find is what the prune removes. -/
theorem removals_eq (now : Nat) (userId deviceId : Id) (r : Redis) :
    ((((members now r.sets (.user userId)).map (Key.user userId, ·) ++
        (members now r.sets (.device deviceId)).map (Key.device deviceId, ·)).filter
          fun p => !r.exists_ now p.2).map fun p => Command.srem p.1 p.2) =
      removals now userId deviceId r := by
  rw [List.filter_append, List.filter_map, List.filter_map, List.map_append, List.map_map,
    List.map_map]
  rfl

/-- A handler that lists, asks and removes without anything in between has run
`pruneStaleSockets`. -/
theorem advance_prune {s : State} (hs : At socketId userId deviceId .listingUser s) :
    ∃ n, At socketId userId deviceId .ended (after socketId n s) ∧
      (after socketId n s).redis = pruneStaleSockets s.now userId deviceId s.redis := by
  have hlist : ∃ n, At socketId userId deviceId
      (.asking ((members s.now s.redis.sets (.user userId)).map (Key.user userId, ·) ++
        (members s.now s.redis.sets (.device deviceId)).map (Key.device deviceId, ·)) [])
      (after socketId n s) ∧
      (after socketId n s).redis = s.redis ∧ (after socketId n s).now = s.now := by
    obtain ⟨c, hc, hdata, hat⟩ := hs
    have hself : (step s (.advance socketId)).clients socketId =
        some { c with connection := .listingDevice (members s.now s.redis.sets (.user userId)) } := by
      rw [step_advance hc hdata hat]
      exact Function.update_self ..
    have hredis : (step s (.advance socketId)).redis = s.redis := by
      rw [step_advance hc hdata hat]
      rfl
    have hnow : (step s (.advance socketId)).now = s.now := by
      rw [step_advance hc hdata hat]
      rfl
    refine ⟨2, ?_, ?_, ?_⟩
    · rw [after_succ, after_succ, step_advance hself hdata rfl, ← hredis, ← hnow]
      exact At.put (step s (.advance socketId)).redis hdata
    · rw [after_succ, after_succ, step_advance hself hdata rfl]
      exact hredis
    · rw [after_succ, after_succ, step_advance hself hdata rfl]
      exact hnow
  obtain ⟨n, hasking, hredis, hnow⟩ := hlist
  obtain ⟨m, hremoving, hredis', hnow'⟩ := after_asking hasking
  obtain ⟨k, hended, hdone⟩ := after_removing hremoving
  refine ⟨n + (m + k), ?_, ?_⟩
  · rw [after_add, after_add]
    exact hended
  · rw [after_add, after_add, hdone, hredis', hnow', hredis, hnow, List.nil_append, removals_eq,
      pruneStaleSockets_eq]

end Gateway

/-- After a prune the two sets hold their former members whose key exists, in the order they had,
and every other key is as it was; a second prune changes nothing. -/
theorem prune_exact (now : Nat) (userId deviceId : Id) (r : Redis) :
    members now (pruneStaleSockets now userId deviceId r).sets (.user userId) =
      (members now r.sets (.user userId)).filter (r.exists_ now) ∧
    members now (pruneStaleSockets now userId deviceId r).sets (.device deviceId) =
      (members now r.sets (.device deviceId)).filter (r.exists_ now) ∧
    (pruneStaleSockets now userId deviceId r).sockets = r.sockets ∧
    (∀ key, key ≠ .user userId → key ≠ .device deviceId →
      (pruneStaleSockets now userId deviceId r).sets key = r.sets key) ∧
    pruneStaleSockets now userId deviceId (pruneStaleSockets now userId deviceId r) =
      pruneStaleSockets now userId deviceId r := by
  refine ⟨prune_user, prune_device, prune_sockets, fun _ => prune_of_ne, ?_⟩
  rw [pruneStaleSockets_eq now userId deviceId (pruneStaleSockets now userId deviceId r),
    removals_prune]
  rfl

example : (pruneStaleSockets 10 "u" "d"
    { sets := fun _ => some { members := ["s1", "s2"] }
      sockets := fun id => if id = "s1" then some 20 else some 5 }).sets (.user "u") =
    some { members := ["s1"] } := by decide

end Birgap.Realtime.StaleSockets
