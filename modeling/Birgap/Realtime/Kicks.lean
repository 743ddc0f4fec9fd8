import Birgap.Realtime.Gateway

/-!
# What a kick leaves

`handleUserKicked` fetches the sockets in the room of a user and disconnects them. A connection
that has passed the check of its session and is not in the room yet is not among them, and it
enters afterwards. Nobody else stays.
-/
namespace Birgap.Realtime.Gateway

set_option autoImplicit false

open Birgap.Lib Birgap.Lib.Run Birgap.Auth

variable {env : AuthEnv}

def roomsOf : Phase → List Room
  | .joined auth => [.user auth.userId]
  | .registered auth => [.user auth.userId, .device auth.deviceId]
  | .done auth => [.user auth.userId, .device auth.deviceId]
  | _ => []

/-- Socket ids are unique, and a socket is in the rooms of its phase while it is connected. -/
structure Wf (s : State) : Prop where
  ids : Rows.Unique (·.id) s.sockets
  rooms : ∀ x ∈ s.sockets, x.rooms = if x.connected then roomsOf x.phase else []

/-- The socket stays in its rooms for as long as it is connected. -/
def Goes (x x' : Socket) : Prop :=
  x'.connected = true → x.connected = true ∧ ∀ room ∈ x.rooms, room ∈ x'.rooms

/-- Every socket is still known, and has gone on. -/
def Follows (s t : State) : Prop :=
  ∀ x ∈ s.sockets, ∃ x' ∈ t.sockets, x'.id = x.id ∧ Goes x x'

theorem goes_refl (x : Socket) : Goes x x := fun hx => ⟨hx, fun _ hroom => hroom⟩

theorem Follows.refl (s : State) : Follows s s := fun x hx => ⟨x, hx, rfl, goes_refl x⟩

theorem Follows.trans {s t u : State} (h : Follows s t) (h' : Follows t u) : Follows s u := by
  intro x hx
  obtain ⟨x', hx', hid, hgoes⟩ := h x hx
  obtain ⟨x'', hx'', hid', hgoes'⟩ := h' x' hx'
  refine ⟨x'', hx'', hid'.trans hid, ?_⟩
  intro hc
  obtain ⟨hc', hrooms'⟩ := hgoes' hc
  obtain ⟨hc'', hrooms⟩ := hgoes hc'
  exact ⟨hc'', fun room hroom => hrooms' room (hrooms room hroom)⟩

theorem join_connected (room : Room) (x : Socket) : (join room x).connected = x.connected := by
  unfold join
  split <;> rfl

theorem join_rooms (room : Room) (x : Socket) :
    (join room x).rooms = if x.connected then x.rooms ++ [room] else x.rooms := by
  unfold join
  split <;> rfl

theorem goes_join (room : Room) (x : Socket) (phase : Phase) : Goes x (join room { x with phase }) := by
  intro hc
  rw [join_connected] at hc
  refine ⟨hc, ?_⟩
  intro r hr
  rw [join_rooms, if_pos hc]
  exact List.mem_append_left _ hr

theorem Moves.goes {s : State} {a : Act} {x x' : Socket} (h : Moves env s a x x') : Goes x x' := by
  cases h with
  | left phase hphase =>
      intro hc
      cases hc
  | joined auth hx => exact goes_join _ x _
  | registered auth hx => exact goes_join _ x _
  | _ => exact goes_refl x

theorem Moves.settled {s : State} {a : Act} {x x' : Socket} (h : Moves env s a x x')
    (hx : x.rooms = if x.connected then roomsOf x.phase else []) :
    x'.rooms = if x'.connected then roomsOf x'.phase else [] := by
  cases h with
  | left phase hphase => rfl
  | found c t ha hphase ht =>
      rw [hphase] at hx
      exact hx
  | active c t ha hphase ht =>
      rw [hphase] at hx
      exact hx
  | ready c t d ha hphase ht =>
      rw [hphase] at hx
      exact hx
  | consumed c t deviceId hphase =>
      rw [hphase] at hx
      exact hx
  | joined auth hphase =>
      rw [hphase] at hx
      rw [join_rooms, join_connected]
      cases hc : x.connected with
      | true => simp [hx, hc, roomsOf, join]
      | false => simp [hx, hc]
  | registered auth hphase =>
      rw [hphase] at hx
      rw [join_rooms, join_connected]
      cases hc : x.connected with
      | true => simp [hx, hc, roomsOf, join]
      | false => simp [hx, hc]
  | done auth hphase =>
      rw [hphase] at hx
      exact hx

theorem Effect.follows {s t : State} {a : Act} (heff : Effect env s a t) (hwf : Wf s) :
    Wf t ∧ Follows s t := by
  cases heff with
  | emits frames hs hk hf hroom =>
      refine ⟨⟨by rw [hs]; exact hwf.ids, by rw [hs]; exact hwf.rooms⟩, ?_⟩
      intro x hx
      exact ⟨x, hs ▸ hx, rfl, goes_refl x⟩
  | fetched k userId ha hs hk hf =>
      refine ⟨⟨by rw [hs]; exact hwf.ids, by rw [hs]; exact hwf.rooms⟩, ?_⟩
      intro x hx
      exact ⟨x, hs ▸ hx, rfl, goes_refl x⟩
  | arrives id authTicket queryTicket now frames ha hfresh hs hk hf hroom =>
      have hnew : ∀ x, x = arrive s.isShuttingDown id (extractTicket authTicket queryTicket) now →
          x.id = id ∧ x.rooms = if x.connected then roomsOf x.phase else [] := by
        intro x hx
        unfold arrive at hx
        split at hx
        · rw [hx]
          exact ⟨rfl, rfl⟩
        · rw [hx]
          exact ⟨rfl, rfl⟩
      refine ⟨⟨?_, ?_⟩, ?_⟩
      · rw [hs]
        refine Rows.unique_append hwf.ids ?_
        intro x hx
        rw [(hnew _ rfl).1]
        exact hfresh x hx
      · intro x hx
        rw [hs] at hx
        rcases List.mem_append.mp hx with hx | hx
        · exact hwf.rooms x hx
        · exact (hnew x (List.mem_singleton.mp hx)).2
      · intro x hx
        refine ⟨x, ?_, rfl, goes_refl x⟩
        rw [hs]
        exact List.mem_append_left _ hx
  | moves x x' frames hx hid hmove hs hk hf hroom =>
      refine ⟨⟨?_, ?_⟩, ?_⟩
      · rw [hs, Rows.Unique, Rows.updateMany, List.map_map]
        have hsame : s.sockets.map ((fun y => y.id) ∘ fun y => if y.id == x.id then x' else y) =
            s.sockets.map (·.id) := by
          apply List.map_congr_left
          intro y _
          simp only [Function.comp_apply]
          split
          · rename_i hy
            exact hid.trans (beq_iff_eq.mp hy).symm
          · rfl
        rw [hsame]
        exact hwf.ids
      · intro y hy
        rw [hs] at hy
        obtain ⟨z, hz, rfl⟩ := Rows.mem_updateMany.mp hy
        split
        · exact hmove.settled (hwf.rooms x hx)
        · exact hwf.rooms z hz
      · intro y hy
        refine ⟨_, hs ▸ Rows.mem_updateMany.mpr ⟨y, hy, rfl⟩, ?_⟩
        split
        · rename_i heq
          have hsame : y = x := hwf.ids.eq hy hx (beq_iff_eq.mp heq)
          rw [hsame]
          exact ⟨hid, hmove.goes⟩
        · exact ⟨rfl, goes_refl y⟩
  | kicked k reason userId ids ha hkick hs hk hf =>
      refine ⟨⟨?_, ?_⟩, ?_⟩
      · rw [hs]
        exact Rows.unique_updateMany (f := leave) (fun _ => rfl) hwf.ids
      · intro y hy
        rw [hs] at hy
        obtain ⟨z, hz, rfl⟩ := Rows.mem_updateMany.mp hy
        split
        · rfl
        · exact hwf.rooms z hz
      · intro y hy
        refine ⟨if ids.contains y.id then leave y else y, ?_, ?_⟩
        · rw [hs]
          exact Rows.mem_updateMany.mpr ⟨y, hy, rfl⟩
        split
        · refine ⟨rfl, fun hc => ?_⟩
          cases hc
        · exact ⟨rfl, goes_refl y⟩

theorem run_follows (env : AuthEnv) {s : State} (hwf : Wf s) (acts : List Act) :
    Wf (run (step env) s acts) ∧ Follows s (run (step env) s acts) := by
  refine run_invariant (I := fun t => Wf t ∧ Follows s t) ?_ acts s ⟨hwf, Follows.refl s⟩
  intro t a h
  obtain ⟨hwf', hfollows⟩ := (step_effect env t a).follows h.1
  exact ⟨hwf', h.2.trans hfollows⟩

theorem start_wf (db : Db) : Wf (start db) :=
  ⟨List.nodup_nil, fun x hx => by cases hx⟩

/-- The connection is past the check of a session of the user. -/
def Past (userId : Id) : Phase → Prop
  | .active _ t => t.userId = userId
  | .ready _ t _ => t.userId = userId
  | .consumed auth => auth.userId = userId
  | .joined auth => auth.userId = userId
  | .registered auth => auth.userId = userId
  | .done auth => auth.userId = userId
  | _ => False

/-- It is past the check and not in a room yet. -/
def Racing (userId : Id) : Phase → Prop
  | .active _ t => t.userId = userId
  | .ready _ t _ => t.userId = userId
  | .consumed auth => auth.userId = userId
  | _ => False

/-- Since `s` the socket has passed the check of a live session, for a ticket of the user that it
had looked up. -/
def CheckedSince (env : AuthEnv) (s : State) (acts : List Act) (userId id : Id) : Prop :=
  ∃ pre rest c t, acts = pre ++ .session id :: rest ∧
    (∃ x ∈ (run (step env) s pre).sockets, x.id = id ∧ x.phase = .found c t) ∧ t.userId = userId ∧
    SessionLive t c.now (run (step env) s pre).db

/-- Whoever is past a check now was so in `s`, or has passed one since. -/
def Origin (env : AuthEnv) (s : State) (userId : Id) (acts : List Act) (t : State) : Prop :=
  ∀ x ∈ t.sockets, Past userId x.phase →
    (∃ y ∈ s.sockets, y.id = x.id ∧ Past userId y.phase) ∨ CheckedSince env s acts userId x.id

theorem CheckedSince.snoc {s : State} {acts : List Act} {userId id : Id}
    (h : CheckedSince env s acts userId id) (a : Act) : CheckedSince env s (acts ++ [a]) userId id := by
  obtain ⟨pre, rest, c, t, rfl, h⟩ := h
  exact ⟨pre, rest ++ [a], c, t, by simp, h⟩

theorem join_phase (room : Room) (x : Socket) : (join room x).phase = x.phase := by
  unfold join
  split <;> rfl

/-- A move leads past the check of a user from such a place, or through the check. -/
theorem Moves.past {s : State} {a : Act} {x x' : Socket} {userId : Id} (h : Moves env s a x x')
    (hpast : Past userId x'.phase) : Past userId x.phase ∨
      ∃ c t, a = .session x.id ∧ x.phase = .found c t ∧ t.userId = userId ∧
        SessionLive t c.now s.db := by
  cases h with
  | left phase hphase =>
      rcases hphase with rfl | rfl
      · exact Or.inl hpast
      · cases hpast
  | found c t ha hx ht => cases hpast
  | active c t ha hx ht => exact Or.inr ⟨c, t, ha, hx, hpast, checkSession_live ht⟩
  | ready c t d ha hx ht =>
      rw [hx]
      exact Or.inl hpast
  | consumed c t deviceId hx =>
      rw [hx]
      exact Or.inl hpast
  | joined auth hx =>
      rw [join_phase] at hpast
      rw [hx]
      exact Or.inl hpast
  | registered auth hx =>
      rw [join_phase] at hpast
      rw [hx]
      exact Or.inl hpast
  | done auth hx =>
      rw [hx]
      exact Or.inl hpast

theorem run_origin (env : AuthEnv) (s : State) (userId : Id) (acts : List Act) :
    Origin env s userId acts (run (step env) s acts) := by
  refine run_history (I := Origin env s userId) ?_ ?_ acts
  · intro x hx hpast
    exact Or.inl ⟨x, hx, rfl, hpast⟩
  · intro pre a h
    have hkept : ∀ x ∈ (run (step env) s pre).sockets, Past userId x.phase →
        (∃ y ∈ s.sockets, y.id = x.id ∧ Past userId y.phase) ∨
          CheckedSince env s (pre ++ [a]) userId x.id :=
      fun x hx hpast => (h x hx hpast).imp_right fun hc => hc.snoc a
    generalize htarget : step env (run (step env) s pre) a = t
    have heff := step_effect env (run (step env) s pre) a
    rw [htarget] at heff
    cases heff with
    | emits frames hs hk hf hroom =>
        intro x hx
        exact hkept x (hs ▸ hx)
    | fetched k u ha hs hk hf =>
        intro x hx
        exact hkept x (hs ▸ hx)
    | arrives id authTicket queryTicket now frames ha hfresh hs hk hf hroom =>
        intro x hx hpast
        rw [hs] at hx
        rcases List.mem_append.mp hx with hx | hx
        · exact hkept x hx hpast
        · obtain rfl := List.mem_singleton.mp hx
          unfold arrive at hpast
          split at hpast <;> cases hpast
    | moves x x' frames hx hid hmove hs hk hf hroom =>
        intro y hy hpast
        rw [hs] at hy
        obtain ⟨z, hz, rfl⟩ := Rows.mem_updateMany.mp hy
        split at hpast
        · rename_i heq
          rw [if_pos heq, hid]
          rcases hmove.past hpast with hpast | ⟨c, t, ha, hphase, hu, hlive⟩
          · exact hkept x hx hpast
          · exact Or.inr ⟨pre, [], c, t, by rw [ha], ⟨x, hx, rfl, hphase⟩, hu, hlive⟩
        · rename_i hne
          rw [if_neg hne]
          exact hkept z hz hpast
    | kicked k reason u ids ha hkick hs hk hf =>
        intro y hy hpast
        rw [hs] at hy
        obtain ⟨z, hz, rfl⟩ := Rows.mem_updateMany.mp hy
        split at hpast
        · rename_i heq
          rw [if_pos heq]
          exact hkept z hz hpast
        · rename_i hne
          rw [if_neg hne]
          exact hkept z hz hpast

/-- What a kick has fetched stays with it until it runs or fetches again. -/
theorem kicks_kept (env : AuthEnv) (k : Nat) (held : Id × List Id) (acts : List Act)
    (hfetch : ∀ a ∈ acts, ∀ userId, a ≠ .fetch k userId)
    (hkick : ∀ a ∈ acts, ∀ reason, a ≠ .kick k reason) :
    ∀ s, s.kicks k = some held → (run (step env) s acts).kicks k = some held := by
  induction acts with
  | nil => intro s hs; exact hs
  | cons a acts ih =>
      intro s hs
      refine ih (fun b hb => hfetch b (List.mem_cons_of_mem _ hb))
        (fun b hb => hkick b (List.mem_cons_of_mem _ hb)) _ ?_
      cases step_effect env s a with
      | emits frames _ hk => rw [hk]; exact hs
      | arrives id authTicket queryTicket now frames _ _ _ hk => rw [hk]; exact hs
      | moves x x' frames _ _ _ _ hk => rw [hk]; exact hs
      | fetched k' userId ha _ hk =>
          have hne : k ≠ k' := by
            intro he
            subst he
            exact hfetch a List.mem_cons_self userId ha
          rw [hk, Function.update_of_ne hne]
          exact hs
      | kicked k' reason userId ids ha _ _ hk =>
          have hne : k ≠ k' := by
            intro he
            subst he
            exact hkick a List.mem_cons_self reason ha
          rw [hk, Function.update_of_ne hne]
          exact hs

theorem past_cases {userId : Id} {phase : Phase} (h : Past userId phase) :
    Racing userId phase ∨ Room.user userId ∈ roomsOf phase := by
  cases phase with
  | joined auth => exact Or.inr (by simp [roomsOf, show auth.userId = userId from h])
  | registered auth => exact Or.inr (by simp [roomsOf, show auth.userId = userId from h])
  | done auth => exact Or.inr (by simp [roomsOf, show auth.userId = userId from h])
  | active c t => exact Or.inl h
  | ready c t deviceId => exact Or.inl h
  | consumed auth => exact Or.inl h
  | arrived c => exact h.elim
  | found c t => exact h.elim
  | refused => exact h.elim

theorem past_of_room {userId : Id} {phase : Phase} (h : Room.user userId ∈ roomsOf phase) :
    Past userId phase := by
  cases phase with
  | joined auth => simpa [roomsOf, Past, eq_comm] using h
  | registered auth => simpa [roomsOf, Past, eq_comm] using h
  | done auth => simpa [roomsOf, Past, eq_comm] using h
  | _ => cases h

/-- Every socket that a kick finds in the room is disconnected from then on. -/
theorem kick_disconnects (env : AuthEnv) {s : State} (hwf : Wf s) (mid post : List Act) (k : Nat)
    (userId : Id) (reason : Option String) (hfetch : ∀ a ∈ mid, ∀ u, a ≠ .fetch k u)
    (hkick : ∀ a ∈ mid, ∀ r, a ≠ .kick k r) :
    ∀ y ∈ s.sockets, Room.user userId ∈ y.rooms →
      ∀ x ∈ (run (step env) s (.fetch k userId :: mid ++ .kick k reason :: post)).sockets,
        x.id = y.id → x.connected = false := by
  intro y hy hin x hx hid
  obtain ⟨s₁, hs₁⟩ : ∃ s₁, s₁ = step env s (.fetch k userId) := ⟨_, rfl⟩
  have hkicks₁ : s₁.kicks k = some (userId, inRoom (.user userId) s.sockets) := by
    rw [hs₁]
    exact Function.update_self ..
  have hsockets₁ : s₁.sockets = s.sockets := by
    rw [hs₁]
    rfl
  have hwf₁ : Wf s₁ := by
    rw [hs₁]
    exact ((step_effect env s (.fetch k userId)).follows hwf).1
  obtain ⟨hwf₂, hfollows₂⟩ := run_follows env hwf₁ mid
  have hkicks₂ := kicks_kept env k _ mid hfetch hkick s₁ hkicks₁
  generalize hs₂ : run (step env) s₁ mid = s₂ at hwf₂ hfollows₂ hkicks₂
  have hsockets₃ : (step env s₂ (.kick k reason)).sockets =
      disconnectAll (inRoom (.user userId) s.sockets) s₂.sockets := by
    simp only [step, Act.socket, hkicks₂]
  have hwf₃ := ((step_effect env s₂ (.kick k reason)).follows hwf₂).1
  obtain ⟨hwf₄, hfollows₄⟩ := run_follows env hwf₃ post
  have hend : run (step env) s (.fetch k userId :: mid ++ .kick k reason :: post) =
      run (step env) (step env s₂ (.kick k reason)) post := by
    rw [List.cons_append, run_cons, run_append, ← hs₁, hs₂, run_cons]
  obtain ⟨z, hz, hzid, _⟩ := hfollows₂ y (hsockets₁ ▸ hy)
  have hfetched : z.id ∈ inRoom (.user userId) s.sockets := by
    rw [hzid]
    exact List.mem_map.mpr ⟨y, List.mem_filter.mpr ⟨hy, List.contains_iff_mem.mpr hin⟩, rfl⟩
  have hz' : leave z ∈ (step env s₂ (.kick k reason)).sockets := by
    rw [hsockets₃]
    exact Rows.mem_updateMany.mpr ⟨z, hz, by rw [if_pos (List.contains_iff_mem.mpr hfetched)]⟩
  obtain ⟨w, hw, hwid, hgoes⟩ := hfollows₄ (leave z) hz'
  rw [hend] at hx
  have hsame : w = x := hwf₄.ids.eq hw hx (hwid.trans (hzid.trans hid.symm))
  rw [hsame] at hgoes
  -- a socket that is gone stays gone, so `x` cannot be connected
  cases hconnected : x.connected with
  | false => rfl
  | true => exact absurd (hgoes hconnected).1 Bool.false_ne_true

/-- A socket that is connected in the room of the user after a kick was past its session check
but not yet in the room when the kick fetched, or has passed the check of a live session since. -/
theorem kick_leaves (env : AuthEnv) {s : State} (hwf : Wf s) (mid post : List Act) (k : Nat)
    (userId : Id) (reason : Option String) (hfetch : ∀ a ∈ mid, ∀ u, a ≠ .fetch k u)
    (hkick : ∀ a ∈ mid, ∀ r, a ≠ .kick k r) :
    ∀ x ∈ (run (step env) s (.fetch k userId :: mid ++ .kick k reason :: post)).sockets,
      x.connected = true → Room.user userId ∈ x.rooms →
      (∃ y ∈ s.sockets, y.id = x.id ∧ Racing userId y.phase) ∨
        CheckedSince env s (.fetch k userId :: mid ++ .kick k reason :: post) userId x.id := by
  intro x hx hconnected hroom
  obtain ⟨hwf_end, hfollows⟩ := run_follows env hwf (.fetch k userId :: mid ++ .kick k reason :: post)
  -- the row of `x` in `s` is that of a socket that was connected then
  have hbefore : ∀ y ∈ s.sockets, y.id = x.id → y.connected = true := by
    intro y hy hid
    obtain ⟨y', hy', hid', hgoes⟩ := hfollows y hy
    obtain rfl := hwf_end.ids.eq hy' hx (hid'.trans hid)
    exact (hgoes hconnected).1
  have hpast : Past userId x.phase := by
    have hrooms := hwf_end.rooms x hx
    rw [if_pos hconnected] at hrooms
    exact past_of_room (hrooms ▸ hroom)
  rcases run_origin env s userId _ x hx hpast with ⟨y, hy, hid, hy_past⟩ | hchecked
  · rcases past_cases hy_past with hracing | hin
    · exact Or.inl ⟨y, hy, hid, hracing⟩
    · have hrooms := hwf.rooms y hy
      rw [if_pos (hbefore y hy hid)] at hrooms
      have hgone := kick_disconnects env hwf mid post k userId reason hfetch hkick y hy
        (hrooms ▸ hin) x hx hid.symm
      exact absurd (hconnected.symm.trans hgone) Bool.true_eq_false.mp
  · exact Or.inr hchecked

/-- In every run in which a kick of a user fetches and then disconnects, whatever happens before,
between and after: a socket that is connected in the room of the user at the end was past its
session check but not yet in the room when the kick fetched, or has passed the check of a live
session since; and every socket that was in the room when it fetched is disconnected. -/
theorem kick_leaves_racers (env : AuthEnv) (db : Db) (before mid post : List Act) (k : Nat)
    (userId : Id) (reason : Option String) (hfetch : ∀ a ∈ mid, ∀ u, a ≠ .fetch k u)
    (hkick : ∀ a ∈ mid, ∀ r, a ≠ .kick k r) :
    (∀ x ∈ (run (step env) (run (step env) (start db) before)
        (.fetch k userId :: mid ++ .kick k reason :: post)).sockets,
      x.connected = true → Room.user userId ∈ x.rooms →
      (∃ y ∈ (run (step env) (start db) before).sockets, y.id = x.id ∧ Racing userId y.phase) ∨
        CheckedSince env (run (step env) (start db) before)
          (.fetch k userId :: mid ++ .kick k reason :: post) userId x.id) ∧
    ∀ y ∈ (run (step env) (start db) before).sockets, Room.user userId ∈ y.rooms →
      ∀ x ∈ (run (step env) (run (step env) (start db) before)
          (.fetch k userId :: mid ++ .kick k reason :: post)).sockets,
        x.id = y.id → x.connected = false := by
  have hwf := (run_follows env (start_wf db) before).1
  exact ⟨kick_leaves env hwf mid post k userId reason hfetch hkick,
    kick_disconnects env hwf mid post k userId reason hfetch hkick⟩

/-- Two connections with one ticket: one is in the room, one is past its checks. -/
def twoSockets : List Act :=
  [.connect "a" (some "ticket-1") none 1000, .find "a", .session "a", .device "a",
   .connect "b" (some "ticket-1") none 1000, .find "b", .session "b", .device "b", .commit "b",
   .enter "b"]

/-- The kick reaches the one in the room; the other enters after it. -/
theorem racer_survives :
    (∃ x ∈ (run (step sampleEnv) (run (step sampleEnv) (start Tickets.sampleDb) twoSockets)
        (.fetch 0 "alice" :: [.commit "a"] ++ .kick 0 none :: [.enter "a"])).sockets,
      x.id = "a" ∧ x.connected = true ∧ Room.user "alice" ∈ x.rooms ∧
      ((∃ y ∈ (run (step sampleEnv) (start Tickets.sampleDb) twoSockets).sockets,
        y.id = x.id ∧ Racing "alice" y.phase) ∨
        CheckedSince sampleEnv (run (step sampleEnv) (start Tickets.sampleDb) twoSockets)
          (.fetch 0 "alice" :: [.commit "a"] ++ .kick 0 none :: [.enter "a"]) "alice" x.id)) ∧
    ∃ x ∈ (run (step sampleEnv) (run (step sampleEnv) (start Tickets.sampleDb) twoSockets)
        (.fetch 0 "alice" :: [.commit "a"] ++ .kick 0 none :: [.enter "a"])).sockets,
      x.id = "b" ∧ x.connected = false := by
  have hin : ∃ x ∈ (run (step sampleEnv) (run (step sampleEnv) (start Tickets.sampleDb) twoSockets)
        (.fetch 0 "alice" :: [.commit "a"] ++ .kick 0 none :: [.enter "a"])).sockets,
      x.id = "a" ∧ x.connected = true ∧ Room.user "alice" ∈ x.rooms := by decide
  have hfetched : ∃ y ∈ (run (step sampleEnv) (start Tickets.sampleDb) twoSockets).sockets,
      y.id = "b" ∧ Room.user "alice" ∈ y.rooms := by decide
  have hend : ∃ x ∈ (run (step sampleEnv) (run (step sampleEnv) (start Tickets.sampleDb) twoSockets)
        (.fetch 0 "alice" :: [.commit "a"] ++ .kick 0 none :: [.enter "a"])).sockets,
      x.id = "b" := by decide
  obtain ⟨hracers, hgone⟩ := kick_leaves_racers sampleEnv Tickets.sampleDb twoSockets
    [.commit "a"] [.enter "a"] 0 "alice" none
    (by intro a ha u h; rw [List.mem_singleton.mp ha] at h; cases h)
    (by intro a ha r h; rw [List.mem_singleton.mp ha] at h; cases h)
  constructor
  · obtain ⟨x, hx, hid, hconnected, hroom⟩ := hin
    exact ⟨x, hx, hid, hconnected, hroom, hracers x hx hconnected hroom⟩
  · obtain ⟨y, hy, hyid, hroom⟩ := hfetched
    obtain ⟨x, hx, hid⟩ := hend
    exact ⟨x, hx, hid, hgone y hy hroom x hx (hid.trans hyid.symm)⟩

end Birgap.Realtime.Gateway
