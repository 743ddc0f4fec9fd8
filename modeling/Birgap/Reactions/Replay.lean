import Birgap.Reactions.Service
import Birgap.Lib.Run

/-!
# Reaction events against the stored counts

One participant of a direct thread watches a message: it starts from the counts of
`getAggregated` and applies the documented rules to the events it receives, while the other
participant toggles and removes a reaction. A toggle that replaces one emoji by another
sends a single event, so the watcher keeps the emoji that is gone.
-/
namespace Birgap.Reactions.Replay

set_option autoImplicit false

open Birgap.Lib Birgap.Lib.Run Birgap.Lib.Tx Birgap.Messages Birgap.Reactions

/-- The message watched, its thread, who reacts and who watches. -/
structure Scene where
  messageId : Id
  threadId : Id
  actor : Id
  observer : Id

/-- The message belongs to a direct thread of the two, and the reactions keep their unique
indexes. -/
structure Watched (c : Scene) (db : Db) : Prop where
  message : ∃ m, db.messages.find? (·.id == c.messageId) = some m ∧
    m.threadId = some c.threadId ∧ m.groupId = none
  thread : ∃ t, db.directThreads.find? (·.id == c.threadId) = some t ∧
    ((t.userAId = c.actor ∧ t.userBId = c.observer) ∨ (t.userAId = c.observer ∧ t.userBId = c.actor))
  distinct : c.actor ≠ c.observer
  ids : Rows.Unique (·.id) db.messageReactions
  keys : Rows.Unique reactionKey db.messageReactions

/-- A cached entry holds the stored counts. -/
def Coherent (s : Store) : Prop :=
  ∀ m counts, s.cache m = some counts → ∀ e, lookup e counts = stored m e s.db

/-! ## The service, whoever calls it -/

/-- A call of the service by any user on any message, or the expiry of a cached entry. -/
inductive ServiceCall where
  | toggle (now : Time) (reactionId userId messageId : Id) (emoji : String)
  | remove (now : Time) (userId messageId : Id)
  | getAggregated (userId messageId : Id)
  | expire (messageId : Id)

def serve (s : Store) : ServiceCall → Store
  | .toggle now reactionId userId messageId emoji =>
      match toggle now reactionId userId messageId emoji s with
      | .ok (_, s', _) => s'
      | .error _ => s
  | .remove now userId messageId =>
      match remove now userId messageId s with
      | .ok (_, s', _) => s'
      | .error _ => s
  | .getAggregated userId messageId =>
      match getAggregated userId messageId s with
      | .ok (_, s') => s'
      | .error _ => s
  | .expire messageId => s.invalidate messageId

/-- What one transaction may do to the reactions: rows of other messages are left alone, and
the unique indexes stay. -/
structure Touches (messageId : Id) (db db' : Db) : Prop where
  frame : db' = { db with messageReactions := db'.messageReactions }
  others : ∀ m e, m ≠ messageId → stored m e db' = stored m e db
  ids : Rows.Unique (·.id) db.messageReactions → Rows.Unique (·.id) db'.messageReactions
  keys : Rows.Unique reactionKey db.messageReactions → Rows.Unique reactionKey db'.messageReactions

theorem touches_delete {db : Db} {r : MessageReaction} (hu : Rows.Unique (·.id) db.messageReactions)
    (hr : r ∈ db.messageReactions) : Touches r.messageId db (deleteReaction r.id db) where
  frame := rfl
  others := by
    intro m e hm
    have h := stored_delete hu hr m e
    rw [if_neg fun he => hm he.1.symm] at h
    exact h
  ids := fun h => h.filter _
  keys := fun h => h.filter _

theorem toggleTx_touches {now : Time} {reactionId userId messageId : Id} {emoji : String}
    {db db' : Db} {r : ToggleResult} (hids : Rows.Unique (·.id) db.messageReactions)
    (hkeys : Rows.Unique reactionKey db.messageReactions)
    (h : toggleTx now reactionId userId messageId emoji db = .ok (r, db')) :
    Touches messageId db db' := by
  unfold toggleTx at h
  split at h
  · rename_i existing hfind
    obtain ⟨hmem, rfl, rfl⟩ := findReaction_some hfind
    split at h
    · obtain ⟨_, rfl⟩ := Prod.mk.inj (Except.ok.inj h)
      exact touches_delete hids hmem
    · obtain ⟨_, rfl⟩ := Prod.mk.inj (Except.ok.inj h)
      refine ⟨rfl, ?_, ?_, ?_⟩
      · intro m e hm
        have hcount := stored_changeEmoji hkeys hmem emoji m e
        rw [if_neg fun he => hm he.1.symm, if_neg fun he => hm he.1.symm] at hcount
        exact hcount
      · exact Rows.unique_updateMany (f := fun r : MessageReaction => { r with emoji := emoji })
          fun _ => rfl
      · exact Rows.unique_updateMany (f := fun r : MessageReaction => { r with emoji := emoji })
          fun _ => rfl
  · rename_i hnone
    split at h
    · cases h
    · rename_i hid
      obtain ⟨_, rfl⟩ := Prod.mk.inj (Except.ok.inj h)
      refine ⟨rfl, ?_, ?_, ?_⟩
      · intro m e hm
        rw [stored_create, if_neg fun he => hm he.1.symm]
        rfl
      · intro hu
        apply Rows.unique_append hu
        intro a ha he
        exact hid (List.any_eq_true.mpr ⟨a, ha, by simpa using he⟩)
      · intro hu
        apply Rows.unique_append hu
        intro a ha he
        obtain ⟨huser, hmessage⟩ := Prod.mk.inj he
        have hno := List.find?_eq_none.mp hnone a ha
        simp [huser, hmessage] at hno

theorem Watched.touched {c : Scene} {messageId : Id} {db db' : Db} (h : Watched c db)
    (ht : Touches messageId db db') : Watched c db' := by
  refine ⟨?_, ?_, h.distinct, ht.ids h.ids, ht.keys h.keys⟩
  · rw [ht.frame]
    exact h.message
  · rw [ht.frame]
    exact h.thread

/-- A change takes the cached entry of its message away, and no other count moved. -/
theorem Coherent.touched {messageId : Id} {s : Store} {db' : Db} (h : Coherent s)
    (ht : Touches messageId s.db db') : Coherent ({ s with db := db' }.invalidate messageId) := by
  intro m counts hc e
  simp only [Store.invalidate] at hc ⊢
  split at hc
  · cases hc
  · rename_i hm
    rw [h m counts hc e, ht.others m e hm]

/-- What every call of the service keeps. -/
structure Sound (c : Scene) (s : Store) : Prop where
  watched : Watched c s.db
  coherent : Coherent s

theorem Sound.touched {c : Scene} {messageId : Id} {s : Store} {db' : Db} (h : Sound c s)
    (ht : Touches messageId s.db db') : Sound c ({ s with db := db' }.invalidate messageId) :=
  ⟨h.watched.touched ht, h.coherent.touched ht⟩

theorem toggle_ok {now : Time} {reactionId userId messageId : Id} {emoji : String} {s s' : Store}
    {r : ToggleResult} {sent : Sent}
    (h : toggle now reactionId userId messageId emoji s = .ok (r, s', sent)) :
    ∃ m db, reactionAccess userId messageId s.db = .ok m ∧
      toggleTx now reactionId userId messageId emoji s.db = .ok (r, db) ∧
      s' = { s with db := db }.invalidate messageId ∧
      sent = emitReactionEvent now r.type r.reactionId m userId r.emoji s.db := by
  unfold toggle at h
  obtain ⟨m, hm, h⟩ := bind_ok.mp h
  obtain ⟨⟨r', db⟩, htx, h⟩ := bind_ok.mp h
  obtain ⟨rfl, hs, hsent⟩ := by simpa using Except.ok.inj h
  exact ⟨m, db, hm, htx, hs.symm, hsent.symm⟩

theorem remove_ok {now : Time} {userId messageId : Id} {s s' : Store} {removed : Bool} {sent : Sent}
    (h : remove now userId messageId s = .ok (removed, s', sent)) :
    ∃ m, reactionAccess userId messageId s.db = .ok m ∧
      ((findReaction userId messageId s.db = none ∧ s' = s ∧ sent = {}) ∨
        ∃ r, findReaction userId messageId s.db = some r ∧
          s' = { s with db := deleteReaction r.id s.db }.invalidate messageId ∧
          sent = emitReactionEvent now .removed r.id m userId r.emoji s.db) := by
  unfold remove at h
  obtain ⟨m, hm, h⟩ := bind_ok.mp h
  refine ⟨m, hm, ?_⟩
  unfold removeTx at h
  cases hfind : findReaction userId messageId s.db with
  | none =>
      rw [hfind] at h
      obtain ⟨_, hs, hsent⟩ := by simpa using Except.ok.inj h
      exact Or.inl ⟨rfl, hs.symm, hsent.symm⟩
  | some r =>
      rw [hfind] at h
      obtain ⟨_, hs, hsent⟩ := by simpa using Except.ok.inj h
      exact Or.inr ⟨r, rfl, hs.symm, hsent.symm⟩

theorem getAggregated_ok {userId messageId : Id} {s s' : Store} {answer : List ReactionCount}
    (h : getAggregated userId messageId s = .ok (answer, s')) :
    s'.db = s.db ∧ ∃ counts, s'.cache messageId = some counts ∧
      (∀ m, m ≠ messageId → s'.cache m = s.cache m) ∧
      (s.cache messageId = some counts ∨
        counts = aggregate (s.db.messageReactions.filter (·.messageId == messageId))) ∧
      answer = counts.map fun c =>
        { emoji := c.1, count := c.2
          reacted := (findReaction userId messageId s.db).map (·.emoji) == some c.1 } := by
  unfold getAggregated at h
  obtain ⟨m, _, h⟩ := bind_ok.mp h
  cases hc : s.cache messageId with
  | some cached =>
      rw [hc] at h
      obtain ⟨rfl, rfl⟩ := Prod.mk.inj (Except.ok.inj h)
      exact ⟨rfl, cached, hc, fun _ _ => rfl, Or.inl rfl, rfl⟩
  | none =>
      rw [hc] at h
      obtain ⟨rfl, rfl⟩ := Prod.mk.inj (Except.ok.inj h)
      refine ⟨rfl, _, if_pos rfl, ?_, Or.inr rfl, rfl⟩
      intro m hm
      exact if_neg hm

theorem sound_getAggregated {c : Scene} {userId messageId : Id} {s s' : Store}
    {answer : List ReactionCount} (hs : Sound c s)
    (h : getAggregated userId messageId s = .ok (answer, s')) : Sound c s' := by
  obtain ⟨hdb, counts, hc, hothers, hcounts, _⟩ := getAggregated_ok h
  refine ⟨hdb ▸ hs.watched, ?_⟩
  intro m cs hm e
  rw [hdb]
  by_cases he : m = messageId
  · subst he
    obtain rfl := Option.some.inj (hc.symm.trans hm)
    rcases hcounts with hcached | rfl
    · exact hs.coherent m counts hcached e
    · exact lookup_aggregate_stored e m s.db
  · rw [hothers m he] at hm
    exact hs.coherent m cs hm e

theorem serve_sound (c : Scene) (s : Store) (call : ServiceCall) (hs : Sound c s) :
    Sound c (serve s call) := by
  cases call with
  | toggle now reactionId userId messageId emoji =>
      simp only [serve]
      split
      · rename_i h
        obtain ⟨_, db, _, htx, rfl, _⟩ := toggle_ok h
        exact hs.touched (toggleTx_touches hs.watched.ids hs.watched.keys htx)
      · exact hs
  | remove now userId messageId =>
      simp only [serve]
      split
      · rename_i h
        obtain ⟨_, _, ⟨_, rfl, _⟩ | ⟨r, hr, rfl, _⟩⟩ := remove_ok h
        · exact hs
        · obtain ⟨hmem, _, rfl⟩ := findReaction_some hr
          exact hs.touched (touches_delete hs.watched.ids hmem)
      · exact hs
  | getAggregated userId messageId =>
      simp only [serve]
      split
      · rename_i h
        exact sound_getAggregated hs h
      · exact hs
  | expire messageId =>
      have htouches : Touches messageId s.db s.db :=
        ⟨rfl, fun _ _ _ => rfl, fun hu => hu, fun hu => hu⟩
      exact hs.touched htouches

/-! ## The watcher -/

/-- The service and what the watcher shows for each emoji. -/
structure View where
  store : Store
  counts : String → Int

/-- The documented client rules, for the events on the watched message. -/
def receive (c : Scene) (counts : String → Int) : Id × SocketEvent → String → Int
  | (target, .reactionNew p _), e =>
      if target = c.observer ∧ p.messageId = c.messageId ∧ p.emoji = e then counts e + 1 else counts e
  | (target, .reactionRemoved p), e =>
      if target = c.observer ∧ p.messageId = c.messageId ∧ p.emoji = e then counts e - 1 else counts e

/-- A call of the participant who reacts. -/
inductive Call where
  | toggle (now : Time) (reactionId : Id) (emoji : String)
  | remove (now : Time)

def step (c : Scene) (v : View) : Call → View
  | .toggle now reactionId emoji =>
      match toggle now reactionId c.actor c.messageId emoji v.store with
      | .ok (_, s, sent) => ⟨s, sent.events.foldl (receive c) v.counts⟩
      | .error _ => v
  | .remove now =>
      match remove now c.actor c.messageId v.store with
      | .ok (_, s, sent) => ⟨s, sent.events.foldl (receive c) v.counts⟩
      | .error _ => v

/-- The watcher shows what is stored. -/
def Agrees (c : Scene) (v : View) : Prop :=
  ∀ e, v.counts e = (stored c.messageId e v.store.db : Int)

/-- The call does not replace a stored emoji by another. -/
def NoReplacement (c : Scene) (v : View) : Call → Prop
  | .toggle _ _ emoji =>
      ∀ r, findReaction c.actor c.messageId v.store.db = some r → r.emoji = emoji
  | .remove _ => True

/-- The counts the watcher starts from. -/
def initial (answer : List ReactionCount) (e : String) : Int :=
  ((answer.find? (·.emoji == e)).map (·.count)).getD 0

/-! ## One call -/

/-- Both participants pass the access check. -/
theorem Watched.access {c : Scene} {db : Db} (h : Watched c db) {userId : Id}
    (hu : userId = c.actor ∨ userId = c.observer) :
    ∃ m, reactionAccess userId c.messageId db = .ok m := by
  obtain ⟨m, hm, hthread, hgroup⟩ := h.message
  obtain ⟨t, ht, hparts⟩ := h.thread
  refine ⟨m, ?_⟩
  have hin : (t.userAId == userId || t.userBId == userId) = true := by
    rcases hparts with ⟨ha, hb⟩ | ⟨ha, hb⟩
    · rcases hu with rfl | rfl
      · simp [ha]
      · simp [hb]
    · rcases hu with rfl | rfl
      · simp [hb]
      · simp [ha]
  unfold reactionAccess checkReactor checkParticipant
  simp only [hm, hthread, ht, Option.any_some, hin, ensure]
  rfl

theorem reactionAccess_ok {userId messageId : Id} {db : Db} {m : Message}
    (h : reactionAccess userId messageId db = .ok m) :
    db.messages.find? (·.id == messageId) = some m := by
  unfold reactionAccess at h
  split at h
  · cases h
  · rename_i m' hm
    obtain ⟨_, _, h⟩ := bind_ok.mp h
    rw [hm, Except.ok.inj h]

/-- What a change of an emoji adds to the counts the watcher shows. -/
def delta (type : ChangeType) (emoji e : String) : Int :=
  if emoji = e then
    match type with
    | .created => 1
    | .removed => -1
  else 0

/-- The watcher gets one event for each change, and applies it. -/
theorem received {c : Scene} {db : Db} (h : Watched c db) {m : Message}
    (hm : reactionAccess c.actor c.messageId db = .ok m) (now : Time) (type : ChangeType)
    (reactionId : Id) (emoji : String) (counts : String → Int) :
    (emitReactionEvent now type reactionId m c.actor emoji db).events.foldl (receive c) counts =
      fun e => counts e + delta type emoji e := by
  obtain ⟨m', hm', hthread, hgroup⟩ := h.message
  have hsame : m = m' := Option.some.inj ((reactionAccess_ok hm).symm.trans hm')
  subst hsame
  have hid : m.id = c.messageId := by simpa using List.find?_some hm'
  obtain ⟨t, ht, hparts⟩ := h.thread
  have htargets : [t.userAId, t.userBId].filter (· != c.actor) = [c.observer] := by
    have hne : (c.observer != c.actor) = true := by simpa using fun he => h.distinct he.symm
    rcases hparts with ⟨ha, hb⟩ | ⟨ha, hb⟩
    · simp [ha, hb, hne]
    · simp [ha, hb, hne]
  funext e
  unfold emitReactionEvent
  rw [hgroup, hthread]
  simp only [ht, htargets, gatewayEvents, List.map_cons, List.map_nil, List.foldl_cons,
    List.foldl_nil]
  cases type with
  | created =>
      by_cases he : emoji = e
      · simp [receive, delta, hid, he]
      · simp [receive, delta, he]
  | removed =>
      by_cases he : emoji = e
      · simp [receive, delta, hid, he, Int.sub_eq_add_neg]
      · simp [receive, delta, he]

/-- What a toggle does to the rows, and which change it reports. -/
theorem toggleTx_cases {now : Time} {reactionId userId messageId : Id} {emoji : String} {db db' : Db}
    {r : ToggleResult} (h : toggleTx now reactionId userId messageId emoji db = .ok (r, db')) :
    r.emoji = emoji ∧
      ((∃ x, findReaction userId messageId db = some x ∧ x.emoji = emoji ∧ r.type = .removed ∧
          db' = deleteReaction x.id db) ∨
        (∃ x, findReaction userId messageId db = some x ∧ x.emoji ≠ emoji ∧ r.type = .created ∧
          db' = changeEmoji userId messageId emoji db) ∨
        (findReaction userId messageId db = none ∧ r.type = .created ∧
          ∃ row : MessageReaction, row.messageId = messageId ∧ row.emoji = emoji ∧
            db' = { db with messageReactions := db.messageReactions ++ [row] })) := by
  unfold toggleTx at h
  split at h
  · rename_i x hx
    split at h
    · rename_i he
      obtain ⟨rfl, rfl⟩ := Prod.mk.inj (Except.ok.inj h)
      exact ⟨he, Or.inl ⟨x, hx, he, rfl, rfl⟩⟩
    · rename_i he
      obtain ⟨rfl, rfl⟩ := Prod.mk.inj (Except.ok.inj h)
      exact ⟨rfl, Or.inr (Or.inl ⟨x, hx, he, rfl, rfl⟩)⟩
  · rename_i hx
    split at h
    · cases h
    · obtain ⟨rfl, rfl⟩ := Prod.mk.inj (Except.ok.inj h)
      exact ⟨rfl, Or.inr (Or.inr ⟨hx, rfl, _, rfl, rfl, rfl⟩)⟩

/-- A toggle that fails found no reaction. -/
theorem toggleTx_error {now : Time} {reactionId userId messageId : Id} {emoji : String} {db : Db}
    {e : Err} (h : toggleTx now reactionId userId messageId emoji db = .error e) :
    findReaction userId messageId db = none := by
  unfold toggleTx at h
  split at h
  · split at h <;> cases h
  · rename_i hx
    exact hx

/-- The event of a removal takes the watcher to the counts without the row. -/
theorem removed_counts {c : Scene} {v : View} (hw : Watched c v.store.db) (hv : Agrees c v)
    {x : MessageReaction} (hmem : x ∈ v.store.db.messageReactions)
    (hmsg : x.messageId = c.messageId) (e : String) :
    v.counts e + delta .removed x.emoji e =
      (stored c.messageId e (deleteReaction x.id v.store.db) : Int) := by
  have hstored := stored_delete hw.ids hmem c.messageId e
  have hbefore := hv e
  simp only [delta, hmsg, true_and] at hstored ⊢
  split at hstored
  · rename_i heq
    rw [if_pos heq]
    omega
  · rename_i heq
    rw [if_neg heq]
    omega

theorem toggle_agrees_iff {c : Scene} {v : View} (hw : Watched c v.store.db) (hv : Agrees c v)
    (now : Time) (reactionId : Id) (emoji : String) :
    Agrees c (step c v (.toggle now reactionId emoji)) ↔
      NoReplacement c v (.toggle now reactionId emoji) := by
  obtain ⟨m, hm⟩ := hw.access (Or.inl rfl)
  cases htx : toggleTx now reactionId c.actor c.messageId emoji v.store.db with
  | error err =>
      have hcall : toggle now reactionId c.actor c.messageId emoji v.store = .error err := by
        unfold toggle
        rw [hm, htx]
        rfl
      simp only [step, hcall, NoReplacement, toggleTx_error htx]
      exact ⟨fun _ r hr => (Option.some_ne_none r hr.symm).elim, fun _ => hv⟩
  | ok rd =>
      obtain ⟨r, db⟩ := rd
      have hcall : toggle now reactionId c.actor c.messageId emoji v.store =
          .ok (r, { v.store with db := db }.invalidate c.messageId,
            emitReactionEvent now r.type r.reactionId m c.actor r.emoji v.store.db) := by
        unfold toggle
        rw [hm, htx]
        rfl
      have hcounts := received hw hm now r.type r.reactionId r.emoji v.counts
      simp only [step, hcall, NoReplacement, Agrees, Store.invalidate, hcounts]
      obtain ⟨hemoji, ⟨x, hx, he, htype, rfl⟩ | ⟨x, hx, hne, htype, rfl⟩ |
        ⟨hx, htype, row, hmessage, hrow, rfl⟩⟩ := toggleTx_cases htx
      · -- the same emoji again: the row goes, and its removal is sent
        obtain ⟨hmem, _, hmsg⟩ := findReaction_some hx
        refine ⟨fun _ y hy => Option.some.inj (hx.symm.trans hy) ▸ he, fun _ e => ?_⟩
        rw [hemoji, htype, ← he]
        exact removed_counts hw hv hmem hmsg e
      · -- another emoji: the watcher is not told that the old one is gone
        obtain ⟨hmem, huser, hmsg⟩ := findReaction_some hx
        refine ⟨fun h => ?_, fun h => absurd (h x hx) hne⟩
        have hold := h x.emoji
        have hstored := stored_changeEmoji hw.keys hmem emoji c.messageId x.emoji
        have hbefore := hv x.emoji
        rw [huser, hmsg] at hstored
        have hne' : ¬ emoji = x.emoji := fun he => hne he.symm
        rw [hemoji] at hold
        simp only [delta, hne', if_false, true_and, if_true, and_false] at hold hstored
        omega
      · -- the first reaction
        refine ⟨fun _ y hy => ?_, fun _ e => ?_⟩
        · rw [hx] at hy
          cases hy
        · have hbefore := hv e
          rw [stored_create, hemoji, htype, hmessage, hrow]
          simp only [delta, true_and]
          split
          · omega
          · omega

theorem remove_agrees {c : Scene} {v : View} (hw : Watched c v.store.db) (hv : Agrees c v)
    (now : Time) : Agrees c (step c v (.remove now)) := by
  simp only [step]
  cases hcall : remove now c.actor c.messageId v.store with
  | error e => exact hv
  | ok r =>
      obtain ⟨removed, s, sent⟩ := r
      obtain ⟨m, hm, ⟨_, rfl, rfl⟩ | ⟨x, hx, rfl, rfl⟩⟩ := remove_ok hcall
      · exact hv
      · obtain ⟨hmem, _, hmsg⟩ := findReaction_some hx
        intro e
        have hcounts := received hw hm now .removed x.id x.emoji v.counts
        simp only [hcounts, Store.invalidate]
        exact removed_counts hw hv hmem hmsg e

theorem step_agrees_iff (c : Scene) (v : View) (call : Call) (hw : Watched c v.store.db)
    (hv : Agrees c v) : Agrees c (step c v call) ↔ NoReplacement c v call := by
  cases call with
  | toggle now reactionId emoji => exact toggle_agrees_iff hw hv now reactionId emoji
  | remove now => exact ⟨fun _ => trivial, fun _ => remove_agrees hw hv now⟩

theorem step_sound (c : Scene) (v : View) (call : Call) (hs : Sound c v.store) :
    Sound c (step c v call).store := by
  cases call with
  | toggle now reactionId emoji =>
      have h := serve_sound c v.store (.toggle now reactionId c.actor c.messageId emoji) hs
      simp only [step, serve] at h ⊢
      split
      · rename_i hcall
        rw [hcall] at h
        exact h
      · exact hs
  | remove now =>
      have h := serve_sound c v.store (.remove now c.actor c.messageId) hs
      simp only [step, serve] at h ⊢
      split
      · rename_i hcall
        rw [hcall] at h
        exact h
      · exact hs

/-! ## Whole runs -/

theorem initial_lookup (counts : Counts) (f : String × Nat → Bool) (e : String) :
    initial (counts.map fun c => { emoji := c.1, count := c.2, reacted := f c }) e =
      (lookup e counts : Int) := by
  unfold initial lookup
  rw [List.find?_map, Function.comp_def]
  cases counts.find? (·.1 == e) with
  | none => rfl
  | some c => rfl

/-- Whatever the service has done before, the counts of `getAggregated` are the stored
ones. -/
theorem initial_agrees {c : Scene} {s s' : Store} {answer : List ReactionCount} (hs : Sound c s)
    (h : getAggregated c.observer c.messageId s = .ok (answer, s')) :
    Agrees c ⟨s', initial answer⟩ := by
  have hs' := sound_getAggregated hs h
  obtain ⟨_, counts, hc, _, _, rfl⟩ := getAggregated_ok h
  intro e
  dsimp only
  rw [initial_lookup, hs'.coherent c.messageId counts hc e]

theorem getAggregated_returns {c : Scene} {s : Store} (hw : Watched c s.db) :
    ∃ answer s', getAggregated c.observer c.messageId s = .ok (answer, s') := by
  obtain ⟨m, hm⟩ := hw.access (Or.inr rfl)
  unfold getAggregated
  rw [hm]
  cases s.cache c.messageId with
  | some cached => exact ⟨_, _, rfl⟩
  | none => exact ⟨_, _, rfl⟩

def sampleScene : Scene :=
  { messageId := "m1", threadId := "t1", actor := "bob", observer := "alice" }

/-- A message of a thread between two users, without a reaction. -/
def sampleDb : Db :=
  { directThreads := [{ id := "t1", userAId := "alice", userBId := "bob", latestSequence := 1 }]
    messages := [{ id := "m1", threadId := some "t1", senderUserId := "alice"
                   senderDeviceId := "d1", idempotencyKey := "k1", threadSequence := 1
                   createdAt := 0 }] }

theorem sampleDb_watched : Watched sampleScene sampleDb where
  message := ⟨_, rfl, rfl, rfl⟩
  thread := ⟨_, rfl, Or.inr ⟨rfl, rfl⟩⟩
  distinct := by decide
  ids := by decide
  keys := by decide

end Birgap.Reactions.Replay
