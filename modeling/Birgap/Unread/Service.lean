import Birgap.Schema
import Birgap.Lib.Rows

/-!
# Unread counters

`UnreadService.markAllRead` and the query and upsert of `UnreadRecalcProcessor`.
-/
namespace Birgap.Unread

set_option autoImplicit false

open Birgap.Lib

/-- The fields a recalculation job is identified by, `userId:threadType:threadId`. -/
structure RecalcKey where
  userId : Id
  threadType : ThreadType
  threadId : Id
  deriving DecidableEq

/-- The conversation column a thread type selects. -/
def inThread (threadType : ThreadType) (threadId : Id) (m : Message) : Bool :=
  match threadType with
  | .direct => m.threadId == some threadId
  | .group => m.groupId == some threadId

/-- The message an envelope belongs to, by its foreign key. -/
def messageOf (e : MessageEnvelope) (db : Db) : Option Message :=
  db.messages.find? (·.id == e.messageId)

/-- The primary key `(userId, threadType, threadId)`. -/
def counterFor (key : RecalcKey) (c : UnreadCounter) : Bool :=
  c.userId == key.userId && c.threadType == key.threadType && c.threadId == key.threadId

def setCount (count : Nat) (c : UnreadCounter) : UnreadCounter := { c with count }

def upsertCounter (key : RecalcKey) (count : Nat) (counters : List UnreadCounter) :
    List UnreadCounter :=
  if counters.any (counterFor key) then
    Rows.updateMany (counterFor key) (setCount count) counters
  else counters ++ [{ userId := key.userId, threadType := key.threadType
                      threadId := key.threadId, count }]

/-- The envelopes `markAllRead` and the count of unread messages look at. -/
def unreadEnvelope (key : RecalcKey) (db : Db) (e : MessageEnvelope) : Bool :=
  e.recipientUserId == key.userId && e.status != .read &&
    (messageOf e db).any (inThread key.threadType key.threadId)

/-- `UnreadService.markAllRead`. -/
def markAllRead (now : Time) (key : RecalcKey) (db : Db) : Db :=
  { db with
    messageEnvelopes := Rows.updateMany (unreadEnvelope key db)
      (fun e => { e with status := .read, readAt := some now, updatedAt := now })
      db.messageEnvelopes
    unreadCounters := upsertCounter key 0 db.unreadCounters }

/-- The envelopes the recalculation counts: those of messages of others. -/
def countedEnvelope (key : RecalcKey) (db : Db) (e : MessageEnvelope) : Bool :=
  unreadEnvelope key db e && (messageOf e db).any (·.senderUserId != key.userId)

/-- The raw query of the recalculation job: COUNT(DISTINCT messageId). -/
def unreadCount (key : RecalcKey) (db : Db) : Nat :=
  ((db.messageEnvelopes.filter (countedEnvelope key db)).map (·.messageId)).dedup.length

/-- The stored counter of a key. -/
def counterOf (key : RecalcKey) (db : Db) : Option Nat :=
  (db.unreadCounters.find? (counterFor key)).map (·.count)

/-- A message of one conversation is in the thread of one key only. -/
theorem inThread_inj {t t' : ThreadType} {i i' : Id} {m : Message}
    (hx : m.threadId = none ∨ m.groupId = none) (h : inThread t i m = true)
    (h' : inThread t' i' m = true) : t = t' ∧ i = i' := by
  cases t <;> cases t' <;> simp only [inThread, beq_iff_eq] at h h'
  · exact ⟨rfl, Option.some.inj (h.symm.trans h')⟩
  · rcases hx with hx | hx
    · rw [hx] at h
      cases h
    · rw [hx] at h'
      cases h'
  · rcases hx with hx | hx
    · rw [hx] at h'
      cases h'
    · rw [hx] at h
      cases h
  · exact ⟨rfl, Option.some.inj (h.symm.trans h')⟩

theorem countedEnvelope_iff {key : RecalcKey} {db : Db} {e : MessageEnvelope} {m : Message}
    (hm : messageOf e db = some m) :
    countedEnvelope key db e = true ↔
      e.recipientUserId = key.userId ∧ e.status ≠ .read ∧
      inThread key.threadType key.threadId m = true ∧ m.senderUserId ≠ key.userId := by
  simp only [countedEnvelope, unreadEnvelope, hm, Option.any_some, Bool.and_eq_true, beq_iff_eq,
    bne_iff_ne, and_assoc]

/-- Rewriting rows without changing what counts keeps the number. -/
theorem unreadCount_map {key : RecalcKey} {db db' : Db} {g : MessageEnvelope → MessageEnvelope}
    (henv : db'.messageEnvelopes = db.messageEnvelopes.map g)
    (hid : ∀ e, (g e).messageId = e.messageId)
    (hc : ∀ e ∈ db.messageEnvelopes, countedEnvelope key db' (g e) = countedEnvelope key db e) :
    unreadCount key db' = unreadCount key db := by
  have hf : db.messageEnvelopes.filter (countedEnvelope key db' ∘ g) =
      db.messageEnvelopes.filter (countedEnvelope key db) := List.filter_congr hc
  have hg : ((·.messageId) ∘ g : MessageEnvelope → Id) = (·.messageId) := funext hid
  unfold unreadCount
  rw [henv, List.filter_map, List.map_map, hf, hg]

/-- Appending rows that do not count keeps the number. -/
theorem unreadCount_append {key : RecalcKey} {db db' : Db} {extra : List MessageEnvelope}
    (henv : db'.messageEnvelopes = db.messageEnvelopes ++ extra)
    (hold : ∀ e ∈ db.messageEnvelopes, countedEnvelope key db' e = countedEnvelope key db e)
    (hnew : ∀ e ∈ extra, ¬ countedEnvelope key db' e = true) :
    unreadCount key db' = unreadCount key db := by
  unfold unreadCount
  rw [henv, List.filter_append, List.filter_congr hold, List.filter_eq_nil_iff.mpr hnew,
    List.append_nil]

theorem unreadCount_eq_zero {key : RecalcKey} {db : Db}
    (h : ∀ e ∈ db.messageEnvelopes, ¬ countedEnvelope key db e = true) : unreadCount key db = 0 := by
  unfold unreadCount
  rw [List.filter_eq_nil_iff.mpr h]
  rfl

theorem counterFor_eq {key key' : RecalcKey} {c : UnreadCounter} (h : counterFor key c = true)
    (h' : counterFor key' c = true) : key = key' := by
  simp only [counterFor, Bool.and_eq_true, beq_iff_eq] at h h'
  obtain ⟨⟨hu, ht⟩, hi⟩ := h
  obtain ⟨⟨hu', ht'⟩, hi'⟩ := h'
  cases key
  cases key'
  simp_all

theorem counterOf_upsert_self {key : RecalcKey} {n : Nat} {db db' : Db}
    (h : db'.unreadCounters = upsertCounter key n db.unreadCounters) :
    counterOf key db' = some n := by
  unfold counterOf
  rw [h, upsertCounter]
  split
  · rename_i hany
    obtain ⟨c₀, hc₀, hfor⟩ := List.any_eq_true.mp hany
    cases hf : db.unreadCounters.find? (counterFor key) with
    | none => exact absurd hfor (List.find?_eq_none.mp hf c₀ hc₀)
    | some c =>
        rw [Rows.find?_updateMany (f := setCount n) (fun _ => rfl), hf,
          Option.map_some, if_pos (List.find?_some hf)]
        rfl
  · rename_i hnone
    have hf : db.unreadCounters.find? (counterFor key) = none := by
      rw [List.find?_eq_none]
      intro c hc hfor
      exact hnone (List.any_eq_true.mpr ⟨c, hc, hfor⟩)
    rw [List.find?_append, hf, Option.none_or]
    simp [counterFor]

theorem counterOf_upsert_of_ne {key key' : RecalcKey} {n : Nat} {db db' : Db} (hne : key' ≠ key)
    (h : db'.unreadCounters = upsertCounter key n db.unreadCounters) :
    counterOf key' db' = counterOf key' db := by
  unfold counterOf
  rw [h, upsertCounter]
  split
  · rw [Rows.find?_updateMany (f := setCount n) (fun _ => rfl)]
    cases hf : db.unreadCounters.find? (counterFor key') with
    | none => rfl
    | some c =>
        have hfor := List.find?_some hf
        rw [Option.map_some, if_neg fun hk => hne (counterFor_eq hfor hk)]
  · rw [List.find?_append]
    have hnew : List.find? (counterFor key') [{ userId := key.userId
                                                threadType := key.threadType
                                                threadId := key.threadId, count := n }] = none := by
      rw [List.find?_eq_none]
      intro c hc hfor
      rw [List.mem_singleton.mp hc] at hfor
      exact hne (counterFor_eq hfor (by simp [counterFor]))
    rw [hnew, Option.or_none]

end Birgap.Unread
