import Birgap.Common.Crypto
import Birgap.Common.Uuid
import Birgap.Lib.Walk
import Birgap.Schema

/-!
# Reading the audit log

`AuditLogService.list` sorts by id, which nothing changes, and continues behind the cursor row,
which nothing removes. The requests of a reader who follows `nextCursor` are the pages of a walk
over a growing table, so the rules of such walks apply.
-/
namespace Birgap.Moderation.AuditLog

set_option autoImplicit false

open Birgap.Lib Birgap.Lib.Run Birgap.Lib.Paging Birgap.Common

/-- An audit row as it is stored. -/
structure AuditRow extends AdminAuditLog where
  id : Uuid
  createdAt : Time

structure Filters where
  action : Option AdminAuditAction := none
  targetType : Option AdminAuditTargetType := none
  actorUserId : Option String := none
  targetId : Option String := none
  from_ : Option Time := none
  to_ : Option Time := none
  searchText : Option String := none
  cursor : Option String := none
  limit : Nat

/-- The white space and line ends that `trim` removes. -/
def isTrimmed (c : Char) : Bool :=
  [0x09, 0x0A, 0x0B, 0x0C, 0x0D, 0x20, 0xA0, 0x1680, 0x2028, 0x2029, 0x202F, 0x205F, 0x3000,
    0xFEFF].contains c.toNat || decide (0x2000 ≤ c.toNat ∧ c.toNat ≤ 0x200A)

def trim (s : String) : String :=
  String.ofList (((s.toList.dropWhile isTrimmed).reverse.dropWhile isTrimmed).reverse)

/-- The search text, if it is long enough to be used. -/
def searchText (filters : Filters) : Option String :=
  (truthy (filters.searchText.map trim)).filter fun trimmed => decide (3 ≤ utf16Length trimmed)

/-- The `where` of the query; `contains text reason` is PostgreSQL's test without regard to
case. -/
def isListed (contains : String → String → Bool) (filters : Filters) (r : AuditRow) : Bool :=
  filters.action.all (r.action == ·) && filters.targetType.all (r.targetType == ·) &&
  (truthy filters.actorUserId).all (fun id => r.actorUserId == some id) &&
  (truthy filters.targetId).all (r.targetId == ·) &&
  (searchText filters).all (fun text => r.reason.any (contains text)) &&
  filters.from_.all (fun date => decide (date ≤ r.createdAt)) &&
  filters.to_.all (fun date => decide (r.createdAt ≤ date))

/-- `orderBy: [{ id: 'desc' }]`. -/
def idDesc (r : AuditRow) : OrderDual Uuid := OrderDual.toDual r.id

/-- The rows of the query before its `take`: with a cursor, those behind the cursor row. -/
def auditRows (contains : String → String → Bool) (order : OrderBy idDesc) (filters : Filters)
    (log : List AuditRow) : List AuditRow :=
  let rows := order.arrange log
  (match truthy filters.cursor with
    | none => rows
    | some cursor => afterRow (·.id.text == cursor) rows).filter (isListed contains filters)

structure AuditPage where
  items : List AuditRow
  nextCursor : Option String

/-- `AuditLogService.list`. -/
def list (contains : String → String → Bool) (order : OrderBy idDesc) (filters : Filters)
    (log : List AuditRow) : AuditPage :=
  let items := (auditRows contains order filters log).take (filters.limit + 1)
  let hasMore := decide (filters.limit < items.length)
  let slice := if hasMore then items.take filters.limit else items
  { items := slice
    nextCursor := if hasMore then slice.getLast?.map (·.id.text) else none }

/-! ## Following the cursor -/

/-- The log and a reader beside it: the cursor of the next request, whether the last page has
come, and everything received. -/
structure State where
  log : List AuditRow
  cursor : Option String := none
  done : Bool := false
  received : List AuditRow := []

inductive Act where
  | create (row : AuditRow)
  | fetch (order : OrderBy idDesc)

/-- A row whose id is taken is refused. -/
def step (contains : String → String → Bool) (filters : Filters) (s : State) : Act → State
  | .create row =>
      if s.log.any (fun r => decide (r.id = row.id)) then s else { s with log := s.log ++ [row] }
  | .fetch order =>
      if s.done then s
      else
        let page := list contains order { filters with cursor := s.cursor } s.log
        { s with
          cursor := page.nextCursor
          done := page.nextCursor.isNone
          received := s.received ++ page.items }

def start (log : List AuditRow) : State := { log }

/-! ## The walk behind it -/

def State.toWalk (s : State) : Walk.State AuditRow :=
  { rows := s.log, done := s.done, received := s.received }

def Act.toWalk : Act → Walk.Act idDesc
  | .create row => .insert row
  | .fetch order => .fetch order

/-- The next request starts behind the last row received. -/
def Linked (s : State) : Prop :=
  s.done = false → s.cursor = s.received.getLast?.map (·.id.text)

section Steps

variable {contains : String → String → Bool} {filters : Filters} {s : State}

/-- The rows behind the cursor row are those ahead of the reader. -/
theorem auditRows_eq (order : OrderBy idDesc) (hu : Rows.Unique idDesc s.log)
    (hreceived : ∀ r ∈ s.received, r ∈ s.log)
    (hcursor : s.cursor = s.received.getLast?.map (·.id.text)) :
    auditRows contains order { filters with cursor := s.cursor } s.log =
      Walk.found (isListed contains filters) order s.toWalk := by
  have hfilter : ∀ rows : List AuditRow,
      rows.filter (isListed contains { filters with cursor := s.cursor }) =
        rows.filter (isListed contains filters) := fun _ => rfl
  unfold auditRows Walk.found
  dsimp only
  rw [hfilter]
  cases hlast : s.received.getLast? with
  | none =>
      rw [hlast] at hcursor
      have hnone : truthy s.cursor = none := by
        rw [hcursor]
        rfl
      rw [hnone]
      apply List.filter_congr
      intro r _
      show _ = (Walk.ahead idDesc s.received r && _)
      rw [Walk.ahead, hlast]
      rfl
  | some cur =>
      have hcur : cur ∈ s.log := hreceived cur (List.mem_of_getLast? hlast)
      have hsome : truthy s.cursor = some cur.id.text := by
        rw [hcursor, hlast]
        exact Option.filter_some_pos (decide_eq_true cur.id.text_ne_empty)
      have honly : ∀ r ∈ order.arrange s.log, (r.id.text == cur.id.text) = true → r = cur := by
        intro r hr hid
        exact hu.eq (order.mem_arrange.mp hr) hcur (Uuid.text_injective (beq_iff_eq.mp hid))
      have hbehind : afterRow (fun r : AuditRow => r.id.text == cur.id.text) (order.arrange s.log) =
          rowsAfter idDesc (idDesc cur) (order.arrange s.log) :=
        afterRow_eq (α := AuditRow) (beq_self_eq_true cur.id.text)
          (order.ascending (List.pairwise_map.mp hu)) (order.mem_arrange.mpr hcur) honly
      rw [hsome]
      dsimp only
      rw [hbehind, rowsAfter, List.filter_filter]
      apply List.filter_congr
      intro r _
      show _ = (Walk.ahead idDesc s.received r && _)
      rw [Walk.ahead, hlast, Bool.and_comm]
      rfl

/-- The extra row asked for only says whether there are more. -/
theorem list_eq (order : OrderBy idDesc) (log : List AuditRow) :
    list contains order filters log =
      { items := (auditRows contains order filters log).take filters.limit
        nextCursor := if filters.limit < (auditRows contains order filters log).length then
          ((auditRows contains order filters log).take filters.limit).getLast?.map (·.id.text)
          else none } := by
  simp only [list]
  rw [overfetch_take, overfetch_more]
  simp only [decide_eq_true_eq]

/-- There is no next cursor exactly on the last page. -/
theorem nextCursor_isNone {limit : Nat} (hlimit : 0 < limit) (rows : List AuditRow) :
    (if limit < rows.length then (rows.take limit).getLast?.map (·.id.text) else none).isNone =
      !decide (limit < rows.length) := by
  by_cases hmore : limit < rows.length
  · obtain ⟨last, hl⟩ := Walk.exists_last hlimit hmore
    rw [if_pos hmore, hl, decide_eq_true hmore]
    rfl
  · rw [if_neg hmore, decide_eq_false hmore]
    rfl

/-- A step of the reader is a step of the walk, and leaves the next request linked. -/
theorem step_toWalk (hlimit : 0 < filters.limit) {first : List AuditRow}
    (h : Walk.Inv idDesc (isListed contains filters) first s.toWalk) (hl : Linked s) (a : Act) :
    (step contains filters s a).toWalk =
      Walk.step (isListed contains filters) filters.limit s.toWalk a.toWalk ∧
    Linked (step contains filters s a) := by
  cases a with
  | create row =>
      rw [Act.toWalk, Walk.step_insert]
      show (if s.log.any (fun r => decide (r.id = row.id)) then s else _).toWalk =
          (if s.log.any (fun r => decide (r.id = row.id)) then s.toWalk else _) ∧
        Linked (if s.log.any (fun r => decide (r.id = row.id)) then s else _)
      split
      · exact ⟨rfl, hl⟩
      · exact ⟨rfl, hl⟩
  | fetch order =>
      rw [Act.toWalk, Walk.step_fetch]
      show (if s.done then s else _).toWalk = (if s.done then s.toWalk else _) ∧
        Linked (if s.done then s else _)
      cases hdone : s.done with
      | true => exact ⟨rfl, hl⟩
      | false =>
          simp only [Bool.false_eq_true, if_false]
          rw [list_eq, auditRows_eq order h.unique (fun r hr => (h.matching r hr).1) (hl hdone)]
          refine ⟨?_, ?_⟩
          · show Walk.State.mk _ _ _ = Walk.State.mk _ _ _
            rw [nextCursor_isNone hlimit]
            rfl
          · intro hgoing
            rw [nextCursor_isNone hlimit, Bool.not_eq_false', decide_eq_true_eq] at hgoing
            obtain ⟨last, hl⟩ := Walk.exists_last hlimit hgoing
            dsimp only
            rw [if_pos hgoing, List.getLast?_append, hl]
            rfl

end Steps

/-- What holds of the reader after any run. -/
structure Reading (contains : String → String → Bool) (filters : Filters) (first : List AuditRow)
    (s : State) : Prop where
  walk : Walk.Inv idDesc (isListed contains filters) first s.toWalk
  linked : Linked s

theorem Reading.step {contains : String → String → Bool} {filters : Filters}
    (hlimit : 0 < filters.limit) {first : List AuditRow} {s : State}
    (h : Reading contains filters first s) (a : Act) :
    Reading contains filters first (step contains filters s a) := by
  obtain ⟨hwalk, hlinked⟩ := step_toWalk hlimit h.walk h.linked a
  refine ⟨?_, hlinked⟩
  rw [hwalk]
  exact Walk.step_inv hlimit h.walk a.toWalk

theorem run_reading (contains : String → String → Bool) {filters : Filters}
    (hlimit : 0 < filters.limit) {log : List AuditRow} (hids : Rows.Unique (·.id) log)
    (acts : List Act) : Reading contains filters log (run (step contains filters) (start log) acts) := by
  apply run_invariant
  · intro s a hs
    exact hs.step hlimit a
  · exact ⟨Walk.inv_start hids, fun _ => rfl⟩

/-- The requests of a reader, one after the other, are those of the walk. -/
theorem fetches_toWalk {contains : String → String → Bool} {filters : Filters}
    (hlimit : 0 < filters.limit) {first : List AuditRow} (orders : List (OrderBy idDesc)) :
    ∀ {s : State}, Reading contains filters first s →
      (run (step contains filters) s (orders.map .fetch)).done =
        (run (Walk.step (isListed contains filters) filters.limit) s.toWalk
          (orders.map .fetch)).done := by
  induction orders with
  | nil => intro s _; rfl
  | cons order orders ih =>
      intro s hs
      obtain ⟨hwalk, _⟩ := step_toWalk hlimit hs.walk hs.linked (.fetch order)
      rw [List.map_cons, List.map_cons, run_cons, run_cons]
      rw [show Walk.Act.fetch order = (Act.fetch order).toWalk from rfl, ← hwalk]
      exact ih (hs.step hlimit (.fetch order))

/-- A reader who follows `nextCursor` while rows are written gets rows in strictly decreasing id,
each of them stored and matching; at the end every matching row there was at the first call is
among them; and as soon as nothing is written any more, the end comes. -/
theorem audit_walk_complete (contains : String → String → Bool) (filters : Filters)
    (hlimit : 0 < filters.limit) {log : List AuditRow} (hids : Rows.Unique (·.id) log)
    (acts : List Act) :
    let s := run (step contains filters) (start log) acts
    s.received.Pairwise (fun a b => b.id < a.id) ∧ s.received.Nodup ∧
    (∀ r ∈ s.received, r ∈ s.log ∧ isListed contains filters r = true) ∧
    (s.done = true → ∀ r ∈ log, isListed contains filters r = true → r ∈ s.received) ∧
    ∀ order : Nat → OrderBy idDesc, ∃ n,
      (run (step contains filters) s ((List.range n).map fun i => .fetch (order i))).done = true := by
  intro s
  have hs : Reading contains filters log s := run_reading contains hlimit hids acts
  refine ⟨hs.walk.ascending, ?_, hs.walk.matching, ?_, ?_⟩
  · exact hs.walk.ascending.imp fun {a b} hlt heq => absurd hlt (by rw [heq]; exact lt_irrefl _)
  · intro hdone r hr hlisted
    rcases hs.walk.covered r hr hlisted with hgot | ⟨hgoing, _⟩
    · exact hgot
    · rw [show s.toWalk.done = true from hdone] at hgoing
      cases hgoing
  · intro order
    refine ⟨(Walk.waiting idDesc (isListed contains filters) s.toWalk).length + 1, ?_⟩
    have hwalk := Walk.walk_ends (p := isListed contains filters) hlimit _ s.toWalk order
      (Nat.lt_succ_self _)
    have hsame := fetches_toWalk hlimit ((List.range
      ((Walk.waiting idDesc (isListed contains filters) s.toWalk).length + 1)).map order) hs
    rw [List.map_map, List.map_map] at hsame
    exact hsame.trans hwalk

def exampleRow (id : Uuid) : AuditRow :=
  { actorUserId := none, action := .strikeReset, targetType := .user, targetId := "u"
    metadata := .strikeReset 1, id, createdAt := 0 }

def firstId : Uuid := ⟨"00000000-0000-4000-8000-000000000001", by decide, by decide⟩
def secondId : Uuid := ⟨"00000000-0000-4000-8000-000000000002", by decide, by decide⟩
def thirdId : Uuid := ⟨"00000000-0000-4000-8000-000000000003", by decide, by decide⟩

/-- A row is written between the first two pages of a reader who asks for one row at a time. -/
def exampleReading : List Act :=
  [.fetch (.stable idDesc), .create (exampleRow secondId), .fetch (.stable idDesc),
    .fetch (.stable idDesc)]

theorem audit_walk_sample :
    let log := [exampleRow firstId, exampleRow thirdId]
    let listed := isListed (fun _ _ => false) { limit := 1 }
    let s := run (step (fun _ _ => false) { limit := 1 }) (start log) exampleReading
    (s.done = true ∧ s.received.map (·.id) = [thirdId, secondId, firstId]) ∧
    s.received.Pairwise (fun a b => b.id < a.id) ∧ s.received.Nodup ∧
    (∀ r ∈ s.received, r ∈ s.log ∧ listed r = true) ∧
    (s.done = true → ∀ r ∈ log, listed r = true → r ∈ s.received) ∧
    ∀ order : Nat → OrderBy idDesc, ∃ n, (run (step (fun _ _ => false) { limit := 1 }) s
      ((List.range n).map fun i => .fetch (order i))).done = true := by
  intro log listed s
  refine ⟨by decide, ?_⟩
  exact audit_walk_complete (fun _ _ => false) { limit := 1 } (by decide) (by decide) exampleReading

end Birgap.Moderation.AuditLog
