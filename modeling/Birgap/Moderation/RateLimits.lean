import Birgap.Lib.FixedWindow
import Birgap.Lib.Run
import Birgap.Moderation.Reports
import Mathlib.Data.Finset.Card

/-!
# Report rate limits under concurrency

`ReportsService.create` counts an ordinary user's reports in Redis, per UTC day and per IP
address and minute. A check is an INCR, an EXPIRE by the caller that saw 1, and the comparison;
other calls run in between, and a caller may die anywhere. The time to live outlasts the window
it was set in, so no count restarts while its window is open.
-/
namespace Birgap.Moderation.RateLimits

set_option autoImplicit false

open Birgap.Common Birgap.Lib Birgap.Lib.Run Birgap.Lib.FixedWindow
open Birgap.Moderation

/-- The two keys, with the number of the UTC day or minute that their text spells out. -/
inductive Key where
  | daily (userId : Id) (day : Nat)
  | ipMinute (ip : String) (minute : Nat)
  deriving DecidableEq

def dayMs : Nat := 24 * 60 * 60 * 1000

def minuteMs : Nat := 60 * 1000

def Key.opens : Key → Nat
  | .daily _ day => day * dayMs
  | .ipMinute _ minute => minute * minuteMs

/-- The argument of EXPIRE, in milliseconds. -/
def Key.ttl : Key → Nat
  | .daily _ _ => 36 * 60 * 60 * 1000
  | .ipMinute _ _ => 90 * 1000

/-- By how much the time to live is longer than the window. -/
def Key.margin : Key → Nat
  | .daily _ _ => 12 * 60 * 60 * 1000
  | .ipMinute _ _ => 30 * 1000

inductive Stage where
  | daily
  | ipMinute (ip : String)
  | counted (key : Key) (count : Nat)
  | ended (result : Except Err Unit)
  | dead

/-- A call of `create`, with the keys whose checks it has got past. -/
structure Call where
  userId : Id
  clientIp : Option String
  stage : Stage
  past : List Key := []

structure State where
  now : Nat
  counters : FixedWindow.Counters Key
  calls : Nat → Option Call

/-- The key of the check a call has come to, for the time its clock shows. -/
def Call.key (call : Call) (clock : Nat) : Option Key :=
  match call.stage with
  | .daily => some (.daily call.userId (clock / dayMs))
  | .ipMinute ip => some (.ipMinute ip (clock / minuteMs))
  | _ => none

/-- The comparison that ends a check. -/
def Call.compare (limits : ReportLimits) (key : Key) (count : Nat) (call : Call) : Call :=
  match key with
  | .daily _ _ =>
      if count ≤ limits.daily then
        { call with
          past := key :: call.past
          stage := match truthy call.clientIp with
            | some ip => .ipMinute ip
            | none => .ended (.ok ()) }
      else
        { call with stage := .ended (.error (.conflict
          ("Daily report limit of " ++ toString limits.daily ++ " reached"))) }
  | .ipMinute _ _ =>
      if count ≤ limits.perIpPerMinute then
        { call with past := key :: call.past, stage := .ended (.ok ()) }
      else
        { call with stage := .ended (.error (.conflict
          ("Report rate limit of " ++ toString limits.perIpPerMinute ++
            "/minute reached for this IP"))) }

/-- `create` begins with the reads of the database as it then is. The key of a check is made
when the clock shows `clock`, and its INCR runs now; it may take as long as the margin. -/
inductive Act where
  | tick (ms : Nat)
  | create (pid : Nat) (reporterUserId : Id) (dto : CreateReportDto) (clientIp : Option String)
      (db : Db)
  | incr (pid clock : Nat)
  | compare (pid : Nat)
  | die (pid : Nat)
  | drop (key : Key)

def State.put (s : State) (pid : Nat) (call : Call) : State :=
  { s with calls := Function.update s.calls pid (some call) }

def step (limits : ReportLimits) (s : State) : Act → State
  | .tick ms => { s with now := s.now + ms }
  | .create pid userId dto clientIp db =>
      match s.calls pid with
      | some _ => s
      | none =>
          match createChecks userId dto db with
          | .error e => s.put pid { userId, clientIp, stage := .ended (.error e) }
          | .ok reporter =>
              if reporter.role = .user then s.put pid { userId, clientIp, stage := .daily }
              else s.put pid { userId, clientIp, stage := .ended (.ok ()) }
  | .incr pid clock =>
      match s.calls pid with
      | none => s
      | some call =>
          match call.key clock with
          | none => s
          | some key =>
              if clock ≤ s.now ∧ s.now ≤ clock + key.margin then
                let counters := FixedWindow.incr key s.counters
                let call := { call with stage := .counted key (value counters key) }
                { s.put pid call with counters }
              else s
  | .compare pid =>
      match s.calls pid with
      | none => s
      | some call =>
          match call.stage with
          | .counted key count =>
              let counters :=
                if count = 1 then expire key (s.now + key.ttl) s.counters else s.counters
              { s.put pid (call.compare limits key count) with counters }
          | _ => s
  | .die pid =>
      match s.calls pid with
      | none => s
      | some call => s.put pid { call with stage := .dead }
  | .drop key => { s with counters := FixedWindow.drop s.now key s.counters }

def start (now : Nat) : State := { now, counters := fun _ => none, calls := fun _ => none }

/-- The call has got past the check on this key. -/
def State.Past (s : State) (pid : Nat) (key : Key) : Prop :=
  ∃ call, s.calls pid = some call ∧ key ∈ call.past

/-- The most calls that may get past a check on the key. -/
def Key.limit (limits : ReportLimits) : Key → Nat
  | .daily _ _ => limits.daily
  | .ipMinute _ _ => limits.perIpPerMinute

structure WithinLimits (limits : ReportLimits) (s : State) : Prop where
  daily : ∀ userId day, ∀ pids : Finset Nat, (∀ pid ∈ pids, s.Past pid (.daily userId day)) →
    pids.card ≤ limits.daily
  perIpPerMinute : ∀ ip minute, ∀ pids : Finset Nat,
    (∀ pid ∈ pids, s.Past pid (.ipMinute ip minute)) → pids.card ≤ limits.perIpPerMinute

/-! ## The windows -/

def windows : Windows Key where
  opens := Key.opens
  closes key := key.opens + key.ttl
  ttl := Key.ttl
  covers _ := le_rfl

/-- The INCR of a check comes while its key cannot have run out. -/
theorem key_open {call : Call} {clock now : Nat} {key : Key} (hkey : call.key clock = some key)
    (hle : clock ≤ now) (hmargin : now ≤ clock + key.margin) :
    windows.opens key ≤ now ∧ now < windows.closes key := by
  unfold Call.key at hkey
  cases hstage : call.stage <;> rw [hstage] at hkey <;> cases hkey
  all_goals
    simp only [windows, Key.opens, Key.ttl, Key.margin, dayMs, minuteMs] at hmargin ⊢
    omega

theorem compare_past {limits : ReportLimits} {key : Key} {count : Nat} {call : Call} {l : Key}
    (h : l ∈ (call.compare limits key count).past) :
    l ∈ call.past ∨ l = key ∧ count ≤ key.limit limits := by
  unfold Call.compare at h
  cases key <;> dsimp only at h <;> split at h
  all_goals
    first
      | exact .inl h
      | rcases List.mem_cons.mp h with rfl | hold
        · exact .inr ⟨rfl, by assumption⟩
        · exact .inl hold

theorem compare_stage {limits : ReportLimits} {key : Key} {count : Nat} {call : Call} {l : Key}
    {n : Nat} : (call.compare limits key count).stage ≠ .counted l n := by
  unfold Call.compare
  cases key <;> dsimp only <;> split <;> try split
  all_goals exact Stage.noConfusion

/-! ## Every run -/

/-- `granted` holds for each key the calls whose INCR returned a value within the limit. -/
structure Inv (limits : ReportLimits) (granted : Key → Finset Nat) (s : State) : Prop where
  kept : ∀ key, Kept windows (key.limit limits) s.now (granted key).card key s.counters
  counted : ∀ pid call key count, s.calls pid = some call → call.stage = .counted key count →
    windows.opens key ≤ s.now ∧ (count ≤ key.limit limits → pid ∈ granted key)
  past : ∀ pid call key, s.calls pid = some call → key ∈ call.past → pid ∈ granted key

variable {limits : ReportLimits} {granted : Key → Finset Nat} {s : State}

theorem put_calls {pid p : Nat} {new call : Call} (h : (s.put pid new).calls p = some call) :
    (p = pid ∧ call = new) ∨ s.calls p = some call := by
  by_cases hp : p = pid
  · subst hp
    exact .inl ⟨rfl, by simpa [State.put, eq_comm] using h⟩
  · exact .inr (by simpa [State.put, hp] using h)

/-- A call that is put back with nothing new to its name. -/
theorem Inv.put (h : Inv limits granted s) {pid : Nat} {new : Call}
    (hstage : ∀ key count, new.stage ≠ .counted key count)
    (hpast : ∀ key ∈ new.past, pid ∈ granted key) : Inv limits granted (s.put pid new) := by
  refine ⟨h.kept, ?_, ?_⟩
  · intro p call key count hcall hcounted
    rcases put_calls hcall with ⟨rfl, rfl⟩ | hold
    · exact absurd hcounted (hstage key count)
    · exact h.counted p call key count hold hcounted
  · intro p call key hcall hkey
    rcases put_calls hcall with ⟨rfl, rfl⟩ | hold
    · exact hpast key hkey
    · exact h.past p call key hold hkey

/-- Granted the count, or not: one more call for the key, at most. -/
theorem Inv.incr (h : Inv limits granted s) {pid clock : Nat} {call : Call} {key : Key}
    (hcall : s.calls pid = some call) (hkey : call.key clock = some key)
    (hle : clock ≤ s.now) (hmargin : s.now ≤ clock + key.margin) :
    ∃ granted, Inv limits granted (step limits s (.incr pid clock)) := by
  obtain ⟨hopened, hopen⟩ := key_open hkey hle hmargin
  have hincr := (h.kept key).incr hopen
  simp only [step, hcall, hkey, if_pos (And.intro hle hmargin)]
  generalize hn : value (FixedWindow.incr key s.counters) key = n at hincr ⊢
  by_cases hgrant : n ≤ key.limit limits
  · rw [if_pos hgrant] at hincr
    refine ⟨Function.update granted key (insert pid (granted key)), ?_, ?_, ?_⟩
    · intro l
      by_cases hl : l = key
      · subst hl
        rw [Function.update_self]
        exact hincr.anti (Finset.card_insert_le pid (granted l))
      · rw [Function.update_of_ne hl]
        exact (h.kept l).update_ne hl _
    · intro p c l count hc hcounted
      rcases put_calls hc with ⟨rfl, rfl⟩ | hold
      · cases hcounted
        exact ⟨hopened, fun _ => by simp⟩
      · obtain ⟨hle, hmem⟩ := h.counted p c l count hold hcounted
        refine ⟨hle, fun hcount => ?_⟩
        by_cases hl : l = key
        · subst hl
          simp [hmem hcount]
        · rw [Function.update_of_ne hl]
          exact hmem hcount
    · intro p c l hc hmem
      have hold : p ∈ granted l := by
        rcases put_calls hc with ⟨rfl, rfl⟩ | hold
        · exact h.past p call l hcall hmem
        · exact h.past p c l hold hmem
      by_cases hl : l = key
      · subst hl
        simp [hold]
      · rwa [Function.update_of_ne hl]
  · rw [if_neg hgrant] at hincr
    refine ⟨granted, ?_, ?_, ?_⟩
    · intro l
      by_cases hl : l = key
      · subst hl
        exact hincr
      · exact (h.kept l).update_ne hl _
    · intro p c l count hc hcounted
      rcases put_calls hc with ⟨rfl, rfl⟩ | hold
      · cases hcounted
        exact ⟨hopened, fun hcount => absurd hcount hgrant⟩
      · exact h.counted p c l count hold hcounted
    · intro p c l hc hmem
      rcases put_calls hc with ⟨rfl, rfl⟩ | hold
      · exact h.past p call l hcall hmem
      · exact h.past p c l hold hmem

theorem Inv.compare (h : Inv limits granted s) {pid : Nat} {call : Call} {key : Key} {count : Nat}
    (hcall : s.calls pid = some call) (hstage : call.stage = .counted key count) :
    Inv limits granted (step limits s (.compare pid)) := by
  obtain ⟨hopened, hgranted⟩ := h.counted pid call key count hcall hstage
  have hput : Inv limits granted (s.put pid (call.compare limits key count)) := by
    apply h.put
    · intro l n
      exact compare_stage
    · intro l hl
      rcases compare_past hl with hold | ⟨rfl, hcount⟩
      · exact h.past pid call l hcall hold
      · exact hgranted hcount
  simp only [step, hcall, hstage]
  refine ⟨?_, hput.counted, hput.past⟩
  intro l
  split
  · exact (h.kept l).expire hopened
  · exact h.kept l

theorem step_inv (h : Inv limits granted s) (a : Act) :
    ∃ granted, Inv limits granted (step limits s a) := by
  cases a with
  | tick ms =>
      have hle : s.now ≤ s.now + ms := Nat.le_add_right s.now ms
      refine ⟨granted, fun key => (h.kept key).later hle, ?_, h.past⟩
      intro pid call key count hcall hstage
      obtain ⟨hopened, hgranted⟩ := h.counted pid call key count hcall hstage
      exact ⟨hopened.trans hle, hgranted⟩
  | create pid userId dto clientIp db =>
      refine ⟨granted, ?_⟩
      simp only [step]
      split
      · exact h
      · split
        · exact h.put (fun _ _ => Stage.noConfusion) (fun _ hkey => by cases hkey)
        · split
          all_goals exact h.put (fun _ _ => Stage.noConfusion) (fun _ hkey => by cases hkey)
  | incr pid clock =>
      cases hcall : s.calls pid with
      | none => exact ⟨granted, by simpa [step, hcall] using h⟩
      | some call =>
          cases hkey : call.key clock with
          | none => exact ⟨granted, by simpa [step, hcall, hkey] using h⟩
          | some key =>
              by_cases hnow : clock ≤ s.now ∧ s.now ≤ clock + key.margin
              · exact h.incr hcall hkey hnow.1 hnow.2
              · exact ⟨granted, by simpa [step, hcall, hkey, hnow] using h⟩
  | compare pid =>
      refine ⟨granted, ?_⟩
      cases hcall : s.calls pid with
      | none => simpa [step, hcall] using h
      | some call =>
          cases hstage : call.stage with
          | counted key count => exact h.compare hcall hstage
          | _ => simpa [step, hcall, hstage] using h
  | die pid =>
      refine ⟨granted, ?_⟩
      cases hcall : s.calls pid with
      | none => simpa [step, hcall] using h
      | some call =>
          simp only [step, hcall]
          exact h.put (fun _ _ => Stage.noConfusion) (fun key hkey => h.past pid call key hcall hkey)
  | drop key => exact ⟨granted, fun l => (h.kept l).drop key, h.counted, h.past⟩

theorem start_inv (limits : ReportLimits) (now : Nat) :
    Inv limits (fun _ => ∅) (start now) := by
  refine ⟨fun key => ⟨Nat.zero_le _, fun _ => Nat.zero_le _, ?_⟩, ?_, ?_⟩
  · intro at_ hat
    cases hat
  · intro pid call key count hcall
    cases hcall
  · intro pid call key hcall
    cases hcall

theorem Inv.card_le (h : Inv limits granted s) (key : Key) {pids : Finset Nat}
    (hpast : ∀ pid ∈ pids, s.Past pid key) : pids.card ≤ key.limit limits := by
  have hsub : pids ⊆ granted key := by
    intro pid hpid
    obtain ⟨call, hcall, hkey⟩ := hpast pid hpid
    exact h.past pid call key hcall hkey
  exact (Finset.card_le_card hsub).trans (h.kept key).le

/-- Whatever the order of the steps, and whoever dies, no day and no minute lets more calls past
its check than its limit says. -/
theorem report_limits_hold (limits : ReportLimits) (now : Nat) (acts : List Act) :
    Always (step limits) (WithinLimits limits) (start now) acts := by
  intro pre _
  have hstep : ∀ s a, (∃ granted, Inv limits granted s) →
      ∃ granted, Inv limits granted (step limits s a) := fun s a ⟨_, h⟩ => step_inv h a
  obtain ⟨granted, h⟩ := run_invariant hstep pre (start now) ⟨_, start_inv limits now⟩
  constructor
  · intro userId day pids hpast
    exact h.card_le (.daily userId day) hpast
  · intro ip minute pids hpast
    exact h.card_le (.ipMinute ip minute) hpast

end Birgap.Moderation.RateLimits
