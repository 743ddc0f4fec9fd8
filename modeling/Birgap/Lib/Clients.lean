import Mathlib.Data.List.Basic

/-!
# Statements through two clients

An operation talks to a database through its base client, and inside a transaction also
through the transaction's client. A write through the base client is stored at once; a
write through the transaction's client is stored when the transaction commits and dropped
when it does not. A program is a tree of statements: what a statement returns decides the
next one. Every write carries a label, and a session remembers the writes it has stored.
-/
namespace Birgap.Lib.Clients

set_option autoImplicit false

inductive Client where
  | base
  | tx
  deriving DecidableEq

/-- A program over stores `σ`, errors `ε` and write labels `ℓ`. A statement continues with
what its client sees, a write after its effect; `guard` is the error the write throws. -/
inductive Prog (σ ε ℓ α : Type) where
  | done (a : α)
  | throw (e : ε)
  | read (c : Client) (next : σ → Prog σ ε ℓ α)
  | write (c : Client) (label : ℓ) (guard : σ → Except ε Unit) (effect : σ → σ)
      (next : σ → Prog σ ε ℓ α)

variable {σ ε ℓ α β : Type}

def Prog.bind : Prog σ ε ℓ α → (α → Prog σ ε ℓ β) → Prog σ ε ℓ β
  | .done a, f => f a
  | .throw e, _ => .throw e
  | .read c next, f => .read c fun s => (next s).bind f
  | .write c l guard effect next, f => .write c l guard effect fun s => (next s).bind f

instance : Monad (Prog σ ε ℓ) where
  pure := .done
  bind := .bind

/-- A check that needs no statement. -/
def ensure (c : Bool) (e : ε) : Prog σ ε ℓ Unit := if c then .done () else .throw e

/-- A read and the checks on what it returned. -/
def fetch (c : Client) (f : σ → Except ε α) : Prog σ ε ℓ α :=
  .read c fun s =>
    match f s with
    | .ok a => .done a
    | .error e => .throw e

/-- Write every label of a list, in order. -/
def writeAll (c : Client) (effect : ℓ → σ → σ) : List ℓ → Prog σ ε ℓ Unit
  | [] => .done ()
  | l :: ls => .write c l (fun _ => .ok ()) (effect l) fun _ => writeAll c effect ls

/-- What is stored, the writes that were stored, and the writes of an open transaction. -/
structure Session (σ ℓ : Type) where
  stored : σ
  kept : List (ℓ × (σ → σ)) := []
  own : List (ℓ × (σ → σ)) := []

def applyAll (ws : List (ℓ × (σ → σ))) (db : σ) : σ := ws.foldl (fun db w => w.2 db) db

namespace Session

def view (s : Session σ ℓ) : Client → σ
  | .base => s.stored
  | .tx => applyAll s.own s.stored

def put (s : Session σ ℓ) (l : ℓ) (effect : σ → σ) : Client → Session σ ℓ
  | .base => { s with stored := effect s.stored, kept := s.kept ++ [(l, effect)] }
  | .tx => { s with own := s.own ++ [(l, effect)] }

def commit (s : Session σ ℓ) : Session σ ℓ :=
  { stored := s.view .tx, kept := s.kept ++ s.own }

def rollback (s : Session σ ℓ) : Session σ ℓ := { s with own := [] }

/-- The labels of what is stored. -/
def labels (s : Session σ ℓ) : List ℓ := s.kept.map (·.1)

end Session

/-- Where an operation fails: nowhere, at its `n`-th statement, or when it commits. -/
inductive Fault where
  | never
  | statement (n : Nat)
  | commit
  deriving DecidableEq

/-- The statements still to come before the one that fails. -/
def Fault.fuse : Fault → Option Nat
  | .statement n => some n
  | _ => none

/-- Run a program until it returns, throws or reaches the statement that fails; `lost` is
what that statement throws. -/
def exec (lost : ε) : Prog σ ε ℓ α → Option Nat → Session σ ℓ →
    Except ε (α × Option Nat) × Session σ ℓ
  | .done a, fuse, s => (.ok (a, fuse), s)
  | .throw e, _, s => (.error e, s)
  | .read c next, fuse, s =>
      if fuse = some 0 then (.error lost, s)
      else exec lost (next (s.view c)) (fuse.map (· - 1)) s
  | .write c l guard effect next, fuse, s =>
      if fuse = some 0 then (.error lost, s)
      else
        match guard (s.view c) with
        | .error e => (.error e, s)
        | .ok () => exec lost (next ((s.put l effect c).view c)) (fuse.map (· - 1)) (s.put l effect c)

/-- An operation outside its transaction ends with a result, or opens the transaction. -/
inductive Ending (σ ε ℓ α : Type) where
  | result (a : α)
  | transaction (body : Prog σ ε ℓ α)

abbrev Op (σ ε ℓ α : Type) := Prog σ ε ℓ (Ending σ ε ℓ α)

/-- How a transaction ends once its statements have run. -/
def settle (lost : ε) (fault : Fault) :
    Except ε (α × Option Nat) × Session σ ℓ → Except ε α × Session σ ℓ
  | (.error e, s) => (.error e, s.rollback)
  | (.ok (a, _), s) => if fault = .commit then (.error lost, s.rollback) else (.ok a, s.commit)

/-- A whole operation, from a stored state. -/
def perform (lost : ε) (fault : Fault) (op : Op σ ε ℓ α) (db : σ) : Except ε α × Session σ ℓ :=
  match exec lost op fault.fuse { stored := db } with
  | (.error e, s) => (.error e, s)
  | (.ok (.result a, _), s) => (.ok a, s)
  | (.ok (.transaction body, fuse), s) => settle lost fault (exec lost body fuse s)

/-! ## Programs all of whose writes have a property -/

/-- Every write of the program satisfies `Q`. -/
def Prog.All (Q : Client → ℓ → (σ → σ) → Prop) : Prog σ ε ℓ α → Prop
  | .done _ => True
  | .throw _ => True
  | .read _ next => ∀ s, (next s).All Q
  | .write c l _ effect next => Q c l effect ∧ ∀ s, (next s).All Q

/-- The labels written by the time the program returns, after those in `ls`, satisfy `P`. -/
def Prog.Returns (P : List ℓ → Prop) : List ℓ → Prog σ ε ℓ α → Prop
  | ls, .done _ => P ls
  | _, .throw _ => True
  | ls, .read _ next => ∀ s, (next s).Returns P ls
  | ls, .write _ l _ _ next => ∀ s, (next s).Returns P (ls ++ [l])

theorem all_bind {Q : Client → ℓ → (σ → σ) → Prop} {p : Prog σ ε ℓ α} {f : α → Prog σ ε ℓ β}
    (hp : p.All Q) (hf : ∀ a, (f a).All Q) : (p >>= f).All Q := by
  induction p with
  | done a => exact hf a
  | throw e => trivial
  | read c next ih => exact fun s => ih s (hp s)
  | write c l guard effect next ih => exact ⟨hp.1, fun s => ih s (hp.2 s)⟩

theorem all_fetch (Q : Client → ℓ → (σ → σ) → Prop) (c : Client) (f : σ → Except ε α) :
    (fetch c f : Prog σ ε ℓ α).All Q := by
  intro s
  dsimp only
  split <;> trivial

theorem all_writeAll {Q : Client → ℓ → (σ → σ) → Prop} {c : Client} {effect : ℓ → σ → σ}
    (ls : List ℓ) (h : ∀ l ∈ ls, Q c l (effect l)) :
    (writeAll c effect ls : Prog σ ε ℓ Unit).All Q := by
  induction ls with
  | nil => trivial
  | cons l ls ih =>
      exact ⟨h l List.mem_cons_self, fun _ => ih fun k hk => h k (List.mem_cons_of_mem _ hk)⟩

theorem returns_bind {P P' : List ℓ → Prop} {p : Prog σ ε ℓ α} {f : α → Prog σ ε ℓ β}
    (hf : ∀ a ls, P ls → (f a).Returns P' ls) : ∀ {ls}, p.Returns P ls → (p >>= f).Returns P' ls := by
  induction p with
  | done a => exact fun hp => hf a _ hp
  | throw e => exact fun _ => trivial
  | read c next ih => exact fun hp s => ih s (hp s)
  | write c l guard effect next ih => exact fun hp s => ih s (hp s)

/-- A property of lists that survives appending holds at the end if it holds before. -/
theorem returns_of_append {P : List ℓ → Prop} (hP : ∀ ls l, P ls → P (ls ++ [l]))
    (p : Prog σ ε ℓ α) : ∀ {ls}, P ls → p.Returns P ls := by
  induction p with
  | done a => exact fun h => h
  | throw e => exact fun _ => trivial
  | read c next ih => exact fun h s => ih s h
  | write c l guard effect next ih => exact fun h s => ih s (hP _ l h)

/-- With every read answered from `db` the program issues no write, and what it returns
satisfies `E`. -/
def Prog.ReadsTo (E : α → Prop) (db : σ) : Prog σ ε ℓ α → Prop
  | .done a => E a
  | .throw _ => True
  | .read _ next => (next db).ReadsTo E db
  | .write _ _ _ _ _ => False

theorem all_mono {Q Q' : Client → ℓ → (σ → σ) → Prop} (h : ∀ c l f, Q c l f → Q' c l f)
    {p : Prog σ ε ℓ α} (hp : p.All Q) : p.All Q' := by
  induction p with
  | done a => trivial
  | throw e => trivial
  | read c next ih => exact fun s => ih s (hp s)
  | write c l guard effect next ih => exact ⟨h _ _ _ hp.1, fun s => ih s (hp.2 s)⟩

theorem all_of_forall {Q : Client → ℓ → (σ → σ) → Prop} (h : ∀ c l f, Q c l f)
    (p : Prog σ ε ℓ α) : p.All Q := by
  induction p with
  | done a => trivial
  | throw e => trivial
  | read c next ih => exact ih
  | write c l guard effect next ih => exact ⟨h _ _ _, ih⟩

theorem readsTo_bind {E : α → Prop} {E' : β → Prop} {db : σ} {p : Prog σ ε ℓ α}
    {f : α → Prog σ ε ℓ β} (hp : p.ReadsTo E db) (hf : ∀ a, E a → (f a).ReadsTo E' db) :
    (p >>= f).ReadsTo E' db := by
  induction p with
  | done a => exact hf a hp
  | throw e => trivial
  | read c next ih => exact ih db hp
  | write c l guard effect next ih => exact hp.elim

theorem readsTo_ensure {E : Unit → Prop} {db : σ} {c : Bool} {e : ε} (h : c = true → E ()) :
    (ensure c e : Prog σ ε ℓ Unit).ReadsTo E db := by
  unfold ensure
  split
  · rename_i hc
    exact h hc
  · trivial

theorem readsTo_fetch {E : α → Prop} {db : σ} {c : Client} {f : σ → Except ε α}
    (h : ∀ a, f db = .ok a → E a) : (fetch c f : Prog σ ε ℓ α).ReadsTo E db := by
  simp only [fetch, Prog.ReadsTo]
  split
  · rename_i a ha
    exact h a ha
  · trivial

/-! ## Running a program -/

section Exec

variable (lost : ε)

/-- What every write of the program keeps, the program keeps. -/
theorem exec_invariant {I : Session σ ℓ → Prop} {p : Prog σ ε ℓ α}
    (hp : p.All fun c l effect => ∀ s, I s → I (s.put l effect c)) :
    ∀ {fuse : Option Nat} {s : Session σ ℓ}, I s → I (exec lost p fuse s).2 := by
  induction p with
  | done a => exact fun h => h
  | throw e => exact fun h => h
  | read c next ih =>
      intro fuse s h
      simp only [exec]
      split
      · exact h
      · exact ih _ (hp _) h
  | write c l guard effect next ih =>
      intro fuse s h
      simp only [exec]
      split
      · exact h
      · split
        · exact h
        · exact ih _ (hp.2 _) (hp.1 s h)

/-- A program runs up to where it returns, and what follows runs from there. -/
theorem exec_bind {p : Prog σ ε ℓ α} {f : α → Prog σ ε ℓ β} : ∀ {fuse : Option Nat}
    {s : Session σ ℓ}, exec lost (p >>= f) fuse s =
      match exec lost p fuse s with
      | (.error e, s') => (.error e, s')
      | (.ok (a, fuse'), s') => exec lost (f a) fuse' s' := by
  induction p with
  | done a => intro fuse s; rfl
  | throw e => intro fuse s; rfl
  | read c next ih =>
      intro fuse s
      change exec lost (.read c fun s => next s >>= f) fuse s = _
      simp only [exec]
      split
      · rfl
      · exact ih _
  | write c l guard effect next ih =>
      intro fuse s
      change exec lost (.write c l guard effect fun s => next s >>= f) fuse s = _
      simp only [exec]
      split
      · rfl
      · cases guard (s.view c) with
        | error e => rfl
        | ok u => exact ih _

/-- What is stored is what the stored writes make of the state at the start. -/
theorem exec_effects (db : σ) (p : Prog σ ε ℓ α) (fuse : Option Nat) {s : Session σ ℓ}
    (h : s.stored = applyAll s.kept db) :
    (exec lost p fuse s).2.stored = applyAll (exec lost p fuse s).2.kept db := by
  refine exec_invariant lost (I := fun s => s.stored = applyAll s.kept db)
    (all_of_forall (fun c l effect s hs => ?_) p) h
  cases c with
  | base => simp only [Session.put, applyAll, List.foldl_append, List.foldl_cons, List.foldl_nil, hs]
  | tx => exact hs

/-- A program that only reads leaves the session alone. -/
theorem exec_readsTo {E : α → Prop} {db : σ} {p : Prog σ ε ℓ α} (hp : p.ReadsTo E db) :
    ∀ fuse : Option Nat, (exec lost p fuse { stored := db }).2 = { stored := db } ∧
      ∀ r, (exec lost p fuse { stored := db }).1 = .ok r → E r.1 := by
  induction p with
  | done a =>
      intro fuse
      refine ⟨rfl, ?_⟩
      intro r hr
      obtain rfl := Except.ok.inj hr
      exact hp
  | throw e =>
      intro fuse
      refine ⟨rfl, ?_⟩
      intro r hr
      cases hr
  | read c next ih =>
      intro fuse
      simp only [exec]
      split
      · refine ⟨rfl, ?_⟩
        intro r hr
        cases hr
      · have hview : ({ stored := db } : Session σ ℓ).view c = db := by cases c <;> rfl
        rw [hview]
        exact ih db hp _
  | write c l guard effect next ih => exact hp.elim

/-- Without a write through the base client nothing is stored before the commit. -/
theorem exec_stored {p : Prog σ ε ℓ α} (hp : p.All fun c _ _ => c = .tx) (fuse : Option Nat)
    (s : Session σ ℓ) :
    (exec lost p fuse s).2.stored = s.stored ∧ (exec lost p fuse s).2.kept = s.kept := by
  refine exec_invariant lost (I := fun s' => s'.stored = s.stored ∧ s'.kept = s.kept)
    (all_mono ?_ hp) ⟨rfl, rfl⟩
  intro c l effect hc s' hs'
  subst hc
  exact hs'

theorem exec_returns {P : List ℓ → Prop} {p : Prog σ ε ℓ α} (hp : p.All fun c _ _ => c = .tx) :
    ∀ {fuse : Option Nat} {s s' : Session σ ℓ} {r : α × Option Nat},
      p.Returns P (s.own.map (·.1)) → exec lost p fuse s = (.ok r, s') → P (s'.own.map (·.1)) := by
  induction p with
  | done a =>
      intro fuse s s' r hr h
      obtain ⟨_, rfl⟩ := Prod.mk.inj h
      exact hr
  | throw e =>
      intro fuse s s' r _ h
      cases (Prod.mk.inj h).1
  | read c next ih =>
      intro fuse s s' r hr h
      simp only [exec] at h
      split at h
      · cases (Prod.mk.inj h).1
      · exact ih _ (hp _) (hr _) h
  | write c l guard effect next ih =>
      intro fuse s s' r hr h
      simp only [exec] at h
      split at h
      · cases (Prod.mk.inj h).1
      · split at h
        · cases (Prod.mk.inj h).1
        · obtain ⟨rfl, hnext⟩ := hp
          refine ih _ (hnext _) ?_ h
          have hown : (s.put l effect .tx).own.map (·.1) = s.own.map (·.1) ++ [l] := by
            simp [Session.put]
          rw [hown]
          exact hr _

/-- An operation that only reads outside its transaction stores nothing, or what its
transaction stores. -/
theorem perform_readsTo {E : Ending σ ε ℓ α → Prop} {op : Op σ ε ℓ α} {db : σ}
    (hop : op.ReadsTo E db) (fault : Fault) :
    (perform lost fault op db).2 = { stored := db } ∨
      ∃ body fuse, E (.transaction body) ∧
        perform lost fault op db = settle lost fault (exec lost body fuse { stored := db }) := by
  obtain ⟨hstart, hend⟩ := exec_readsTo lost hop fault.fuse
  unfold perform
  cases hpre : exec lost op fault.fuse { stored := db } with
  | mk outcome s =>
      rw [hpre] at hstart hend
      simp only at hstart
      subst hstart
      cases outcome with
      | error e => exact Or.inl rfl
      | ok r =>
          obtain ⟨ending, fuse⟩ := r
          cases ending with
          | result a => exact Or.inl rfl
          | transaction body => exact Or.inr ⟨body, fuse, hend _ rfl, rfl⟩

/-- An operation that only reads before its transaction, and writes only through the
transaction's client in it, stores all of its writes or none. -/
theorem perform_atomic {P : List ℓ → Prop} {op : Op σ ε ℓ α} {db : σ}
    (hop : op.ReadsTo (fun e => ∀ body, e = .transaction body →
      (body.All fun c _ _ => c = .tx) ∧ body.Returns P []) db) (fault : Fault) :
    (perform lost fault op db).2.labels = [] ∨ P (perform lost fault op db).2.labels := by
  rcases perform_readsTo lost hop fault with hnone | ⟨body, fuse, hbody, hperform⟩
  · rw [hnone]
    exact Or.inl rfl
  · obtain ⟨htx, hreturns⟩ := hbody body rfl
    have hstored := exec_stored lost htx fuse { stored := db }
    rw [hperform]
    cases hrun : exec lost body fuse { stored := db } with
    | mk outcome s =>
        rw [hrun] at hstored
        cases outcome with
        | error e => exact Or.inl (congrArg (List.map _) hstored.2)
        | ok r =>
            simp only [settle]
            split
            · exact Or.inl (congrArg (List.map _) hstored.2)
            · right
              have hp := exec_returns lost htx (s := { stored := db }) hreturns hrun
              have hkept : s.kept = [] := hstored.2
              simpa only [Session.labels, Session.commit, hkept, List.nil_append] using hp

/-- An operation whose transaction ends with a write through the base client stores nothing
or everything as long as its commit does not fail. -/
theorem perform_base_last {P : List ℓ → Prop} {L : ℓ → Prop} {op : Op σ ε ℓ α} {db : σ}
    (hop : op.ReadsTo (fun e => ∀ body, e = .transaction body →
      ∃ (γ : Type) (p : Prog σ ε ℓ γ) (l : ℓ) (effect : σ → σ) (g : γ → α), L l ∧
        (p.All fun c _ _ => c = .tx) ∧ p.Returns P [] ∧
        body = p >>= fun a => .write .base l (fun _ => .ok ()) effect fun _ => .done (g a)) db)
    {fault : Fault} (hfault : fault ≠ .commit) :
    (perform lost fault op db).2.labels = [] ∨
      ∃ l ls, L l ∧ P ls ∧ (perform lost fault op db).2.labels = l :: ls := by
  rcases perform_readsTo lost hop fault with hnone | ⟨body, fuse, hbody, hperform⟩
  · rw [hnone]
    exact Or.inl rfl
  · obtain ⟨γ, p, l, effect, g, hl, htx, hreturns, rfl⟩ := hbody body rfl
    have hstored := exec_stored lost htx fuse { stored := db }
    rw [hperform, exec_bind]
    cases hrun : exec lost p fuse { stored := db } with
    | mk outcome s =>
        rw [hrun] at hstored
        cases outcome with
        | error e => exact Or.inl (congrArg (List.map _) hstored.2)
        | ok r =>
            simp only [exec]
            split
            · exact Or.inl (congrArg (List.map _) hstored.2)
            · right
              have hp := exec_returns lost htx (s := { stored := db }) hreturns hrun
              refine ⟨l, s.own.map (·.1), hl, hp, ?_⟩
              simp only [settle, if_neg hfault, Session.labels, Session.commit, Session.put]
              rw [hstored.2]
              rfl

/-- The store an operation leaves is what the writes it stored make of the one it found. -/
theorem perform_stored (fault : Fault) (op : Op σ ε ℓ α) (db : σ) :
    (perform lost fault op db).2.stored = applyAll (perform lost fault op db).2.kept db := by
  have hpre := exec_effects lost db op fault.fuse (s := { stored := db }) rfl
  unfold perform
  split
  · rename_i hrun
    rw [hrun] at hpre
    exact hpre
  · rename_i hrun
    rw [hrun] at hpre
    exact hpre
  · rename_i body fuse s hrun
    rw [hrun] at hpre
    have hbody := exec_effects lost db body fuse hpre
    cases hend : exec lost body fuse s with
    | mk outcome s' =>
        rw [hend] at hbody
        cases outcome with
        | error e => exact hbody
        | ok r =>
            simp only [settle]
            split
            · exact hbody
            · simp only at hbody
              simp only [Session.commit, Session.view, hbody, applyAll, List.foldl_append]

/-! ## What a transaction computes -/

/-- The program on a store that only it reads and writes. -/
def Prog.eval : Prog σ ε ℓ α → σ → Except ε (α × σ)
  | .done a, db => .ok (a, db)
  | .throw e, _ => .error e
  | .read _ next, db => (next db).eval db
  | .write _ _ guard effect next, db =>
      match guard db with
      | .error e => .error e
      | .ok () => (next (effect db)).eval (effect db)

/-- Every statement of the program goes through the client. -/
def Prog.Via (c : Client) : Prog σ ε ℓ α → Prop
  | .done _ => True
  | .throw _ => True
  | .read c' next => c' = c ∧ ∀ s, (next s).Via c
  | .write c' _ _ _ next => c' = c ∧ ∀ s, (next s).Via c

theorem eval_bind {p : Prog σ ε ℓ α} {f : α → Prog σ ε ℓ β} : ∀ db,
    (p >>= f).eval db =
      match p.eval db with
      | .error e => .error e
      | .ok (a, db') => (f a).eval db' := by
  induction p with
  | done a => exact fun _ => rfl
  | throw e => exact fun _ => rfl
  | read c next ih => exact fun db => ih db db
  | write c l guard effect next ih =>
      intro db
      change (Prog.write c l guard effect fun s => next s >>= f).eval db = _
      simp only [Prog.eval]
      cases guard db with
      | error e => rfl
      | ok u => exact ih _ _

theorem via_bind {c : Client} {p : Prog σ ε ℓ α} {f : α → Prog σ ε ℓ β} (hp : p.Via c)
    (hf : ∀ a, (f a).Via c) : (p >>= f).Via c := by
  induction p with
  | done a => exact hf a
  | throw e => trivial
  | read c next ih => exact ⟨hp.1, fun s => ih s (hp.2 s)⟩
  | write c l guard effect next ih => exact ⟨hp.1, fun s => ih s (hp.2 s)⟩

theorem via_fetch (c : Client) (f : σ → Except ε α) : (fetch c f : Prog σ ε ℓ α).Via c := by
  refine ⟨rfl, fun s => ?_⟩
  dsimp only
  split <;> trivial

theorem via_writeAll (c : Client) (effect : ℓ → σ → σ) (ls : List ℓ) :
    (writeAll c effect ls : Prog σ ε ℓ Unit).Via c := by
  induction ls with
  | nil => trivial
  | cons l ls ih => exact ⟨rfl, fun _ => ih⟩

theorem eval_writeAll (c : Client) (effect : ℓ → σ → σ) (ls : List ℓ) : ∀ db,
    (writeAll c effect ls : Prog σ ε ℓ Unit).eval db = .ok ((), ls.foldl (fun db l => effect l db) db) := by
  induction ls with
  | nil => exact fun _ => rfl
  | cons l ls ih => exact fun db => ih (effect l db)

theorem view_put_tx (s : Session σ ℓ) (l : ℓ) (effect : σ → σ) :
    (s.put l effect .tx).view .tx = effect (s.view .tx) := by
  simp [Session.put, Session.view, applyAll]

/-- A transaction whose statements all succeed computes on what it sees. -/
theorem exec_eval {p : Prog σ ε ℓ α} (hp : p.Via .tx) :
    ∀ {fuse : Option Nat} {s s' : Session σ ℓ} {a : α} {fuse' : Option Nat},
      exec lost p fuse s = (.ok (a, fuse'), s') → p.eval (s.view .tx) = .ok (a, s'.view .tx) := by
  induction p with
  | done a =>
      intro fuse s s' b fuse' h
      obtain ⟨hr, rfl⟩ := Prod.mk.inj h
      obtain ⟨rfl, _⟩ := Prod.mk.inj (Except.ok.inj hr)
      rfl
  | throw e =>
      intro fuse s s' b fuse' h
      cases (Prod.mk.inj h).1
  | read c next ih =>
      intro fuse s s' b fuse' h
      obtain ⟨rfl, hnext⟩ := hp
      simp only [exec] at h
      split at h
      · cases (Prod.mk.inj h).1
      · exact ih _ (hnext _) h
  | write c l guard effect next ih =>
      intro fuse s s' b fuse' h
      obtain ⟨rfl, hnext⟩ := hp
      simp only [exec] at h
      split at h
      · cases (Prod.mk.inj h).1
      · simp only [Prog.eval]
        cases hguard : guard (s.view .tx) with
        | error e =>
            rw [hguard] at h
            cases (Prod.mk.inj h).1
        | ok u =>
            rw [hguard] at h
            have hrest := ih _ (hnext _) h
            rwa [view_put_tx] at hrest

/-- A transaction none of whose statements is lost ends as it computes. -/
theorem exec_never {p : Prog σ ε ℓ α} (hp : p.Via .tx) : ∀ s : Session σ ℓ,
    match p.eval (s.view .tx) with
    | .ok (a, db') => ∃ s', exec lost p none s = (.ok (a, none), s') ∧ s'.view .tx = db'
    | .error e => ∃ s', exec lost p none s = (.error e, s') := by
  induction p with
  | done a => exact fun s => ⟨s, rfl, rfl⟩
  | throw e => exact fun s => ⟨s, rfl⟩
  | read c next ih =>
      intro s
      obtain ⟨rfl, hnext⟩ := hp
      exact ih _ (hnext _) s
  | write c l guard effect next ih =>
      intro s
      obtain ⟨rfl, hnext⟩ := hp
      simp only [Prog.eval, exec]
      cases hguard : guard (s.view .tx) with
      | error e => exact ⟨s, rfl⟩
      | ok u =>
          have hrest := ih _ (hnext (effect (s.view .tx))) (s.put l effect .tx)
          rw [view_put_tx] at hrest
          simpa [view_put_tx] using hrest

theorem via_all {p : Prog σ ε ℓ α} (hp : p.Via .tx) : p.All fun c _ _ => c = .tx := by
  induction p with
  | done a => trivial
  | throw e => trivial
  | read c next ih => exact fun s => ih s (hp.2 s)
  | write c l guard effect next ih => exact ⟨hp.1, fun s => ih s (hp.2 s)⟩

/-- An operation that only reads before its transaction: an error leaves the store as it was,
a result comes with the store that the transaction computes. -/
theorem perform_body {op : Op σ ε ℓ α} {body : Prog σ ε ℓ α} {db : σ}
    (hop : op.ReadsTo (fun e => e = .transaction body) db) (hbody : body.Via .tx) (fault : Fault) :
    match perform lost fault op db with
    | (.ok a, s) => body.eval db = .ok (a, s.stored)
    | (.error _, s) => s.stored = db := by
  obtain ⟨hstart, hend⟩ := exec_readsTo lost hop fault.fuse
  unfold perform
  cases hpre : exec lost op fault.fuse { stored := db } with
  | mk outcome s =>
      rw [hpre] at hstart hend
      simp only at hstart
      subst hstart
      cases outcome with
      | error e => rfl
      | ok r =>
          obtain ⟨ending, fuse⟩ := r
          obtain rfl : ending = .transaction body := hend _ rfl
          have hstored := exec_stored lost (via_all hbody) fuse { stored := db }
          dsimp only
          cases hrun : exec lost body fuse { stored := db } with
          | mk outcome s =>
              rw [hrun] at hstored
              cases outcome with
              | error e => exact hstored.1
              | ok r =>
                  simp only [settle]
                  split
                  · rename_i heq
                    split at heq
                    · cases (Prod.mk.inj heq).1
                    · obtain ⟨ha, rfl⟩ := Prod.mk.inj heq
                      obtain rfl := Except.ok.inj ha
                      exact exec_eval lost hbody hrun
                  · rename_i heq
                    split at heq
                    · obtain ⟨_, rfl⟩ := Prod.mk.inj heq
                      exact hstored.1
                    · cases (Prod.mk.inj heq).1

/-- Without a fault, an operation that reaches its transaction ends as the transaction
computes. -/
theorem perform_never {op : Op σ ε ℓ α} {body : Prog σ ε ℓ α} {db : σ}
    (hop : exec lost op none { stored := db } = (.ok (.transaction body, none), { stored := db }))
    (hbody : body.Via .tx) :
    (perform lost .never op db).2.stored =
      match body.eval db with
      | .ok (_, db') => db'
      | .error _ => db := by
  have hrun := exec_never lost hbody { stored := db }
  have hstored := exec_stored lost (via_all hbody) none { stored := db }
  simp only [perform, Fault.fuse, hop]
  change match body.eval db with
    | .ok (a, db') => ∃ s', _ ∧ _
    | .error e => _ at hrun
  cases heval : body.eval db with
  | error e =>
      rw [heval] at hrun
      obtain ⟨s', hs'⟩ := hrun
      rw [hs'] at hstored ⊢
      exact hstored.1
  | ok r =>
      rw [heval] at hrun
      obtain ⟨s', hs', hview⟩ := hrun
      rw [hs']
      exact hview

end Exec

end Birgap.Lib.Clients
