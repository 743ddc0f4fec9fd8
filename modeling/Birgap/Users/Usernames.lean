import Birgap.Users.Service
import Birgap.Lib.Run
import Mathlib.Logic.Function.Basic

/-!
# Usernames that differ only in case

The look-up of `updateProfile` is to ignore case, the unique index does not. Calls of any users
interleave between the two statements. Which names the look-up finds and which names are equal
up to case are two parameters: a name is looked up as a pattern.
-/
namespace Birgap.Users.Usernames

set_option autoImplicit false

open Birgap.Lib Birgap.Lib.Run Birgap.Moderation

/-- The users, and the calls that have passed their look-up. -/
structure State where
  db : Db
  calls : Nat → Option (Id × UpdateProfileDto)

inductive Act where
  | check (pid : Nat) (userId : Id) (dto : UpdateProfileDto)
  | write (pid : Nat)

section

variable (finds : String → String → Bool) (fold : String → String)

def step (s : State) : Act → State
  | .check pid userId dto =>
      match s.calls pid, updateProfileCheck finds userId dto s.db with
      | none, .ok () => { s with calls := Function.update s.calls pid (some (userId, dto)) }
      | _, _ => s
  | .write pid =>
      match s.calls pid with
      | some (userId, dto) =>
          { db := (updateProfileWrite userId dto s.db).2
            calls := Function.update s.calls pid none }
      | none => s

/-- No two users have names that are equal up to case. -/
def Distinct (db : Db) : Prop :=
  ∀ u ∈ db.users, ∀ v ∈ db.users, u.id ≠ v.id → ∀ a b, u.username = some a →
    v.username = some b → fold a ≠ fold b

/-- Another user has the name in some spelling. -/
def inUse (userId : Id) (name : String) (db : Db) : Bool :=
  db.users.any fun u => u.username.any (fold · == fold name) && u.id != userId

/-- No other user has the name in any spelling when an update stores it. -/
def StillFree (s : State) : Act → Prop
  | .check _ _ _ => True
  | .write pid => ∀ userId dto name, s.calls pid = some (userId, dto) →
      dto.username = some (some name) → (findUser userId s.db).isSome →
      usernameClash userId name s.db = false → inUse fold userId name s.db = false

def start (db : Db) : State := { db, calls := fun _ => none }

variable {finds fold}

theorem inUse_eq_true {userId : Id} {name : String} {db : Db} :
    inUse fold userId name db = true ↔
      ∃ u ∈ db.users, u.id ≠ userId ∧ ∃ n, u.username = some n ∧ fold n = fold name := by
  rw [inUse, List.any_eq_true]
  constructor
  · rintro ⟨u, hu, hc⟩
    obtain ⟨hn, hid⟩ := Bool.and_eq_true_iff.mp hc
    obtain ⟨n, hsome, hfold⟩ := (Option.any_eq_true _ _).mp hn
    exact ⟨u, hu, bne_iff_ne.mp hid, n, hsome, beq_iff_eq.mp hfold⟩
  · rintro ⟨u, hu, hid, n, hsome, hfold⟩
    refine ⟨u, hu, ?_⟩
    rw [hsome, Option.any_some, Bool.and_eq_true_iff]
    exact ⟨beq_iff_eq.mpr hfold, bne_iff_ne.mpr hid⟩

/-- What a write can do: nothing, or store the profile where the index allows it. -/
theorem updateProfileWrite_cases (userId : Id) (dto : UpdateProfileDto) (db : Db) :
    (updateProfileWrite userId dto db).2 = db ∧
      ((findUser userId db).isNone ∨
        ∃ name, dto.username = some (some name) ∧ usernameClash userId name db = true) ∨
    (updateProfileWrite userId dto db).2 = updateUser userId (setProfile dto) db ∧
      (findUser userId db).isSome ∧
        ∀ name, dto.username = some (some name) → usernameClash userId name db = false := by
  unfold updateProfileWrite
  cases hfind : findUser userId db with
  | none => exact Or.inl ⟨rfl, Or.inl rfl⟩
  | some user =>
      cases hclash : dto.username.join.any (usernameClash userId · db) with
      | true =>
          obtain ⟨name, hname, hc⟩ := (Option.any_eq_true _ _).mp hclash
          exact Or.inl ⟨rfl, Or.inr ⟨name, Option.join_eq_some_iff.mp hname, hc⟩⟩
      | false =>
          refine Or.inr ⟨rfl, rfl, ?_⟩
          intro name hname
          rw [hname] at hclash
          exact hclash

/-- A name that no other user has may be stored. -/
theorem distinct_updateUser {userId : Id} {dto : UpdateProfileDto} {db : Db}
    (h : Distinct fold db)
    (hfree : ∀ name, dto.username = some (some name) → inUse fold userId name db = false) :
    Distinct fold (updateUser userId (setProfile dto) db) := by
  -- the row written against a row of another user; both orders of the pair reduce to it
  have hnew : ∀ u ∈ db.users, u.id = userId → ∀ v ∈ db.users, v.id ≠ userId → ∀ a b,
      (setProfile dto u).username = some a → v.username = some b → fold a ≠ fold b := by
    intro u hu hid v hv hvid a b ha hb he
    have ha' : dto.username.getD u.username = some a := ha
    cases hname : dto.username with
    | none =>
        rw [hname] at ha'
        exact h u hu v hv (fun hc => hvid (hc.symm.trans hid)) a b ha' hb he
    | some name =>
        rw [hname, Option.getD_some] at ha'
        have htaken : inUse fold userId a db = true :=
          inUse_eq_true.mpr ⟨v, hv, hvid, b, hb, he.symm⟩
        rw [hfree a (hname.trans (congrArg some ha'))] at htaken
        cases htaken
  intro u hu v hv hne a b ha hb
  rcases mem_updateUser.mp hu with ⟨u₀, hu₀, hid, rfl⟩ | ⟨hu, hid⟩
  · rcases mem_updateUser.mp hv with ⟨v₀, hv₀, hid', rfl⟩ | ⟨hv, hid'⟩
    · exact absurd (hid.trans hid'.symm) hne
    · exact hnew u₀ hu₀ hid v hv hid' a b ha hb
  · rcases mem_updateUser.mp hv with ⟨v₀, hv₀, hid', rfl⟩ | ⟨hv, hid'⟩
    · intro he
      exact hnew v₀ hv₀ hid' u hu hid b a hb ha he.symm
    · exact h u hu v hv hne a b ha hb

/-- A stored name that another user has breaks the rule. -/
theorem inUse_of_distinct {userId : Id} {dto : UpdateProfileDto} {db : Db} {name : String}
    (hname : dto.username = some (some name)) (hfound : (findUser userId db).isSome)
    (h : Distinct fold (updateUser userId (setProfile dto) db)) :
    inUse fold userId name db = false := by
  cases htaken : inUse fold userId name db with
  | false => rfl
  | true =>
      obtain ⟨v, hv, hvid, n, hn, hfold⟩ := inUse_eq_true.mp htaken
      obtain ⟨u, hfind⟩ := Option.isSome_iff_exists.mp hfound
      obtain ⟨hu, huid⟩ := findUser_some hfind
      have hu' : setProfile dto u ∈ (updateUser userId (setProfile dto) db).users :=
        mem_updateUser.mpr (Or.inl ⟨u, hu, huid, rfl⟩)
      have hv' : v ∈ (updateUser userId (setProfile dto) db).users :=
        mem_updateUser.mpr (Or.inr ⟨hv, hvid⟩)
      have hstored : (setProfile dto u).username = some name := by
        show dto.username.getD u.username = some name
        rw [hname]
        rfl
      exact absurd hfold.symm (h _ hu' v hv' (fun hc => hvid (hc.symm.trans huid)) name n hstored hn)

/-- One step keeps the names distinct exactly when a name it stores is still free. -/
theorem step_distinct_iff (s : State) (a : Act) (h : Distinct fold s.db) :
    Distinct fold (step finds s a).db ↔ StillFree fold s a := by
  cases a with
  | check pid userId dto =>
      refine iff_of_true ?_ trivial
      simp only [step]
      split
      · exact h
      · exact h
  | write pid =>
      simp only [step]
      cases hcall : s.calls pid with
      | none =>
          refine iff_of_true h ?_
          intro userId dto name hc
          rw [hcall] at hc
          cases hc
      | some call =>
          obtain ⟨userId, dto⟩ := call
          show Distinct fold (updateProfileWrite userId dto s.db).2 ↔ _
          rcases updateProfileWrite_cases userId dto s.db with ⟨hdb, hrefused⟩ | ⟨hdb, hfound, hindex⟩
          · rw [hdb]
            refine iff_of_true h ?_
            intro userId' dto' name hc hname hfound hindex
            obtain ⟨rfl, rfl⟩ := Prod.mk.inj (Option.some.inj (hcall.symm.trans hc))
            rcases hrefused with hnone | ⟨name', hname', hclash⟩
            · rw [Option.isNone_iff_eq_none.mp hnone] at hfound
              cases hfound
            · obtain rfl := Option.some.inj (Option.some.inj (hname'.symm.trans hname))
              rw [hindex] at hclash
              cases hclash
          · rw [hdb]
            constructor
            · intro hd userId' dto' name hc hname _ _
              obtain ⟨rfl, rfl⟩ := Prod.mk.inj (Option.some.inj (hcall.symm.trans hc))
              exact inUse_of_distinct hname hfound hd
            · intro hfree
              exact distinct_updateUser h fun name hname =>
                hfree userId dto name hcall hname hfound (hindex name hname)

theorem updateProfileWrite_distinct {userId : Id} {dto : UpdateProfileDto} {db : Db}
    (h : Distinct fold db)
    (hfree : ∀ name, dto.username = some (some name) → inUse fold userId name db = false) :
    Distinct fold (updateProfileWrite userId dto db).2 := by
  rcases updateProfileWrite_cases userId dto db with ⟨hdb, _⟩ | ⟨hdb, _, _⟩
  · rw [hdb]
    exact h
  · rw [hdb]
    exact distinct_updateUser h hfree

/-- A call that looks up and stores with nothing in between keeps the names distinct where its
look-up finds every spelling of the name, unless that is the empty name, which is not looked
up. -/
theorem updateProfile_distinct {userId : Id} {dto : UpdateProfileDto} {db : Db}
    (h : Distinct fold db) (hne : dto.username ≠ some (some ""))
    (hfinds : ∀ name, dto.username = some (some name) →
      ∀ other, fold other = fold name → finds name other = true) :
    Distinct fold (updateProfile finds userId dto db).2 := by
  unfold updateProfile
  cases hcheck : updateProfileCheck finds userId dto db with
  | error e => exact h
  | ok _ =>
      refine updateProfileWrite_distinct h ?_
      intro name hname
      have hnonempty : name ≠ "" := fun he => hne (he ▸ hname)
      have htruthy : Common.truthy dto.username.join = some name := by
        rw [hname]
        exact Option.filter_eq_some_iff.mpr ⟨rfl, decide_eq_true hnonempty⟩
      simp only [updateProfileCheck, htruthy] at hcheck
      split at hcheck
      · cases hcheck
      · rename_i hfree
        apply Bool.eq_false_iff.mpr
        intro hused
        obtain ⟨u, hu, hid, n, hn, hfold⟩ := inUse_eq_true.mp hused
        refine hfree (List.any_eq_true.mpr ⟨u, hu, ?_⟩)
        rw [hn, Option.any_some, hfinds name hname n hfold, Bool.true_and]
        exact bne_iff_ne.mpr hid

variable (finds)

variable (fold)

/-- From a state without two such names, a run never reaches one exactly when every name is
still free at the update that stores it. -/
theorem usernames_distinct_iff (db : Db) (h : Distinct fold db) (ls : List Act) :
    Always (step finds) (fun s => Distinct fold s.db) (start db) ls ↔
      Along (step finds) (StillFree fold) (start db) ls :=
  always_iff_along (J := fun _ => True) (fun _ _ _ => trivial)
    (fun s a _ hs => step_distinct_iff s a hs) ls _ trivial h

end

/-- Folding of the ASCII letters. -/
def foldCase (s : String) : String := String.ofList (s.toList.map Char.toLower)

/-- LIKE: `%` stands for any text, `_` for any character, and a backslash takes the next one as
it is. -/
def like : List Char → List Char → Bool
  | [], text => text.isEmpty
  | '%' :: pattern, text => text.tails.any (like pattern)
  | '_' :: pattern, text => text.head?.isSome && like pattern text.tail
  | '\\' :: c :: pattern, text => text.head? == some c && like pattern text.tail
  | c :: pattern, text => text.head? == some c && like pattern text.tail

/-- The comparison with `mode: 'insensitive'` is ILIKE with the name for its pattern. -/
def ilike (name other : String) : Bool := like (foldCase name).toList (foldCase other).toList

/-- Two users without a name. -/
def twoUsers : Db :=
  { users := [{ id := "u1", phoneHash := "h1" }, { id := "u2", phoneHash := "h2" }] }

theorem twoUsers_distinct (fold : String → String) : Distinct fold twoUsers := by
  intro u hu v hv hne a b ha
  simp only [twoUsers, List.mem_cons, List.not_mem_nil, or_false] at hu
  rcases hu with rfl | rfl
  · cases ha
  · cases ha

/-- Both look up their spelling before either stores it. -/
def overlap : List Act :=
  [.check 1 "u1" { username := some (some "Alice") },
   .check 2 "u2" { username := some (some "alice") }, .write 1, .write 2]

theorem overlapping_names_collide :
    ¬ ∀ db : Db, Distinct foldCase db →
      ∀ ls : List Act, Always (step ilike) (fun s => Distinct foldCase s.db) (start db) ls := by
  intro h
  have hend := h twoUsers (twoUsers_distinct _) overlap overlap (List.prefix_refl _)
  have hsame := hend { id := "u1", phoneHash := "h1", username := some "Alice" } (by decide)
    { id := "u2", phoneHash := "h2", username := some "alice" } (by decide) (by decide)
    "Alice" "alice" rfl rfl
  exact hsame (by decide)

/-- One after the other, the second is refused. -/
theorem names_taken_in_turn :
    Always (step ilike) (fun s => Distinct foldCase s.db) (start twoUsers)
      [.check 1 "u1" { username := some (some "Alice") }, .write 1,
       .check 2 "u2" { username := some (some "alice") }, .write 2] := by
  refine (usernames_distinct_iff ilike foldCase twoUsers (twoUsers_distinct _) _).mpr ?_
  simp only [along_cons]
  refine ⟨trivial, ?_, trivial, ?_, along_nil _ _ _⟩
  · intro userId dto name hc hname _ _
    obtain ⟨rfl, rfl⟩ := Prod.mk.inj (Option.some.inj hc)
    obtain rfl := Option.some.inj (Option.some.inj hname)
    decide
  · intro userId dto name hc
    have hwaiting : Option.isSome _ = true := congrArg Option.isSome hc
    exact absurd hwaiting (by decide)

/-- A backslash hides a name from the look-up for it in another case. -/
example : ((run (step ilike) (start twoUsers)
    [.check 1 "u1" { username := some (some "A\\B") }, .write 1,
     .check 2 "u2" { username := some (some "a\\b") }, .write 2]).db.users.map (·.username)) =
      [some "A\\B", some "a\\b"] := by decide

end Birgap.Users.Usernames
