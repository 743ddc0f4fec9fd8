import Birgap.Auth.Lockout
import Birgap.Users.Service

/-!
# Contact matches

`syncContacts` remembers for each hash the phone that led to it, and answers a match with that
phone, for the client to find the contact by. What is remembered is the normalised phone, so
the client gets its own text back only where it sent that one.
-/
namespace Birgap.Users.Contacts

set_option autoImplicit false

open Birgap.Auth Birgap.Common Birgap.Lib

/-- The text has a phone number, and this is its hash. -/
def HashesTo (env : AuthEnv) (phone hash : String) : Prop :=
  normalizePhone phone ≠ "" ∧ phoneHashOf env phone = hash

instance (env : AuthEnv) (phone hash : String) : Decidable (HashesTo env phone hash) := by
  unfold HashesTo
  infer_instance

/-- The submitted phones with a hash. -/
def phonesOf (env : AuthEnv) (phones : List String) (hash : String) : List String :=
  phones.filter fun phone => decide (HashesTo env phone hash)

def Submitted (env : AuthEnv) (phoneHashes phones : List String) (hash : String) : Prop :=
  hash ∈ phoneHashes ∨ ∃ phone ∈ phones, HashesTo env phone hash

/-- The submitted users are matched once each, with a phone that was submitted for them. -/
structure LeadBack (env : AuthEnv) (phoneHashes phones : List String) (db : Db)
    (result : List ContactMatch) : Prop where
  once : (result.map (·.id)).Nodup
  found : ∀ u ∈ db.users, (∃ m ∈ result, m.toProfile = profileOf u) ↔
    u.status = .active ∧ Submitted env phoneHashes phones u.phoneHash
  known : ∀ m ∈ result, ∃ u ∈ db.users, m.toProfile = profileOf u
  echoed : ∀ m ∈ result, ∀ phone, m.matchedPhone = some phone → phone ∈ phones
  joined : ∀ m ∈ result, (∃ phone ∈ phones, HashesTo env phone m.phoneHash) →
    m.matchedPhone ≠ none

section Phones

variable (env : AuthEnv) (phones : List String)

theorem contactHashes_eq :
    contactHashes env phones = (phones.filter fun phone => normalizePhone phone ≠ "").map fun phone =>
      (phoneHashOf env phone, normalizePhone phone) := by
  induction phones with
  | nil => rfl
  | cons phone phones ih =>
      unfold contactHashes at ih ⊢
      by_cases hdigits : normalizePhone phone = ""
      · rw [List.filterMap_cons_none (by simp [hdigits]), List.filter_cons_of_neg (by simp [hdigits])]
        exact ih
      · rw [List.filterMap_cons_some (b := (phoneHashOf env phone, normalizePhone phone))
          (by simp [hdigits, phoneHashOf]), List.filter_cons_of_pos (by simp [hdigits]), List.map_cons, ih]

/-- The last phone with a hash is the one remembered for it. -/
theorem remembered_eq (hash : String) :
    ((contactHashes env phones).reverse.find? (·.1 == hash)).map (·.2) =
      (phonesOf env phones hash).getLast?.map normalizePhone := by
  have hlast : (contactHashes env phones).reverse.find? (·.1 == hash) =
      ((contactHashes env phones).filter (·.1 == hash)).getLast? := by
    rw [← List.head?_filter, List.filter_reverse, List.head?_reverse]
  have hphones : phonesOf env phones hash = ((phones.filter fun phone => normalizePhone phone ≠ "").filter
      fun phone => phoneHashOf env phone == hash) := by
    unfold phonesOf
    rw [List.filter_filter]
    apply List.filter_congr
    intro phone _
    rw [Bool.eq_iff_iff, decide_eq_true_iff, Bool.and_eq_true, beq_iff_eq, decide_eq_true_iff]
    exact and_comm
  rw [hlast, contactHashes_eq, List.filter_map, hphones, List.getLast?_map, Option.map_map]
  rfl

theorem mem_contactHashes (hash : String) :
    hash ∈ (contactHashes env phones).map (·.1) ↔ ∃ phone ∈ phones, HashesTo env phone hash := by
  rw [contactHashes_eq, List.map_map]
  unfold HashesTo
  simp [and_assoc]

end Phones

/-! ## The answer -/

/-- The last phone submitted for an active user is submitted in its normalised text as well. -/
def LastNormalized (env : AuthEnv) (phones : List String) (db : Db) : Prop :=
  ∀ u ∈ db.users, u.status = .active →
    ∀ phone, (phonesOf env phones u.phoneHash).getLast? = some phone → normalizePhone phone ∈ phones

section Answer

variable {env : AuthEnv} {phoneHashes phones : List String} {db : Db} {result : List ContactMatch}

theorem mem_result (h : syncContacts env phoneHashes phones db = .ok result) {m : ContactMatch} :
    m ∈ result ↔ ∃ u ∈ db.users, u.status = .active ∧
      Submitted env phoneHashes phones u.phoneHash ∧
      m = { profileOf u with
            matchedPhone := (phonesOf env phones u.phoneHash).getLast?.map normalizePhone } := by
  unfold syncContacts at h
  split at h
  · cases h
  · obtain rfl := Except.ok.inj h
    unfold Submitted
    simp only [remembered_eq]
    rw [List.mem_map]
    constructor
    · intro hm
      obtain ⟨u, hu, rfl⟩ := hm
      obtain ⟨hu, hsel⟩ := List.mem_filter.mp hu
      obtain ⟨hhash, hactive⟩ := Bool.and_eq_true_iff.mp hsel
      rw [List.contains_iff_mem, List.mem_append, mem_contactHashes] at hhash
      exact ⟨u, hu, beq_iff_eq.mp hactive, hhash, rfl⟩
    · intro hm
      obtain ⟨u, hu, hactive, hhash, rfl⟩ := hm
      refine ⟨u, List.mem_filter.mpr ⟨hu, ?_⟩, rfl⟩
      rw [Bool.and_eq_true, List.contains_iff_mem, List.mem_append, mem_contactHashes]
      exact ⟨hhash, beq_iff_eq.mpr hactive⟩

/-- The answer is led back exactly when every phone in it was submitted as it stands there. -/
theorem leadBack_iff_echoed (hk : Rows.Unique (·.id) db.users)
    (h : syncContacts env phoneHashes phones db = .ok result) :
    LeadBack env phoneHashes phones db result ↔
      ∀ m ∈ result, ∀ phone, m.matchedPhone = some phone → phone ∈ phones := by
  constructor
  · exact fun hlead => hlead.echoed
  · intro hechoed
    constructor
    · unfold syncContacts at h
      split at h
      · cases h
      · obtain rfl := Except.ok.inj h
        rw [List.map_map]
        exact hk.filter _
    · intro u hu
      constructor
      · intro hfound
        obtain ⟨m, hm, hprofile⟩ := hfound
        obtain ⟨v, hv, hactive, hsubmitted, rfl⟩ := (mem_result h).mp hm
        obtain rfl : v = u := hk.eq hv hu (congrArg Profile.id hprofile)
        exact ⟨hactive, hsubmitted⟩
      · intro hmatched
        exact ⟨_, (mem_result h).mpr ⟨u, hu, hmatched.1, hmatched.2, rfl⟩, rfl⟩
    · intro m hm
      obtain ⟨u, hu, _, _, rfl⟩ := (mem_result h).mp hm
      exact ⟨u, hu, rfl⟩
    · exact hechoed
    · intro m hm hphone hnone
      obtain ⟨u, _, _, _, rfl⟩ := (mem_result h).mp hm
      obtain ⟨phone, hphone, hhash⟩ := hphone
      have hlast : (phonesOf env phones u.phoneHash).getLast? = none := by
        simpa using hnone
      have hmem : phone ∈ phonesOf env phones u.phoneHash :=
        List.mem_filter.mpr ⟨hphone, decide_eq_true hhash⟩
      rw [List.getLast?_eq_none_iff.mp hlast] at hmem
      cases hmem

end Answer

/-- The matches lead back to the address book exactly when the last phone submitted for each
active user is submitted in its normalised text. -/
theorem contacts_lead_back_iff {env : AuthEnv} {phoneHashes phones : List String} {db : Db}
    (hk : Rows.Unique (·.id) db.users) (hsize : phoneHashes.length + phones.length ≤ 1000) :
    (∃ result, syncContacts env phoneHashes phones db = .ok result ∧
      LeadBack env phoneHashes phones db result) ↔ LastNormalized env phones db := by
  obtain ⟨result, h⟩ : ∃ result, syncContacts env phoneHashes phones db = .ok result := by
    unfold syncContacts
    rw [if_neg (Nat.not_lt.mpr hsize)]
    exact ⟨_, rfl⟩
  have honly : (∃ result, syncContacts env phoneHashes phones db = .ok result ∧
      LeadBack env phoneHashes phones db result) ↔ LeadBack env phoneHashes phones db result := by
    constructor
    · intro hlead
      obtain ⟨other, hother, hlead⟩ := hlead
      rw [h] at hother
      obtain rfl := Except.ok.inj hother
      exact hlead
    · exact fun hlead => ⟨result, h, hlead⟩
  rw [honly, leadBack_iff_echoed hk h]
  constructor
  · intro hechoed u hu hactive phone hlast
    have hmem := List.mem_of_getLast? hlast
    obtain ⟨hphone, hhash⟩ := List.mem_filter.mp hmem
    refine hechoed _ ((mem_result h).mpr ⟨u, hu, hactive, Or.inr ?_, rfl⟩) _ ?_
    · exact ⟨phone, hphone, of_decide_eq_true hhash⟩
    · show Option.map normalizePhone (phonesOf env phones u.phoneHash).getLast? = some (normalizePhone phone)
      rw [hlast]
      rfl
  · intro hnormal m hm phone hphone
    obtain ⟨u, hu, hactive, _, rfl⟩ := (mem_result h).mp hm
    obtain ⟨last, hlast, rfl⟩ := Option.map_eq_some_iff.mp hphone
    exact hnormal u hu hactive last hlast

def sampleDb : Db :=
  { users := [{ id := "u1", phoneHash := "hmac::+998901112233" },
      { id := "u2", phoneHash := "hmac::+998904445566", status := .suspended }] }

/-- The phone of an active user as it is normalised, and that of a suspended one in another
spelling. -/
theorem normalized_contact_leads_back :
    ∃ result, syncContacts Lockout.sampleEnv [] ["+998901112233", "998 90 444 55 66"] sampleDb =
        .ok result ∧
      LeadBack Lockout.sampleEnv [] ["+998901112233", "998 90 444 55 66"] sampleDb result := by
  refine (contacts_lead_back_iff (by decide) (by decide)).mpr ?_
  intro u hu hactive phone hlast
  have hphone : phone = "+998901112233" := by
    simp only [sampleDb, List.mem_cons, List.not_mem_nil, or_false] at hu
    rcases hu with rfl | rfl
    · have hone : (phonesOf Lockout.sampleEnv ["+998901112233", "998 90 444 55 66"]
          "hmac::+998901112233").getLast? = some "+998901112233" := by decide
      rw [hone] at hlast
      exact (Option.some.inj hlast).symm
    · cases hactive
  rw [hphone]
  decide

/-- A phone in another spelling comes back normalised. -/
theorem spelled_contact_lost :
    ¬ ∀ (env : AuthEnv) (phoneHashes phones : List String) (db : Db),
      Rows.Unique (·.id) db.users → phoneHashes.length + phones.length ≤ 1000 →
      ∃ result, syncContacts env phoneHashes phones db = .ok result ∧
        LeadBack env phoneHashes phones db result := by
  intro h
  obtain ⟨result, hresult, hlead⟩ := h Lockout.sampleEnv [] ["998 90 111 22 33"] sampleDb
    (by decide) (by decide)
  have hanswer : syncContacts Lockout.sampleEnv [] ["998 90 111 22 33"] sampleDb =
      .ok [{ profileOf { id := "u1", phoneHash := "hmac::+998901112233" } with
             matchedPhone := some "+998901112233" }] := by decide
  rw [hanswer] at hresult
  obtain rfl := Except.ok.inj hresult
  have hlisted := hlead.echoed _ List.mem_cons_self "+998901112233" rfl
  revert hlisted
  decide

end Birgap.Users.Contacts
