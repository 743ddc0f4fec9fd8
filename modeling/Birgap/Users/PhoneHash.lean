import Birgap.Auth.Accounts
import Birgap.Users.Service

/-!
# Who hashes a phone, and how

Rows of three tables are found by a hash of a phone number. `OtpService`, `AuthService`,
`UsersService`, the Telegram contact handler and the admin script each compute it on their
own. The first four normalise the text and apply the keyed digest; `prisma/scripts/admin.ts`
applies the plain digest to the argument as it was typed.
-/
namespace Birgap.Users.PhoneHash

set_option autoImplicit false

open Birgap.Auth Birgap.Common Birgap.Lib Birgap.Moderation
open Birgap.Auth.Accounts (plainEnv plainEnv_separate)

/-! ## The Telegram contact handler -/

structure Contact where
  userId : Option Int
  phoneNumber : String

/-- The sender and the chat of the message that carries a contact. -/
structure ContactContext where
  fromId : Int
  fromUsername : Option String := none
  chatId : Int

def contactPhoneHash (env : AuthEnv) (contact : Contact) : String :=
  let normalizedPhone := normalizePhone contact.phoneNumber
  env.hmacSha256 normalizedPhone env.phoneHashPepper

def relink (ctx : ContactContext) (link : TelegramLink) : TelegramLink :=
  { link with
    chatId := ctx.chatId, telegramUserId := some ctx.fromId, username := ctx.fromUsername }

/-- The handler of a shared contact: the reply, and the link under the hash of the number. -/
def onContact (env : AuthEnv) (linkId : Id) (ctx : ContactContext) (contact : Contact) (db : Db) :
    Except Err String × Db :=
  if contact.userId ≠ some ctx.fromId then
    (.ok "Please share your own phone number using the button, not a saved contact.", db)
  else
    let phoneHash := contactPhoneHash env contact
    let reply := "✅ You are all set! Your login codes will now be delivered here in Telegram."
    if db.telegramLinks.any (·.phoneHash == phoneHash) then
      (.ok reply, { db with
        telegramLinks := Rows.updateMany (·.phoneHash == phoneHash) (relink ctx) db.telegramLinks })
    else if db.telegramLinks.any (·.id == linkId) then (.error .uniqueConstraint, db)
    else
      (.ok reply, { db with
        telegramLinks := db.telegramLinks ++ [relink ctx { id := linkId, phoneHash }] })

/-! ## The admin script -/

def hashPhone (env : AuthEnv) (phone : String) : String := env.sha256 phone

inductive Command where
  | promote
  | demote
  deriving DecidableEq

structure Args where
  command : Command
  phone : String
  role : Option String
  reason : Option String

def parseCommand : String → Option Command
  | "promote" => some .promote
  | "demote" => some .demote
  | _ => none

def parseRole : String → Option UserRole
  | "USER" => some .user
  | "MODERATOR" => some .moderator
  | "ADMIN" => some .admin
  | _ => none

/-- The argument after the first occurrence of a flag. -/
def flagValue (flag : String) (rest : List String) : Option String :=
  match rest.idxOf? flag with
  | none => none
  | some i => rest[i + 1]?

def usage : Err :=
  .failure ("Usage: pnpm admin:<promote|demote> <phoneE164> [--role <USER|MODERATOR|ADMIN>]" ++
    " [--reason <text>]")

def parseArgs (argv : List String) : Except Err Args :=
  match argv.drop 2 with
  | [] => .error usage
  | command :: rest =>
      match parseCommand command, truthy rest.head? with
      | none, _ => .error usage
      | some _, none =>
          .error (.failure "Phone argument is required (E.164 format, e.g. +998901112233)")
      | some command, some phone =>
          let role := flagValue "--role" rest
          match truthy role with
          | some r =>
              if (parseRole r).isNone then
                .error (.failure ("Invalid --role: " ++ r ++ ". Must be USER | MODERATOR | ADMIN"))
              else .ok { command, phone, role, reason := flagValue "--reason" rest }
          | none => .ok { command, phone, role, reason := flagValue "--reason" rest }

def rank : UserRole → Nat
  | .admin => 2
  | .moderator => 1
  | .user => 0

def roleName : UserRole → String
  | .user => "USER"
  | .moderator => "MODERATOR"
  | .admin => "ADMIN"

def cliAudit (operator : String) (user : User) (newRole : UserRole) (reason : Option String) :
    AdminAuditLog :=
  { actorUserId := none
    action := if rank user.role < rank newRole then .rolePromote else .roleDemote
    targetType := .user, targetId := user.id, reason
    metadata := .roleChangeBy "cli" operator user.role newRole }

/-- The branch of a command, with the word it reports and the role it takes by default. An
empty `--role` passes the check of the arguments and is refused by the update. -/
def changeRole (operator verb : String) (default : UserRole) (args : Args) (user : User) (db : Db) :
    Except Err String × Db :=
  let name := user.phoneMasked.getD user.id
  match args.role.elim (some default) parseRole with
  | none => (.error (.failure "Invalid value for argument `role`. Expected UserRole."), db)
  | some newRole =>
      if newRole = user.role then
        (.ok ("[admin] user " ++ name ++ " is already " ++ roleName user.role ++ "; nothing to do"),
          db)
      else
        (.ok ("[admin] " ++ verb ++ " " ++ name ++ ": " ++ roleName user.role ++ " → " ++
            roleName newRole),
          auditWrite (cliAudit operator user newRole args.reason)
            (updateUser user.id (fun u => { u with role := newRole }) db))

/-- `main` of the script: what it prints, or what it fails with. -/
def main (env : AuthEnv) (operator : String) (argv : List String) (db : Db) :
    Except Err String × Db :=
  match parseArgs argv with
  | .error e => (.error e, db)
  | .ok args =>
      let phoneHash := hashPhone env args.phone
      match db.users.find? (·.phoneHash == phoneHash) with
      | none =>
          (.error (.failure ("[admin] no user found for phoneHash " ++
            String.ofList (phoneHash.toList.take 8) ++ "…")), db)
      | some user =>
          match args.command with
          | .demote => changeRole operator "demoted" .user args user db
          | .promote => changeRole operator "promoted" .admin args user db

/-! ## The hash of each component -/

/-- The places that compute a lookup hash from a phone. `loginOtp` and `loginUser` are the two
of `AuthService.verifyOtp`: the code it checks, and the user it finds or creates. -/
inductive Component where
  | requestOtp
  | verifyOtp
  | loginOtp
  | loginUser
  | syncContacts
  | telegramContact
  | adminScript
  deriving DecidableEq

/-- The hash a component looks a phone up by, `none` where it drops the phone. -/
def lookupHash (env : AuthEnv) : Component → String → Option String
  | .requestOtp, phone => some (phoneHashOf env phone)
  | .verifyOtp, phone => some (env.hmacSha256 (normalizePhone phone) env.phoneHashPepper)
  -- `AuthService.verifyOtp` hands the normalised phone on, and it is normalised again
  | .loginOtp, phone => some (phoneHashOf env (normalizePhone phone))
  | .loginUser, phone => some (env.hmacSha256 (normalizePhone phone) env.phoneHashPepper)
  | .syncContacts, phone => ((contactHashes env [phone]).map (·.1)).head?
  | .telegramContact, phone => some (contactPhoneHash env { userId := none, phoneNumber := phone })
  | .adminScript, phone => some (hashPhone env phone)

/-- The ASCII digits of a phone, which a reformatting keeps. -/
def digits (phone : String) : List Char := phone.toList.filter Char.isDigit

/-- The components agree on a pair of phones: one hash for two formats of a number, different
hashes for different numbers. -/
def Agree (env : AuthEnv) (c c' : Component) (p q : String) : Prop :=
  (digits p = digits q → lookupHash env c p = lookupHash env c' q) ∧
  (digits p ≠ digits q → lookupHash env c p ≠ lookupHash env c' q)

/-- Where two formats of one number get one hash: between the components of the server, where
only `syncContacts` drops a phone without digits; and in the script for the very same text. -/
def SameScheme (c c' : Component) (p q : String) : Prop :=
  (c ≠ .adminScript ∧ c' ≠ .adminScript ∧
    (digits p ≠ [] ∨ (c = .syncContacts ↔ c' = .syncContacts))) ∨
  (c = .adminScript ∧ c' = .adminScript ∧ p = q)

theorem normalizePhone_of_digits {phone : String} (h : digits phone ≠ []) :
    normalizePhone phone = "+" ++ String.ofList (digits phone) := by
  have hsome : (phone.toList.filter Char.isDigit).isEmpty = false := List.isEmpty_eq_false_iff.mpr h
  unfold normalizePhone
  simp only [hsome, Bool.false_eq_true, if_false]
  rfl

theorem normalizePhone_of_no_digits {phone : String} (h : digits phone = []) :
    normalizePhone phone = "" := by
  have hnone : (phone.toList.filter Char.isDigit).isEmpty = true := List.isEmpty_iff.mpr h
  unfold normalizePhone
  simp only [hnone, if_true]

theorem digits_normalizePhone (phone : String) : digits (normalizePhone phone) = digits phone := by
  by_cases hd : digits phone = []
  · rw [normalizePhone_of_no_digits hd, hd]
    rfl
  · have hself : (digits phone).filter Char.isDigit = digits phone := by
      rw [digits, List.filter_filter]
      simp only [Bool.and_self]
    have hplus : "+".toList.filter Char.isDigit = [] := by decide
    rw [normalizePhone_of_digits hd]
    show ("+" ++ String.ofList (digits phone)).toList.filter Char.isDigit = digits phone
    rw [String.toList_append, List.filter_append, hplus, List.nil_append]
    simpa only [String.toList_ofList] using hself

theorem normalizePhone_eq_iff {p q : String} :
    normalizePhone p = normalizePhone q ↔ digits p = digits q := by
  constructor
  · intro h
    rw [← digits_normalizePhone p, h, digits_normalizePhone]
  · intro h
    unfold digits at h
    unfold normalizePhone
    rw [h]

theorem normalizePhone_normalizePhone (phone : String) :
    normalizePhone (normalizePhone phone) = normalizePhone phone :=
  normalizePhone_eq_iff.mpr (digits_normalizePhone phone)

theorem normalizePhone_eq_empty {phone : String} : normalizePhone phone = "" ↔ digits phone = [] := by
  constructor
  · intro h
    rw [← digits_normalizePhone phone, h]
    rfl
  · exact normalizePhone_of_no_digits

/-- What each component of the server computes is the keyed digest of the normalised phone,
except that `syncContacts` drops a phone without digits. -/
theorem lookupHash_server (env : AuthEnv) {c : Component} (hc : c ≠ .adminScript) (p : String) :
    lookupHash env c p =
      if c = .syncContacts ∧ digits p = [] then none
      else some (env.hmacSha256 (normalizePhone p) env.phoneHashPepper) := by
  cases c with
  | adminScript => exact absurd rfl hc
  | syncContacts =>
      by_cases hd : digits p = []
      · have hempty : normalizePhone p = "" := normalizePhone_eq_empty.mpr hd
        rw [if_pos ⟨rfl, hd⟩]
        simp only [lookupHash, contactHashes, List.filterMap_cons, hempty, if_true]
        rfl
      · have hsome : normalizePhone p ≠ "" := fun he => hd (normalizePhone_eq_empty.mp he)
        rw [if_neg fun h => hd h.2]
        simp only [lookupHash, contactHashes, List.filterMap_cons, if_neg hsome]
        rfl
  | loginOtp =>
      rw [if_neg fun h => Component.noConfusion h.1]
      simp only [lookupHash, phoneHashOf, normalizePhone_normalizePhone]
  | _ =>
      rw [if_neg fun h => Component.noConfusion h.1]
      rfl

/-! ## The rows addressed

Each component reads or writes the rows whose `phoneHash` is the hash above, and no others. -/

/-- A requested code is stored under the hash of `requestOtp`. -/
theorem requestOtp_addresses (env : AuthEnv) (now : Time) (phone : String) (d : OtpDraws) (db : Db) :
    (requestOtp env now phone d db).2 = db ∨
    ∃ otp, some otp.phoneHash = lookupHash env .requestOtp phone ∧
      (requestOtp env now phone d db).2 = { db with otps := db.otps ++ [otp] } := by
  rcases requestOtp_cases env now phone d db with hsame | ⟨_, hnew⟩
  · exact Or.inl hsame
  · exact Or.inr ⟨newOtp env now (phoneHashOf env phone) d, rfl, hnew⟩

/-- An accepted code was stored under the hash of `verifyOtp`. -/
theorem otpVerify_addresses {env : AuthEnv} {now : Time} {phone code : String} {db : Db}
    (h : (otpVerify env now phone code db).1 = .ok ()) :
    ∃ otp ∈ db.otps, otp.status = .unused ∧ some otp.phoneHash = lookupHash env .verifyOtp phone := by
  unfold otpVerify at h
  dsimp only at h
  split at h
  · cases h
  · split at h
    · cases h
    · rename_i otp hotp
      have hmem := List.mem_filter.mp (Rows.newest_mem hotp)
      obtain ⟨hhash, hunused⟩ := Bool.and_eq_true_iff.mp hmem.2
      exact ⟨otp, hmem.1, beq_iff_eq.mp hunused, congrArg some (beq_iff_eq.mp hhash)⟩

/-- The user of a login is stored under the hash of the login when it returns. -/
theorem findOrCreateUser_addresses {env : AuthEnv} {phone phoneHash : String} {d : Draws} {db : Db}
    {userId : Id} (h : (findOrCreateUser env phone phoneHash d db).1 = .ok userId) :
    ∃ u ∈ (findOrCreateUser env phone phoneHash d db).2.users,
      u.id = userId ∧ u.phoneHash = phoneHash := by
  unfold findOrCreateUser at h ⊢
  cases hfind : db.users.find? (·.phoneHash == phoneHash) with
  | some existing =>
      rw [hfind] at h
      exact ⟨existing, List.mem_of_find?_eq_some hfind, Except.ok.inj h,
        by simpa using List.find?_some hfind⟩
  | none =>
      rw [hfind] at h
      cases hlegacy : db.users.find? (·.phoneHash == env.sha256 phone) with
      | some legacy =>
          simp only [hlegacy] at h ⊢
          refine ⟨{ legacy with phoneHash }, ?_, Except.ok.inj h, rfl⟩
          exact mem_updateUser.mpr
            (Or.inl ⟨legacy, List.mem_of_find?_eq_some hlegacy, rfl, rfl⟩)
      | none =>
          simp only [hlegacy] at h ⊢
          split at h
          · cases h
          · rename_i hfresh
            rw [if_neg hfresh]
            exact ⟨_, List.mem_append_right _ List.mem_cons_self, Except.ok.inj h, rfl⟩

/-- The matches of one phone are the active users under the hash of `syncContacts`. -/
theorem syncContacts_addresses (env : AuthEnv) (phone : String) (db : Db) :
    syncContacts env [] [phone] db = .ok ((db.users.filter fun u =>
      some u.phoneHash == lookupHash env .syncContacts phone && u.status == .active).map fun u =>
        { profileOf u with matchedPhone := some (normalizePhone phone) }) := by
  have hempty : ∀ h : String, (some h == (none : Option String)) = false := fun _ => rfl
  have hsome : ∀ a b : String, (some a == some b) = (a == b) := fun _ _ => rfl
  unfold syncContacts
  rw [if_neg (by simp)]
  by_cases hn : normalizePhone phone = ""
  · simp only [lookupHash, contactHashes, List.filterMap_cons, List.filterMap_nil, hn, if_true,
      List.map_nil, List.append_nil, List.contains_nil, List.head?_nil, hempty, Bool.false_and,
      List.filter_false]
  · simp only [lookupHash, contactHashes, List.filterMap_cons, List.filterMap_nil, if_neg hn,
      List.map_cons, List.map_nil, List.nil_append, List.contains_cons, List.contains_nil,
      Bool.or_false, List.head?_cons, hsome, List.reverse_singleton]
    congr 1
    apply List.map_congr_left
    intro u hu
    have hhash := (Bool.and_eq_true_iff.mp (List.mem_filter.mp hu).2).1
    rw [List.find?_cons_of_pos (by rw [beq_iff_eq.mp hhash]; exact beq_self_eq_true _)]
    rfl

/-- The handler stores the link under the hash of the contact and leaves the others. -/
theorem onContact_addresses {env : AuthEnv} {linkId : Id} {ctx : ContactContext} {contact : Contact}
    {db : Db} {reply : String} (hown : contact.userId = some ctx.fromId)
    (h : (onContact env linkId ctx contact db).1 = .ok reply) :
    (∃ link ∈ (onContact env linkId ctx contact db).2.telegramLinks, link.chatId = ctx.chatId ∧
      some link.phoneHash = lookupHash env .telegramContact contact.phoneNumber) ∧
    (onContact env linkId ctx contact db).2.telegramLinks.filter
        (·.phoneHash != contactPhoneHash env contact) =
      db.telegramLinks.filter (·.phoneHash != contactPhoneHash env contact) := by
  unfold onContact at h ⊢
  rw [if_neg (not_not_intro hown)] at h ⊢
  cases hlinked : db.telegramLinks.any (·.phoneHash == contactPhoneHash env contact) with
  | true =>
      simp only [hlinked, if_true]
      refine ⟨?_, ?_⟩
      · obtain ⟨link, hlink, hhash⟩ := List.any_eq_true.mp hlinked
        refine ⟨relink ctx link, ?_, rfl, congrArg some (beq_iff_eq.mp hhash)⟩
        exact Rows.mem_updateMany.mpr ⟨link, hlink, by rw [if_pos hhash]⟩
      · have hkeep : ∀ link, ((relink ctx link).phoneHash != contactPhoneHash env contact) =
            (link.phoneHash != contactPhoneHash env contact) := fun _ => rfl
        rw [Rows.filter_updateMany hkeep]
        apply Rows.updateMany_eq_self
        intro link hlink
        have hne := (List.mem_filter.mp hlink).2
        exact beq_false_of_ne (bne_iff_ne.mp hne)
  | false =>
      simp only [hlinked, Bool.false_eq_true, if_false] at h ⊢
      split at h
      · cases h
      · rename_i hfresh
        rw [if_neg hfresh]
        refine ⟨⟨_, List.mem_append_right _ List.mem_cons_self, rfl, rfl⟩, ?_⟩
        rw [List.filter_append, List.filter_singleton]
        simp [relink]

/-- The script changes the role of a user under its own hash, or nothing. -/
theorem main_addresses (env : AuthEnv) (operator : String) (argv : List String) (db : Db) :
    (main env operator argv db).2 = db ∨
    ∃ args, ∃ user ∈ db.users, ∃ newRole, parseArgs argv = .ok args ∧
      some user.phoneHash = lookupHash env .adminScript args.phone ∧
      (main env operator argv db).2 = auditWrite (cliAudit operator user newRole args.reason)
        (updateUser user.id (fun u => { u with role := newRole }) db) := by
  have hchange : ∀ verb default args user, (changeRole operator verb default args user db).2 = db ∨
      ∃ newRole, (changeRole operator verb default args user db).2 =
        auditWrite (cliAudit operator user newRole args.reason)
          (updateUser user.id (fun u => { u with role := newRole }) db) := by
    intro verb default args user
    unfold changeRole
    dsimp only
    split
    · exact Or.inl rfl
    · split
      · exact Or.inl rfl
      · exact Or.inr ⟨_, rfl⟩
  unfold main
  cases hargs : parseArgs argv with
  | error e => exact Or.inl rfl
  | ok args =>
      dsimp only
      cases hfind : db.users.find? (·.phoneHash == hashPhone env args.phone) with
      | none => exact Or.inl rfl
      | some user =>
          have hhash : user.phoneHash = hashPhone env args.phone := by
            simpa using List.find?_some hfind
          cases args.command with
          | demote =>
              rcases hchange "demoted" .user args user with hsame | ⟨newRole, hnew⟩
              · exact Or.inl hsame
              · exact Or.inr ⟨args, user, List.mem_of_find?_eq_some hfind, newRole, rfl,
                  congrArg some hhash, hnew⟩
          | promote =>
              rcases hchange "promoted" .admin args user with hsame | ⟨newRole, hnew⟩
              · exact Or.inl hsame
              · exact Or.inr ⟨args, user, List.mem_of_find?_eq_some hfind, newRole, rfl,
                  congrArg some hhash, hnew⟩

/-! ## Agreement -/

/-- The script and a component of the server never look up the same hash. -/
theorem lookupHash_apart {env : AuthEnv} (h : Separate env) {c : Component}
    (hc : c ≠ .adminScript) (p q : String) :
    lookupHash env c p ≠ lookupHash env .adminScript q := by
  rw [lookupHash_server env hc]
  intro he
  split at he
  · cases he
  · exact h.apart _ _ (Option.some.inj he)

theorem lookupHash_adminScript_eq {env : AuthEnv} (h : Separate env) {p q : String} :
    lookupHash env .adminScript p = lookupHash env .adminScript q ↔ p = q := by
  constructor
  · intro he
    exact h.sha p q (Option.some.inj he)
  · intro he
    rw [he]

/-- Two components of the server look up the same hash for the same digits, unless one of the
two drops the phone, and only then. -/
theorem lookupHash_server_eq {env : AuthEnv} (h : Separate env) {c c' : Component}
    (hc : c ≠ .adminScript) (hc' : c' ≠ .adminScript) {p q : String} :
    lookupHash env c p = lookupHash env c' q ↔
      digits p = digits q ∧ (digits p ≠ [] ∨ (c = .syncContacts ↔ c' = .syncContacts)) ∨
      (c = .syncContacts ∧ digits p = [] ∧ c' = .syncContacts ∧ digits q = []) := by
  rw [lookupHash_server env hc, lookupHash_server env hc']
  by_cases hp : c = .syncContacts ∧ digits p = []
  · rw [if_pos hp]
    by_cases hq : c' = .syncContacts ∧ digits q = []
    · rw [if_pos hq]
      exact iff_of_true rfl (Or.inr ⟨hp.1, hp.2, hq⟩)
    · rw [if_neg hq]
      refine iff_of_false (by simp) ?_
      rintro (⟨hd, hsome | hsync⟩ | ⟨_, _, hq'⟩)
      · exact hsome hp.2
      · exact hq ⟨hsync.mp hp.1, hd ▸ hp.2⟩
      · exact hq hq'
  · rw [if_neg hp]
    by_cases hq : c' = .syncContacts ∧ digits q = []
    · rw [if_pos hq]
      refine iff_of_false (by simp) ?_
      rintro (⟨hd, hsome | hsync⟩ | ⟨h1, h2, _⟩)
      · exact hsome (hd.trans hq.2)
      · exact hp ⟨hsync.mpr hq.1, hd.trans hq.2⟩
      · exact hp ⟨h1, h2⟩
    · rw [if_neg hq, Option.some.injEq]
      constructor
      · intro he
        have hd : digits p = digits q := normalizePhone_eq_iff.mp (h.hmac _ _ he)
        refine Or.inl ⟨hd, ?_⟩
        by_cases hnone : digits p = []
        · have hc₁ : c ≠ .syncContacts := fun hs => hp ⟨hs, hnone⟩
          have hc₂ : c' ≠ .syncContacts := fun hs => hq ⟨hs, hd ▸ hnone⟩
          exact Or.inr (iff_of_false hc₁ hc₂)
        · exact Or.inl hnone
      · rintro (⟨hd, _⟩ | ⟨h1, h2, _⟩)
        · rw [normalizePhone_eq_iff.mpr hd]
        · exact absurd ⟨h1, h2⟩ hp

/-- For every two components and every two phones: they agree exactly when the numbers differ
or both use the same scheme on the text at hand. -/
theorem components_agree_iff (env : AuthEnv) (h : Separate env) (c c' : Component) (p q : String) :
    Agree env c c' p q ↔ (digits p = digits q → SameScheme c c' p q) := by
  by_cases hc : c = .adminScript
  · by_cases hc' : c' = .adminScript
    · obtain rfl := hc
      obtain rfl := hc'
      unfold Agree SameScheme
      rw [ne_eq (lookupHash _ _ _), lookupHash_adminScript_eq h]
      constructor
      · intro ha hd
        exact Or.inr ⟨rfl, rfl, ha.1 hd⟩
      · intro hs
        refine ⟨?_, ?_⟩
        · intro hd
          rcases hs hd with ⟨hne, _⟩ | ⟨_, _, he⟩
          · exact absurd rfl hne
          · exact he
        · intro hd he
          exact hd (congrArg digits he)
    · obtain rfl := hc
      have hapart := (lookupHash_apart h hc' q p).symm
      constructor
      · intro ha hd
        exact absurd (ha.1 hd) hapart
      · intro hs
        refine ⟨?_, fun _ => hapart⟩
        intro hd
        rcases hs hd with ⟨hne, _⟩ | ⟨_, he, _⟩
        · exact absurd rfl hne
        · exact absurd he hc'
  · by_cases hc' : c' = .adminScript
    · obtain rfl := hc'
      have hapart := lookupHash_apart h hc p q
      constructor
      · intro ha hd
        exact absurd (ha.1 hd) hapart
      · intro hs
        refine ⟨?_, fun _ => hapart⟩
        intro hd
        rcases hs hd with ⟨_, hne, _⟩ | ⟨he, _⟩
        · exact absurd rfl hne
        · exact absurd he hc
    · unfold Agree
      rw [ne_eq (lookupHash _ _ _), lookupHash_server_eq h hc hc']
      constructor
      · rintro ⟨hsame, _⟩ hd
        rcases hsame hd with ⟨_, hs⟩ | ⟨h1, _, h2, _⟩
        · exact Or.inl ⟨hc, hc', hs⟩
        · exact Or.inl ⟨hc, hc', Or.inr (iff_of_true h1 h2)⟩
      · intro hs
        refine ⟨?_, ?_⟩
        · intro hd
          rcases hs hd with ⟨_, _, hscheme⟩ | ⟨he, _⟩
          · exact Or.inl ⟨hd, hscheme⟩
          · exact absurd he hc
        · rintro hd (⟨he, _⟩ | ⟨_, h1, _, h2⟩)
          · exact hd he
          · exact hd (h1.trans h2.symm)

/-- The account of a login is not the one the script looks for. -/
theorem script_misses_account :
    ¬ ∀ env : AuthEnv, Separate env → ∀ (c c' : Component) (p q : String), Agree env c c' p q := by
  intro h
  have hagree := h plainEnv plainEnv_separate .loginUser .adminScript "+998901112233" "+998901112233"
  have hsame := hagree.1 rfl
  exact absurd hsame (by decide)

/-- A login and a contact shared without the plus meet. -/
theorem login_meets_contact :
    lookupHash plainEnv .loginUser "+998 (90) 111-22-33" =
      lookupHash plainEnv .telegramContact "998901112233" := by
  have hagree := (components_agree_iff plainEnv plainEnv_separate .loginUser .telegramContact
    "+998 (90) 111-22-33" "998901112233").mpr fun _ => Or.inl ⟨by decide, by decide, by decide⟩
  exact hagree.1 (by decide)

end Birgap.Users.PhoneHash
