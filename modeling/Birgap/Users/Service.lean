import Birgap.Auth.Otp
import Birgap.Moderation.Suspension

/-!
# Profiles and contacts

`UsersService.updateProfile` and `syncContacts`. Which stored names a look-up with `equals` and
`mode: 'insensitive'` finds is a parameter: the database takes the name for a pattern of ILIKE.
`updateProfile` looks the name up in one statement and stores it in another; the two are
separate definitions, composed for a call that runs alone.
-/
namespace Birgap.Users

set_option autoImplicit false

open Birgap.Auth Birgap.Common Birgap.Lib Birgap.Moderation

/-- An absent field is `none`; validation also lets a null pass, which is `some none`. -/
structure UpdateProfileDto where
  username : Option (Option String) := none
  profileAvatarUrl : Option (Option String) := none
  encryptedProfile : Option Ciphertext := none
  profileKeyHash : Option (Option String) := none
  deriving DecidableEq

/-- The columns of a user that the answers select. -/
structure Profile where
  id : Id
  phoneHash : String
  username : Option String
  profileAvatarUrl : Option String
  encryptedProfile : Option Ciphertext
  profileKeyHash : Option String
  deriving DecidableEq

def profileOf (u : User) : Profile :=
  { id := u.id, phoneHash := u.phoneHash, username := u.username
    profileAvatarUrl := u.profileAvatarUrl, encryptedProfile := u.encryptedProfile
    profileKeyHash := u.profileKeyHash }

def usernameIsTaken : Err := .badRequest "Username is already taken"

/-- The look-up finds the name with another user; `finds name` are the names it finds. -/
def usernameTaken (finds : String → String → Bool) (userId : Id) (name : String) (db : Db) : Bool :=
  db.users.any fun u => u.username.any (finds name) && u.id != userId

/-- The look-up of `updateProfile`; an absent, null or empty name skips it. -/
def updateProfileCheck (finds : String → String → Bool) (userId : Id) (dto : UpdateProfileDto)
    (db : Db) : Except Err Unit :=
  match truthy dto.username.join with
  | none => .ok ()
  | some name => if usernameTaken finds userId name db then .error usernameIsTaken else .ok ()

/-- Storing the name for the user would violate the unique index. -/
def usernameClash (userId : Id) (name : String) (db : Db) : Bool :=
  db.users.any fun u => u.username == some name && u.id != userId

def setProfile (dto : UpdateProfileDto) (u : User) : User :=
  { u with
    username := dto.username.getD u.username
    profileAvatarUrl := dto.profileAvatarUrl.getD u.profileAvatarUrl
    encryptedProfile := dto.encryptedProfile.or u.encryptedProfile
    profileKeyHash := dto.profileKeyHash.getD u.profileKeyHash }

/-- The update of `updateProfile`, with the violated index turned into a 400. -/
def updateProfileWrite (userId : Id) (dto : UpdateProfileDto) (db : Db) : Except Err Profile × Db :=
  match findUser userId db with
  | none => (.error (.failure "Record to update not found."), db)
  | some user =>
      if dto.username.join.any (usernameClash userId · db) then (.error usernameIsTaken, db)
      else (.ok (profileOf (setProfile dto user)), updateUser userId (setProfile dto) db)

/-- `UsersService.updateProfile`, run alone. -/
def updateProfile (finds : String → String → Bool) (userId : Id) (dto : UpdateProfileDto) (db : Db) :
    Except Err Profile × Db :=
  match updateProfileCheck finds userId dto db with
  | .error e => (.error e, db)
  | .ok () => updateProfileWrite userId dto db

/-- A contact that has an account, with the phone the client sent where it sent one. -/
structure ContactMatch extends Profile where
  matchedPhone : Option String
  deriving DecidableEq

/-- The hash and the normalised text of each phone; a phone without a digit is skipped. -/
def contactHashes (env : AuthEnv) (phones : List String) : List (String × String) :=
  phones.filterMap fun phone =>
    let normalized := normalizePhone phone
    if normalized = "" then none
    else some (env.hmacSha256 normalized env.phoneHashPepper, normalized)

def contactBatchTooLarge : Err := .badRequest "Contact batch too large. Max 1000 allowed."

/-- `UsersService.syncContacts`. No digest is empty, so an empty `phoneHash` is not looked at apart. -/
def syncContacts (env : AuthEnv) (phoneHashes phones : List String) (db : Db) :
    Except Err (List ContactMatch) :=
  if 1000 < phoneHashes.length + phones.length then .error contactBatchTooLarge
  else
    let hashToPhone := contactHashes env phones
    let hashes := phoneHashes ++ hashToPhone.map (·.1)
    let users := db.users.filter fun u => hashes.contains u.phoneHash && u.status == .active
    .ok (users.map fun u =>
      -- a later phone with the same hash replaces an earlier one
      { profileOf u with
        matchedPhone := (hashToPhone.reverse.find? (·.1 == u.phoneHash)).map (·.2) })

end Birgap.Users
