import Birgap.Schema
import Mathlib.Algebra.GroupWithZero.Nat

/-!
# Phone normalisation, dates and digests

`common/utils/crypto.util.ts`. The digest functions are parameters: no result here
depends on how they are computed. The clock runs in UTC, so a day has a fixed length.
-/
namespace Birgap.Common

set_option autoImplicit false

/-- The digest functions of `node:crypto`, as the utilities expose them. -/
structure Digests where
  sha256 : String → String
  hmacSha256 : String → String → String

def normalizePhone (phone : String) : String :=
  let digits := phone.toList.filter Char.isDigit
  if digits.isEmpty then "" else "+" ++ String.ofList digits

def maskPhone (phone : String) : String :=
  let normalized := (normalizePhone phone).toList
  if normalized.length ≤ 6 then "***"
  else String.ofList (normalized.take 6) ++ "****" ++
    String.ofList (normalized.drop (normalized.length - 2))

def addDays (date : Time) (days : Int) : Time := date + days * 86400000

/-- JavaScript's test of an optional string: an empty one counts as absent. -/
def truthy (s : Option String) : Option String := s.filter (· ≠ "")

theorem truthy_some {o : Option String} {x : String} (h : truthy o = some x) : o = some x :=
  (Option.filter_eq_some_iff.mp h).1

/-- JavaScript's `length`: the number of UTF-16 code units. -/
def utf16Length (s : String) : Nat :=
  (s.toList.map fun c => if 0x10000 ≤ c.toNat then 2 else 1).sum

/-- JavaScript's `padStart` with a one-unit pad. -/
def padStart (s : String) (width : Nat) (pad : Char) : String :=
  String.ofList (List.replicate (width - utf16Length s) pad) ++ s

end Birgap.Common
