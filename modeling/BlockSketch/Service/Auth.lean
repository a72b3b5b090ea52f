import BlockSketch.Service.Request

/-!
# Authorisation

A service with a token lets a request through if its authorisation header bears the same token.
-/

namespace BlockSketch.Service

/-- Why a request is turned away. -/
inductive Denial where
  | missing
  | mismatch
  deriving DecidableEq, Repr

namespace Denial

/-- The number of the refusal. -/
def status : Denial → Nat
  | missing => 401
  | mismatch => 403

def message : Denial → String
  | missing => "Missing bearer token"
  | mismatch => "Invalid bearer token"

end Denial

/-- What the authorisation header comes to. -/
inductive Verdict where
  | granted
  | denied (reason : Denial)
  /-- Tokens beyond ASCII cannot be compared. -/
  | incomparable
  deriving DecidableEq, Repr

/-- The word in front of a token. -/
def scheme : List Char := "bearer ".toList

/-- The token that a header bears; the header has no white space around it. -/
def bearerToken? (header : String) : Option String :=
  if scheme.isPrefixOf (Text.lower header.toList) then
    let token := Text.strip (String.ofList ((header.toList.dropWhile (· != ' ')).drop 1))
    if token.isEmpty then none else some token
  else none

def isAscii (s : String) : Bool := s.toList.all fun c => c.toNat < 128

/-- Compares two tokens. -/
def compareTokens (given token : String) : Verdict :=
  if isAscii given && isAscii token then
    if given = token then .granted else .denied .mismatch
  else .incomparable

/-- Decides on a header.  A service without a token lets everything through. -/
def verdict (token header : String) : Verdict :=
  if token.isEmpty then .granted
  else
    match bearerToken? header with
    | none => .denied .missing
    | some given => compareTokens given token

/-- What is said when tokens cannot be compared. -/
def incomparableMessage : String := "comparing strings with non-ASCII characters is not supported"

@[simp]
theorem verdict_empty (header : String) : verdict "" header = .granted := rfl

theorem compareTokens_eq_granted_iff {given token : String} :
    compareTokens given token = .granted ↔ isAscii given ∧ given = token := by
  unfold compareTokens
  by_cases h : given = token
  · subst h
    by_cases ha : isAscii given <;> simp [ha]
  · by_cases ha : (isAscii given && isAscii token) = true <;> simp [h, ha]

end BlockSketch.Service
