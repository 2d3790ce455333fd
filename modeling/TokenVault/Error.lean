/-!
# Kinds of error

What an error means to the caller: each kind has a stable code, a wording and a class.
The details of an error are its cause, which each part of the library has for itself.
-/

namespace TokenVault

/-- A kind of error. -/
inductive ErrorKind
  /-- A text is not the base64url form of anything. -/
  | malformedEncoding
  /-- A token has the wrong shape or content. -/
  | malformedToken
  /-- A header names an algorithm outside the table. -/
  | unsupportedAlgorithm
  /-- A signature is not that of the token. -/
  | invalidSignature
  /-- There is no key or no signature. -/
  | signing
  /-- A token is not valid yet or not any more. -/
  | invalidTime
  /-- A token is meant for or comes from someone else. -/
  | claimMismatch
  /-- The store would follow a symbolic link. -/
  | unsafeLocation
  /-- The store cannot be read or written. -/
  | storeFault
  /-- A setting makes no sense. -/
  | settings
  deriving DecidableEq, Repr

namespace ErrorKind

/-- Every kind. -/
def all : List ErrorKind :=
  [malformedEncoding, malformedToken, unsupportedAlgorithm, invalidSignature, signing,
    invalidTime, claimMismatch, unsafeLocation, storeFault, settings]

theorem mem_all (kind : ErrorKind) : kind ∈ all := by cases kind <;> decide

/-- The code under which a kind is logged and answered. -/
def code : ErrorKind → String
  | malformedEncoding => "TOKEN_MALFORMED_ENCODING"
  | malformedToken => "TOKEN_MALFORMED"
  | unsupportedAlgorithm => "TOKEN_UNSUPPORTED_ALGORITHM"
  | invalidSignature => "TOKEN_INVALID_SIGNATURE"
  | signing => "TOKEN_SIGNING_ERROR"
  | invalidTime => "TOKEN_INVALID_TIME"
  | claimMismatch => "TOKEN_CLAIM_MISMATCH"
  | unsafeLocation => "STORE_UNSAFE_LOCATION"
  | storeFault => "STORE_IO_ERROR"
  | settings => "CONFIG_ERROR"

/-- The wording of an error with a given detail.  A bad signature and a bad time have no
details to tell. -/
def describe (kind : ErrorKind) (detail : String) : String :=
  match kind with
  | malformedEncoding => "Malformed base64url encoding: " ++ detail
  | malformedToken => "Malformed token: " ++ detail
  | unsupportedAlgorithm => "Unsupported algorithm: " ++ detail
  | invalidSignature => "Invalid signature"
  | signing => "Signing error: " ++ detail
  | invalidTime => "Token is outside its validity window"
  | claimMismatch => "Claim mismatch: " ++ detail
  | unsafeLocation => "Unsafe credential store location: " ++ detail
  | storeFault => "Credential store I/O error: " ++ detail
  | settings => "Configuration error: " ++ detail

/-- Whether a token was rejected: its bearer is not authenticated. -/
def isAuthRejection : ErrorKind → Bool
  | malformedEncoding | malformedToken | unsupportedAlgorithm | invalidSignature
  | invalidTime | claimMismatch => true
  | signing | unsafeLocation | storeFault | settings => false

/-- Whether credentials are out of reach. -/
def isStorageFault : ErrorKind → Bool
  | unsafeLocation | storeFault => true
  | malformedEncoding | malformedToken | unsupportedAlgorithm | invalidSignature | signing
  | invalidTime | claimMismatch | settings => false

/-- No error is both a rejected token and a fault of the store. -/
theorem not_both_classes (kind : ErrorKind) :
    ¬(kind.isAuthRejection = true ∧ kind.isStorageFault = true) := by
  cases kind <;> decide

/-- Different kinds have different codes. -/
theorem code_injective {a b : ErrorKind} (h : a.code = b.code) : a = b := by
  revert h
  cases a <;> cases b <;> decide

end ErrorKind

end TokenVault
