import CommandRelay.Broker.Connection
import CommandRelay.Store.Database

/-!
# Authentication

Credentials, tokens and the per-name lockout.  The cryptographic primitives come
from other packages and are a parameter.
-/

namespace CommandRelay

open Foundation

inductive AuthError where
  | invalidCredentials
  | invalidTotp
  | rateLimited (retryAfter : Nat)
  | bcrypt
  | jwt
  | db (error : DbError)
  | totp
  | encryption

structure JwtClaims where
  sub : String
  deviceId : String
  exp : Nat
  iat : Nat
  aud : String
  iss : String
  deriving DecidableEq

def jwtAudience : String := "command-center-relay"
def jwtIssuer : String := "command-center-relay"

/-- The cryptographic primitives; `none` is an error of the primitive. -/
structure Crypto where
  /-- Lower-case hexadecimal SHA-256 of a text. -/
  sha256Hex : String -> String
  /-- `bcrypt::verify` of an input against a stored hash. -/
  bcryptVerify : String -> String -> Option Bool
  /-- Decrypt a TOTP secret with the key derived from the password hash. -/
  decryptTotp : (passwordHash : String) -> (nonce encrypted : Bytes) -> Option Bytes
  /-- Check a code against a secret at a Unix time. -/
  totpCheck : (secret : Bytes) -> (code : String) -> (unix : Nat) -> Option Bool
  jwtEncode : (secret : Bytes) -> JwtClaims -> Option String
  /-- Decode a token for an audience and an issuer at a Unix time. -/
  jwtDecode : (secret : Bytes) -> (audience issuer token : String) -> (unix : Nat) ->
    Option JwtClaims

structure RateLimitEntry where
  failures : Nat
  lockedUntil : Option Instant

def maxFailures : Nat := 5
def lockoutDuration : Instant := 900 * 1000000000
def jwtExpirySecs : Nat := 86400

structure AuthManager where
  jwtSecret : Bytes
  rateLimits : Table String RateLimitEntry

namespace AuthManager

/-- The remaining lockout in seconds, at least one; `none` when not locked. -/
def checkRateLimit (username : String) (now : Instant) (auth : AuthManager) :
    Option Nat :=
  match (auth.rateLimits.lookup username).bind RateLimitEntry.lockedUntil with
  | none => none
  | some lockedUntil =>
      if now < lockedUntil then some (max (elapsedSecs lockedUntil now) 1) else none

def recordFailure (username : String) (now : Instant) (auth : AuthManager) :
    AuthManager :=
  let entry := (auth.rateLimits.lookup username).getD ⟨0, none⟩
  let failures := entry.failures + 1
  { auth with
    rateLimits := auth.rateLimits.insert username
      { failures := failures
        lockedUntil :=
          if maxFailures ≤ failures then some (now + lockoutDuration)
          else entry.lockedUntil } }

def clearRateLimit (username : String) (auth : AuthManager) : AuthManager :=
  { auth with rateLimits := auth.rateLimits.erase username }

def createJwt (crypto : Crypto) (username deviceId : String) (unix : Nat)
    (auth : AuthManager) : Except AuthError String :=
  let claims : JwtClaims :=
    { sub := username, deviceId := deviceId, exp := unix + jwtExpirySecs, iat := unix,
      aud := jwtAudience, iss := jwtIssuer }
  match crypto.jwtEncode auth.jwtSecret claims with
  | none => .error .jwt
  | some token => .ok token

def validateJwt (crypto : Crypto) (token : String) (unix : Nat) (auth : AuthManager) :
    Except AuthError JwtClaims :=
  match crypto.jwtDecode auth.jwtSecret jwtAudience jwtIssuer token unix with
  | none => .error .jwt
  | some claims => .ok claims

end AuthManager

/-!
## Credentials
-/

def constantTimeEq (a b : List UInt8) : Bool :=
  if a.length ≠ b.length then false
  else (List.zip a b).foldl (fun diff p => diff ||| (p.1 ^^^ p.2)) 0 == 0

theorem differences_eq_zero {pairs : List (UInt8 × UInt8)} {diff : UInt8}
    (h : pairs.foldl (fun diff p => diff ||| (p.1 ^^^ p.2)) diff = 0) :
    diff = 0 ∧ forall p, p ∈ pairs -> p.1 = p.2 := by
  induction pairs generalizing diff with
  | nil => exact ⟨h, fun p hp => by cases hp⟩
  | cons p rest ih =>
      rcases ih h with ⟨hdiff, hrest⟩
      rcases UInt8.or_eq_zero_iff.mp hdiff with ⟨hbefore, hp⟩
      refine ⟨hbefore, fun q hq => ?_⟩
      rcases List.mem_cons.mp hq with rfl | hq
      · exact UInt8.xor_eq_zero_iff.mp hp
      · exact hrest q hq

theorem eq_of_constantTimeEq {a b : List UInt8} (h : constantTimeEq a b = true) : a = b := by
  unfold constantTimeEq at h
  by_cases hlength : a.length ≠ b.length
  · rw [if_pos hlength] at h
    cases h
  · rw [if_neg hlength] at h
    have hpairs := (differences_eq_zero (eq_of_beq h)).2
    refine List.ext_getElem (Decidable.not_not.mp hlength) fun i ha hb => ?_
    exact hpairs (a[i], b[i]) (List.mem_iff_getElem.mpr
      ⟨i, by rw [List.length_zip]; omega, List.getElem_zip⟩)

namespace Database

def desktopKeyEntry (username : String) : String :=
  "desktop_key:" ++ username

def setDesktopKey (crypto : Crypto) (username key : String) (db : Database) : Database :=
  db.setConfig (desktopKeyEntry username) (crypto.sha256Hex key)

def verifyDesktopKey (crypto : Crypto) (username key : String) (db : Database) : Bool :=
  match db.getConfig (desktopKeyEntry username) with
  | none => false
  | some stored =>
      constantTimeEq stored.toUTF8.data.toList
        (crypto.sha256Hex key).toUTF8.data.toList

theorem stored_of_verifyDesktopKey {crypto : Crypto} {username key : String} {db : Database}
    (h : db.verifyDesktopKey crypto username key = true) :
    db.getConfig (desktopKeyEntry username) = some (crypto.sha256Hex key) := by
  unfold verifyDesktopKey at h
  cases hstored : db.getConfig (desktopKeyEntry username) with
  | none =>
      rw [hstored] at h
      cases h
  | some stored =>
      rw [hstored] at h
      have hbytes := eq_of_constantTimeEq h
      rw [String.toByteArray_inj.mp (ByteArray.ext (Array.toList_inj.mp hbytes))]

def verifyPassword (crypto : Crypto) (username passwordSha256 : String)
    (db : Database) : Except AuthError Unit :=
  match db.getAccount username with
  | .error e => .error (.db e)
  | .ok account =>
      match crypto.bcryptVerify passwordSha256 account.passwordHash with
      | none => .error .bcrypt
      | some valid => if valid then .ok () else .error .invalidCredentials

def hasTotp (username : String) (db : Database) : Except AuthError Bool :=
  match db.getAccount username with
  | .error e => .error (.db e)
  | .ok account => .ok account.totpSecretEncrypted.isSome

def verifyTotp (crypto : Crypto) (username code : String) (unix : Nat)
    (db : Database) : Except AuthError Unit :=
  match db.getAccount username with
  | .error e => .error (.db e)
  | .ok account =>
      match account.totpSecretEncrypted, account.totpNonce with
      | some encrypted, some nonce =>
          match crypto.decryptTotp account.passwordHash nonce encrypted with
          | none => .error .encryption
          | some secret =>
              match crypto.totpCheck secret code unix with
              | none => .error .totp
              | some valid => if valid then .ok () else .error .invalidTotp
      | _, _ => .error .totp

def isDeviceRegistered (deviceId username : String) (db : Database) : Bool :=
  match db.getDevice deviceId with
  | .error _ => false
  | .ok device => decide (device.username = username)

end Database

end CommandRelay
