/-!
# Push endpoints

The guard on stored subscription endpoints.  A URL parser splits an endpoint
into its scheme and its host; the guard wants HTTPS and a public host name, so it
refuses everything the standard library reads as an IP address.
-/

namespace CommandRelay

/-- The parts of a parsed URL that the relay looks at. -/
structure Url where
  scheme : String
  host : Option String

/-!
## IP addresses

A reader takes what it recognizes off the front of a text and returns the rest.
-/

namespace IpAddr

def digitValue (radix : Nat) (c : Char) : Option Nat :=
  let value :=
    if '0' ≤ c ∧ c ≤ '9' then c.toNat - '0'.toNat
    else if 'a' ≤ c ∧ c ≤ 'f' then c.toNat - 'a'.toNat + 10
    else if 'A' ≤ c ∧ c ≤ 'F' then c.toNat - 'A'.toNat + 10
    else radix
  if value < radix then some value else none

/-- A number of at most `maxDigits` digits and at most `bound`. -/
def readNumber (radix maxDigits bound : Nat) (allowZeroPrefix : Bool)
    (text : List Char) : Option (List Char) :=
  let digits := text.takeWhile fun c => (digitValue radix c).isSome
  let value := digits.foldl (fun acc c => acc * radix + (digitValue radix c).getD 0) 0
  if digits.length = 0 ∨ maxDigits < digits.length then none
  else if !allowZeroPrefix ∧ text.head? = some '0' ∧ 1 < digits.length then none
  else if bound < value then none
  else some (text.drop digits.length)

def readChar (c : Char) : List Char -> Option (List Char)
  | [] => none
  | c' :: rest => if c' = c then some rest else none

def readSeparator (sep : Char) (index : Nat) (text : List Char) : Option (List Char) :=
  if index = 0 then some text else readChar sep text

def readOctets : Nat -> Nat -> List Char -> Option (List Char)
  | _, 0, text => some text
  | index, count + 1, text => do
      let text <- readSeparator '.' index text
      let text <- readNumber 10 3 255 false text
      readOctets (index + 1) count text

def readIpv4 (text : List Char) : Option (List Char) :=
  readOctets 0 4 text

/-- Read up to `count` groups of an IPv6 address; the answer is how many were
read, whether an embedded IPv4 address ended them, and the rest. -/
def readGroups : Nat -> Nat -> List Char -> Nat × Bool × List Char
  | index, 0, text => (index, false, text)
  | index, count + 1, text =>
      let embedded :=
        if count = 0 then none else readSeparator ':' index text >>= readIpv4
      match embedded with
      | some rest => (index + 2, true, rest)
      | none =>
          match readSeparator ':' index text >>= readNumber 16 4 0xffff true with
          | none => (index, false, text)
          | some rest => readGroups (index + 1) count rest

def readIpv6 (text : List Char) : Option (List Char) :=
  match readGroups 0 8 text with
  | (size, embedded, rest) =>
      if size = 8 then some rest
      else if embedded then none
      else do
        let rest <- readChar ':' rest
        let rest <- readChar ':' rest
        some (readGroups 0 (8 - (size + 1)) rest).2.2

/-- `str::parse::<IpAddr>` succeeds: an address is all of the text. -/
def parses (text : String) : Bool :=
  match readIpv4 text.toList with
  | some rest => rest.isEmpty
  | none =>
      match readIpv6 text.toList with
      | some rest => rest.isEmpty
      | none => false

example : parses "192.168.1.10" = true := by decide
example : parses "::1" = true := by decide
example : parses "push.example.com" = false := by decide

end IpAddr

/-!
## The guard
-/

def isValidPushEndpoint (parseUrl : String -> Option Url) (endpoint : String) : Bool :=
  match parseUrl endpoint with
  | none => false
  | some url =>
      if url.scheme ≠ "https" then false
      else
        match url.host with
        | none => false
        | some host =>
            let bare := String.ofList
              ((host.toList.dropWhile (· = '[')).reverse.dropWhile (· = ']')).reverse
            if IpAddr.parses bare then false
            else
              let lower := (host.toList.map Char.toLower)
              !(lower = "localhost".toList || ".localhost".toList.isSuffixOf lower ||
                ".local".toList.isSuffixOf lower)

end CommandRelay
