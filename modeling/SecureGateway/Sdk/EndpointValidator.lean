import Mathlib.Data.List.DropRight
import Mathlib.Algebra.Order.Ring.Int

/-!
# The endpoint validators (`EndpointValidator.java`, `EndpointValidator.swift`)

Endpoints must be `wss`/`https`, unless their host is loopback or private. Java splits its
UTF-16 text, forgets empty pieces at the end, and reads digits of every script; Swift splits a
sequence of characters, keeps empty pieces, and reads ASCII digits. Tables of the platform are
parameters that carry what is assumed of them.
-/

namespace SecureGateway.Sdk.Endpoint

/- The UTF-16 units of a Java string, or the Unicode scalars of a Swift one. -/
abbrev Text := List ℕ

def codes (s : String) : Text := s.toList.map Char.toNat

def dot : ℕ := 0x2E
def plus : ℕ := 0x2B
def minus : ℕ := 0x2D
def zero : ℕ := 0x30
def openBracket : ℕ := 0x5B
def closeBracket : ℕ := 0x5D

def asciiDigit (c : ℕ) : Option ℕ := if zero≤c ∧ c ≤ zero + 9 then some (c - zero) else none

def asciiLower (c : ℕ) : ℕ := if 0x41 ≤ c ∧ c ≤ 0x5A then c + 0x20 else c

def number (digit : ℕ → Option ℕ) (t : Text) : Option ℕ :=
  t.foldlM (fun v c => (digit c).map (10 * v + ·)) 0

def signed (digit : ℕ → Option ℕ) (sign : ℤ) (ds : Text) : Option ℤ :=
  if ds=[] then none else (number digit ds).map fun n : ℕ => sign * n

def parseInteger (digit : ℕ → Option ℕ) (lo hi : ℤ) (t : Text) : Option ℤ :=
  let v :=
    match t with
    | [] => none
    | c :: rest =>
      if c=minus then signed digit (-1) rest
      else if c=plus then signed digit 1 rest
      else signed digit 1 (c::rest)
  v.filter fun v => lo ≤ v ∧ v≤hi

def checkOctet (v : ℤ) : Option ℕ := if v<0 ∨ v > 255 then none else some v.toNat

def octet (parse : Text → Option ℤ) (t : Text) : Option ℕ := (parse t).bind checkOctet

def inPrivateRange (a b : ℕ) : Bool :=
  if a=127 then true
  else if a=10 then true
  else if a=172 ∧ b ≥ 16 ∧ b≤31 then true
  else a = 192 ∧ b=168

def ofOctets : Option (List ℕ) → Bool
  | some [a,b,_,_] => inPrivateRange a b
  | _ => false

/-- `java.lang.Character`, with `digit` to base ten. The Unicode data has these characters
that fold to a letter of `localhost`: its two ASCII cases, and U+017F for `s`. -/
structure CharacterTable where
  digit : ℕ → Option ℕ
  toUpperCase : ℕ → ℕ
  toLowerCase : ℕ → ℕ
  isWhitespace : ℕ → Bool
  digit_ascii : ∀ c < 128, digit c = asciiDigit c
  fold_letter : ∀ c, ∀ x ∈ codes "localhost", toLowerCase (toUpperCase c) = x ↔
    c = x ∨ c + 0x20 = x ∨ x = 0x73 ∧ c = 0x17F

namespace CharacterTable

def fold (T : CharacterTable) (c : ℕ) : ℕ := T.toLowerCase (T.toUpperCase c)

end CharacterTable

namespace Java
variable (T : CharacterTable)

/- `split("\\.")`: empty pieces at the end are removed. -/
def split (h : Text) : List Text :=
  if dot ∈ h then (h.splitOn dot).rdropWhile List.isEmpty else [h]

def equalsIgnoreCase (a b : Text) : Bool := a.map T.fold == b.map T.fold

def parseInt : Text → Option ℤ := parseInteger T.digit (-2 ^ 31) (2 ^ 31 - 1)

def unbracket (h : Text) : Text :=
  if h.head? = some openBracket ∧ h.getLast? = some closeBracket then h.tail.dropLast else h

def isPrivateOrLoopback : Option Text → Bool
  | none => false
  | some host =>
    if host.isEmpty then false
    else
      let h := unbracket host
      if equalsIgnoreCase T h (codes "localhost") || h == codes "::1" then true
      else if (split h).length ≠ 4 then false
      else ofOctets ((split h).mapM (octet (parseInt T)))

structure Uri where
  scheme : Option Text
  host : Option Text

/-- `require`; `uri` is the constructor of `java.net.URI`, with `none` for its exception.
An error is the message of the `IllegalArgumentException`. -/
def require (uri : Text → Option Uri) (url : Option Text) (plain secure what : Text) :
    Except Text Text :=
  match url with
  | none => .error (codes "missing " ++ what ++ codes " endpoint")
  | some url =>
    if url.all T.isWhitespace then .error (codes "missing " ++ what ++ codes " endpoint")
    else
      match uri url with
      | some ⟨some scheme,some host⟩ =>
        let scheme := scheme.map T.toLowerCase
        if scheme=secure then .ok url
        else if scheme=plain ∧ isPrivateOrLoopback T (some host) then .ok url
        else .error (codes "insecure " ++ what ++ codes " endpoint: " ++ url ++
          codes " (require " ++ secure ++ codes ":// for non-private hosts)")
      | _ => .error (codes "invalid " ++ what ++ codes " endpoint URL: " ++ url)

def requireSecureRelay (uri : Text → Option Uri) (url : Option Text) : Except Text Text :=
  require T uri url (codes "ws") (codes "wss") (codes "relay")

def requireSecureAuth (uri : Text → Option Uri) (url : Option Text) : Except Text Text :=
  require T uri url (codes "http") (codes "https") (codes "auth")

end Java

namespace Swift

/-- An extended grapheme cluster. Two ASCII characters are only one cluster if they are a
line break. -/
structure Character where
  scalars : Text
  nonempty : scalars≠[]
  apart : ∀ pre a b post, scalars = pre ++ a :: b::post → a<128 → b<128 → a=13 ∧ b=10
  deriving DecidableEq

def Character.single (c : ℕ) : Character where
  scalars := [c]
  nonempty := List.cons_ne_nil c []
  apart := by
    intro pre a b post h
    have hlength := congrArg List.length h
    simp only [List.length_append,List.length_cons,List.length_nil] at hlength
    omega

/- No other character is canonically equivalent to one of those that the source names, so
characters are compared by their scalars. -/
abbrev SString := List Character

def scalars (s : SString) : Text := s.flatMap Character.scalars

/-- `orderedSame` is `caseInsensitiveCompare(_:) == .orderedSame`. How it folds the rest of
Unicode is left open. -/
structure Foundation where
  orderedSame : Text → Text → Bool
  lowercased : Text → Text
  orderedSame_ascii : ∀ a b, (∀ c ∈ a, c<128) → (∀ c ∈ b, c<128) →
    (orderedSame a b = true ↔ a.map asciiLower = b.map asciiLower)

variable (F : Foundation)

def parseInt : Text → Option ℤ := parseInteger asciiDigit (-2 ^ 63) (2 ^ 63 - 1)

def unbracket (h : SString) : SString :=
  if h.head? = some (.single openBracket) ∧ h.getLast? = some (.single closeBracket) then
    h.tail.dropLast
  else h

def isPrivateOrLoopback (host : SString) : Bool :=
  let h := unbracket host
  if F.orderedSame (scalars h) (codes "localhost") || scalars h == codes "::1" then true
  else
    let parts := h.splitOn (.single dot)
    if parts.length≠4 then false
    else ofOctets (parts.mapM fun p => octet parseInt (scalars p))

inductive EndpointError
  | missing (what : SString)
  | invalidURL (url : SString)
  | insecure (url : SString)

structure Url where
  scheme : Option SString
  host : Option SString

/-- `require`; `parse` is `URL(string:)`. -/
def require (parse : SString → Option Url) (url : SString) (plain secure : Text) (what : SString) :
    Except EndpointError Url :=
  if url.isEmpty then .error (.missing what)
  else
    match parse url with
    | none => .error (.invalidURL url)
    | some parsed =>
      match parsed.scheme, parsed.host with
      | some scheme, some host =>
        let scheme := F.lowercased (scalars scheme)
        if scheme=secure then .ok parsed
        else if scheme=plain ∧ isPrivateOrLoopback F host then .ok parsed
        else .error (.insecure url)
      | _, _ => .error (.invalidURL url)

def requireSecureRelay (parse : SString → Option Url) (url : SString) : Except EndpointError Url :=
  require F parse url (codes "ws") (codes "wss") ((codes "relay").map .single)

def requireSecureAuth (parse : SString → Option Url) (url : SString) : Except EndpointError Url :=
  require F parse url (codes "http") (codes "https") ((codes "auth").map .single)

end Swift
end SecureGateway.Sdk.Endpoint
