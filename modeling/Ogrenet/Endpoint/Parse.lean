import Mathlib.Data.List.DropRight
import Ogrenet.Errors

/-!
# Endpoints

`endpoint.go`: `ParseEndpoint` and the text form `Endpoint.URL`. Texts are lists of characters.
Package `net/url` is a parameter for what reads a text into the components of a URL and writes them
back; what it and package `net` do with the host component is defined here.
-/

namespace Ogrenet

abbrev Text := List Char

/-- The fields of `url.URL` that the code reads or sets. -/
structure URL where
  scheme : Text
  host : Text
  path : Text
  rawQuery : Text
  user : Option Text := none
  fragment : Text := []
  deriving DecidableEq, Repr

/-- `url.Parse` and `URL.String`. -/
structure NetURL where
  parse : Text → Except String URL
  string : URL → Text

/-! ### Host and port -/

/-- Cuts the brackets off a host that has both. -/
def trimBrackets (host : Text) : Text :=
  if host.head? = some '[' ∧ host.getLast? = some ']' then host.tail.dropLast else host

/-- `splitHostPort` of package `net/url`: what follows the last colon is the port if it has digits
only. -/
def splitHostPort (hostPort : Text) : Text × Text :=
  let port := hostPort.rtakeWhile (· != ':')
  if ':' ∈ hostPort ∧ port.all Char.isDigit then
    (trimBrackets (hostPort.rdropWhile (· != ':')).dropLast, port)
  else (trimBrackets hostPort, [])

def URL.hostname (u : URL) : Text := (splitHostPort u.host).1

def URL.port (u : URL) : Text := (splitHostPort u.host).2

/-- `net.JoinHostPort`. -/
def joinHostPort (host port : Text) : Text :=
  if ':' ∈ host then '[' :: host ++ ']' :: ':' :: port else host ++ ':' :: port

/-- `strconv.Itoa` of a port. -/
def itoa (n : ℕ) : Text := Nat.toDigits 10 n

/-- `strconv.ParseUint(raw, 10, 16)`. -/
def parseUint16 (raw : Text) : Option UInt16 :=
  if raw ≠ [] ∧ raw.all Char.isDigit ∧ Nat.ofDigitChars 10 raw 0 < 65536 then
    some (UInt16.ofNat (Nat.ofDigitChars 10 raw 0))
  else none

/-! ### `endpoint.go` -/

def errInvalidEndpoint : Err := .plain "ogrenet: invalid endpoint"

def errUnsupportedScheme : Err := .plain "ogrenet: unsupported endpoint scheme"

def errMissingPort : Err := .plain "ogrenet: endpoint requires a port"

def errUnexpectedPath : Err := .plain "ogrenet: endpoint scheme does not support a path"

def errUnexpectedQuery : Err := .plain "ogrenet: endpoint scheme does not support a query"

def Scheme.string (s : Scheme) : Text := s.name.toList

structure Endpoint where
  scheme : Scheme
  host : Text
  port : UInt16
  path : Text
  rawQuery : Text
  deriving DecidableEq, Repr

def parseScheme (raw : Text) : Except Err Scheme :=
  let lower := raw.map Char.toLower
  if lower = "tcp".toList then .ok .tcp
  else if lower = "udp".toList then .ok .udp
  else if lower = "tls".toList then .ok .tls
  else if lower = "ws".toList then .ok .ws
  else if lower = "wss".toList then .ok .wss
  else .error (.wrap (String.ofList raw) errUnsupportedScheme)

def endpointPort (scheme : Scheme) (raw : Text) : Except Err UInt16 :=
  if raw = [] then
    match scheme with
    | .tls | .wss => .ok 443
    | .ws => .ok 80
    | _ => .error errMissingPort
  else
    match parseUint16 raw with
    | some v => .ok v
    | none => .error (.wrap (String.ofList raw) errInvalidEndpoint)

def Scheme.isWS : Scheme → Bool
  | .ws | .wss => true
  | _ => false

/-- The error with which `Validate` returns. -/
def Endpoint.validate (e : Endpoint) : Option Err :=
  match e.scheme with
  | .tcp | .udp | .tls =>
    if e.path ≠ [] ∧ e.path ≠ ['/'] then some errUnexpectedPath
    else if e.rawQuery ≠ [] then some errUnexpectedQuery
    else none
  | .ws | .wss => if e.path = [] then some errInvalidEndpoint else none

def parseEndpoint (net : NetURL) (raw : Text) : Except Err Endpoint :=
  match net.parse raw with
  | .error err => .error (.wrap err errInvalidEndpoint)
  | .ok u =>
    if u.scheme = [] ∨ u.host = [] ∨ u.user.isSome ∨ u.fragment ≠ [] then .error errInvalidEndpoint
    else do
      let scheme ← parseScheme u.scheme
      let port ← endpointPort scheme u.port
      let path := if scheme.isWS && u.path == [] then ['/'] else u.path
      let e : Endpoint := { scheme, host := u.hostname, port, path, rawQuery := u.rawQuery }
      match e.validate with
      | some err => .error err
      | none => .ok e

def defaultPort : Scheme → UInt16
  | .ws => 80
  | .tls | .wss => 443
  | _ => 0

namespace Endpoint

variable (e : Endpoint)

def address : Text := joinHostPort e.host (itoa e.port.toNat)

/-- The host component of the text form. -/
def urlHost : Text :=
  if defaultPort e.scheme = e.port ∧ e.host ≠ [] then
    if ':' ∈ e.host then '[' :: e.host ++ [']'] else e.host
  else e.address

/-- The components that `URL` hands to package `net/url`. -/
def toURL : URL where
  scheme := e.scheme.string
  host := e.urlHost
  path := if e.scheme.isWS && e.path == [] then ['/'] else e.path
  rawQuery := e.rawQuery

def url (net : NetURL) : Text := net.string e.toURL

end Endpoint

end Ogrenet
