import Ssgx.Support.Text

/-!
# The URL parser

`HttpUrl` of `HttpUrl.cpp`: the state machine `parse_`, one character at a time. It decides late
whether text behind the scheme is a user name, a host name or a port, and at the end of the text it
takes what it has not decided for the host name.

The parser may not return: the state of an IPv6 host aborts, and a port that the text ends in fails
an assertion where assertions are compiled in (`parseUrl false`).
-/

set_option autoImplicit false

namespace Ssgx.Http

open Ssgx.Support

/-- `HttpUrl::Url`. -/
structure Url where
  scheme : Str
  username : Str
  password : Str
  hostname : Str
  port : Str
  path : Str
  query : Str
  fragment : Str
  integerPort : Nat
deriving DecidableEq

/-- `Url()`. -/
def Url.empty : Url := ⟨[], [], [], [], [], [], [], [], 0⟩

/-- The states of `parse_`. -/
inductive UrlState where
  | scheme
  | slashAfterScheme1
  | slashAfterScheme2
  | usernameOrHostname
  | password
  | hostname
  | ipv6Hostname
  | portOrPassword
  | port
  | path
  | query
  | fragment
deriving DecidableEq

/-- The variables of `parse_`, with whether it has aborted. -/
structure UrlParser where
  state : UrlState
  valid : Bool
  aborted : Bool
  url : Url
  usernameOrHostname : Str
  portOrPassword : Str
deriving DecidableEq

/-- `isalnum` of the C locale. -/
def isAlnum (ch : Char) : Bool := ch.isAlphanum

/-- `isUnreserved`. -/
def isUnreserved (ch : Char) : Bool :=
  isAlnum ch || ch = '-' || ch = '.' || ch = '_' || ch = '~'

/-- `atoi` of the digits of a port, stored in a `uint16_t`: `strtol` stops at `LONG_MAX`. -/
def atoiPort (digits : Str) : Nat := min (ofDecimal digits) (2 ^ 63 - 1) % 2 ^ 16

/-- `valid = false; url = Url();` -/
def UrlParser.reject (s : UrlParser) : UrlParser := { s with valid := false, url := .empty }

/-- The end of a port. -/
def UrlParser.takePort (s : UrlParser) : UrlParser :=
  { s with
    url := { s.url with port := s.portOrPassword, integerPort := atoiPort s.portOrPassword },
    portOrPassword := s.url.port, state := .path }

/-- One round of the loop of `parse_`. -/
def UrlParser.step (s : UrlParser) (ch : Char) : UrlParser :=
  match s.state with
  | .scheme =>
      if isAlnum ch || ch = '+' || ch = '-' || ch = '.' then
        { s with url := { s.url with scheme := s.url.scheme ++ [ch] } }
      else if ch = ':' then { s with state := .slashAfterScheme1 }
      else s.reject
  | .slashAfterScheme1 =>
      if ch = '/' then { s with state := .slashAfterScheme2 }
      else if isAlnum ch then { s with usernameOrHostname := [ch], state := .usernameOrHostname }
      else s.reject
  | .slashAfterScheme2 =>
      if ch = '/' then { s with state := .usernameOrHostname } else s.reject
  | .usernameOrHostname =>
      if isUnreserved ch || ch = '%' then
        { s with usernameOrHostname := s.usernameOrHostname ++ [ch] }
      else if ch = ':' then { s with state := .portOrPassword }
      else if ch = '@' then
        { s with
          state := .hostname, url := { s.url with username := s.usernameOrHostname },
          usernameOrHostname := s.url.username }
      else if ch = '/' then
        { s with
          state := .path, url := { s.url with hostname := s.usernameOrHostname },
          usernameOrHostname := s.url.hostname }
      else s.reject
  | .password =>
      if isAlnum ch || ch = '%' then
        { s with url := { s.url with password := s.url.password ++ [ch] } }
      else if ch = '@' then { s with state := .hostname }
      else s.reject
  | .hostname =>
      if ch = '[' && s.url.hostname.isEmpty then { s with state := .ipv6Hostname }
      else if isUnreserved ch || ch = '%' then
        { s with url := { s.url with hostname := s.url.hostname ++ [ch] } }
      else if ch = ':' then { s with state := .port }
      else if ch = '/' then { s with state := .path }
      else s.reject
  -- an IPv6 host is not read: its case is a call of `abort`
  | .ipv6Hostname => { s with aborted := true }
  | .portOrPassword =>
      if ch.isDigit then { s with portOrPassword := s.portOrPassword ++ [ch] }
      else if ch = '/' then
        { s with
          url := { s.url with hostname := s.usernameOrHostname },
          usernameOrHostname := s.url.hostname }.takePort
      else if isAlnum ch || ch = '%' then
        -- the digits read so far were the front of a password
        { s with
          url := { s.url with username := s.usernameOrHostname,
                              password := s.portOrPassword ++ [ch] },
          usernameOrHostname := s.url.username, portOrPassword := s.url.password,
          state := .password }
      else s.reject
  | .port =>
      if ch.isDigit then { s with portOrPassword := s.portOrPassword ++ [ch] }
      else if ch = '/' then s.takePort
      else s.reject
  | .path =>
      if ch = '#' then { s with state := .fragment }
      else if ch = '?' then { s with state := .query }
      else { s with url := { s.url with path := s.url.path ++ [ch] } }
  | .query =>
      if ch = '#' then { s with state := .fragment }
      else if ch = '?' then { s with state := .query }
      else { s with url := { s.url with query := s.url.query ++ [ch] } }
  | .fragment => { s with url := { s.url with fragment := s.url.fragment ++ [ch] } }

/-- The loop of `parse_`, which ends at a character that is not allowed. -/
def UrlParser.run : UrlParser → Str → UrlParser
  | s, [] => s
  | s, ch :: rest => if s.valid && !s.aborted then (s.step ch).run rest else s

/-- The variables before the loop. -/
def UrlParser.start : UrlParser where
  state := .scheme
  valid := true
  aborted := false
  url := { Url.empty with path := ['/'] }
  usernameOrHostname := []
  portOrPassword := []

/-- `HttpUrl`. -/
structure HttpUrl where
  valid : Bool
  url : Url
deriving DecidableEq

/-- `HttpUrl::parse`: `none` where the parser aborts. Assertions are left out of a build with
`NDEBUG`. -/
def parseUrl (ndebug : Bool) (text : Str) : Option HttpUrl :=
  let s := UrlParser.start.run text
  if s.aborted then none
  -- the assertion behind the loop: a port that the text ends in is never taken
  else if !ndebug && !s.portOrPassword.isEmpty then none
  else
    some ⟨s.valid,
      if s.usernameOrHostname.isEmpty then s.url
      else { s.url with hostname := s.usernameOrHostname }⟩

/-- `httpPort`. -/
def HttpUrl.httpPort (u : HttpUrl) : Nat :=
  if u.url.port.isEmpty then
    if u.url.scheme = str "https" then 443 else 80
  else u.url.integerPort

/-- `port`. -/
def HttpUrl.port (u : HttpUrl) : Str := decimal u.httpPort

end Ssgx.Http
