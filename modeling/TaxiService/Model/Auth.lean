import TaxiService.Lib.Assoc
import TaxiService.Lib.Run
import TaxiService.Model.Handlers

/-!
# Logging in and the middleware

The token table of `TaxiStorage` and `AuthMiddleware`. `Login` reads the user
before it takes the mutex of the table, so what it read is a parameter of the
locked section (`AuthEvent.login` carries the database the replica showed it),
and a run is a sequence of locked sections.
-/

namespace TaxiService.Model

open TaxiService.Lib

/-! ## The token table -/

/-- `next_token_id_` and `tokens_`. -/
structure Tokens where
  nextTokenId : Int
  tokens : Assoc StdString Int

def Tokens.start : Tokens := ⟨1, []⟩

/-- `++` of an `int`, which wraps. -/
def nextInt (n : Int) : Int := (n + 1).bmod 4294967296

def makeToken (userId tokenId : Int) : StdString :=
  bytes "token-" ++ toDecimal userId ++ bytes "-" ++ toDecimal tokenId

/-- `Login`. -/
def Tokens.login (s : Tokens) (login password : StdString) (db : Db) :
    Except PgError (Option StdString) × Tokens :=
  match getUserByLogin login db with
  | .error e => (.error e, s)
  | .ok none => (.ok none, s)
  | .ok (some user) =>
      if user.password != password then (.ok none, s)
      else
        let token := makeToken user.id s.nextTokenId
        (.ok (some token),
          { nextTokenId := nextInt s.nextTokenId
            tokens := s.tokens.set token user.id })

def Tokens.isTokenValid (s : Tokens) (token : StdString) : Bool :=
  (s.tokens.get? token).isSome

/-! ## The middleware -/

/-- What `AuthMiddleware` does with a request: it calls `Next`, or it fills in
a response with the status 401 itself. -/
inductive Admission where
  | next
  | unauthorized (headers : List (StdString × StdString)) (data : StdString)
  deriving DecidableEq, Repr

def isPublicRequest (path : StdString) : Bool :=
  if path == bytes "/ping" then true
  else if path == bytes "/users" then true
  else if path == bytes "/auth/login" then true
  else if path == bytes "/mongo/users" then true
  else startsWith path (bytes "/tests/")

def kBearerPrefix : StdString := bytes "Bearer "

/-- `HandleRequest`, for a request with this path and this `Authorization`
header. A request without the header has the empty one. -/
def handleRequest (s : Tokens) (path authHeader : StdString) : Admission :=
  if isPublicRequest path then .next
  else if authHeader.length ≤ kBearerPrefix.length ||
      authHeader.take kBearerPrefix.length != kBearerPrefix then
    .unauthorized [contentType]
      (bytes "\x7b\"error\":\"missing or invalid Authorization header\"\x7d")
  else
    let token := authHeader.drop kBearerPrefix.length
    if !s.isTokenValid token then
      .unauthorized [contentType] (bytes "\x7b\"error\":\"invalid token\"\x7d")
    else .next

/-! ## Runs -/

inductive AuthEvent where
  | login (db : Db) (login password : StdString)
  | request (path authHeader : StdString)

def authStep (s : Tokens) : AuthEvent → Tokens
  | .login db login password => (s.login login password db).2
  | .request _ _ => s

end TaxiService.Model
