import Fastpx.Config.Proxy
import Fastpx.Http1.Head

/-!
# Reading an upstream response

The verdict on a `CONNECT` response and the search for an authentication
challenge in it.
-/

namespace Fastpx
namespace Server

open StreamKit Config Http1

/-- The error type of `server.rs`. -/
inductive ProxyError where
  | io (error : IoError)
  | http (error : HttpError)
  | authentication (error : AuthError)
  | connectTimeout
  | directConnectTimeout (destination : Endpoint)
  | invalidDestination (message : Text)
  | upstreamStatus (status : UInt16)
  | authenticationRequired
  | authenticationSchemeMissing
  | invalidAuthenticationToken
  | connectionClosedDuringAuth
  | tooManyAuthenticationRounds
  deriving DecidableEq, Repr

/-- Is the response a success? -/
def isConnectSuccess (response : ResponseHead) : Bool :=
  200 ≤ response.status && response.status < 300

/-- A challenge: the word after the scheme name, if any. -/
structure Challenge where
  token : Option Text
  deriving DecidableEq, Repr

/-- One item of a `Proxy-Authenticate` list. -/
def challengeOfItem (scheme : AuthScheme) (item : Text) : Option Challenge :=
  match splitWhitespace item with
  | [] => none
  | name :: fields =>
      if eqIgnoreAsciiCase name scheme.headerName then some ⟨fields.head?⟩ else none

/-- One `Proxy-Authenticate` value; one which is not UTF-8 is passed over. -/
def challengeOfValue (scheme : AuthScheme) (value : Bytes) : Option Challenge :=
  match fromUtf8 value with
  | none => none
  | some text => (text.splitOn ',').findSome? (challengeOfItem scheme)

/-- The first challenge for a scheme. -/
def findChallenge (response : ResponseHead) (scheme : AuthScheme) : Option Challenge :=
  (response.headerValues proxyAuthenticateField).findSome? (challengeOfValue scheme)

/-- The schemes which a mode permits, in order of preference. -/
def permittedSchemes : AuthMode → List AuthScheme
  | .auto => [.negotiate, .ntlm]
  | .negotiate => [.negotiate]
  | .ntlm => [.ntlm]
  | .none => []

/-- The loop of `choose_scheme`. -/
def firstOffered (response : ResponseHead) : List AuthScheme →
    Except ProxyError (AuthScheme × Challenge)
  | [] => .error .authenticationSchemeMissing
  | scheme :: rest =>
      match findChallenge response scheme with
      | some challenge => .ok (scheme, challenge)
      | none => firstOffered response rest

/-- The scheme to use against a response. -/
def chooseScheme (response : ResponseHead) (mode : AuthMode) :
    Except ProxyError (AuthScheme × Challenge) :=
  if mode = .none then .error .authenticationRequired
  else firstOffered response (permittedSchemes mode)

/-- The bytes of a challenge token. -/
def decodeChallenge (base64 : Base64) (challenge : Challenge) :
    Except ProxyError (Option Bytes) :=
  match challenge.token with
  | none => .ok none
  | some token =>
      match base64.decode token with
      | none => .error .invalidAuthenticationToken
      | some bytes => .ok (some bytes)

/-- The chosen scheme is offered, and none of those before it is. -/
theorem firstOffered_ok {response : ResponseHead} {schemes : List AuthScheme}
    {scheme : AuthScheme} {challenge : Challenge}
    (h : firstOffered response schemes = .ok (scheme, challenge)) :
    findChallenge response scheme = some challenge ∧
      ∃ before after, schemes = before ++ scheme :: after ∧
        ∀ other ∈ before, findChallenge response other = none := by
  induction schemes with
  | nil => cases h
  | cons first rest ih =>
      rw [firstOffered] at h
      split at h
      · next offered hoffered =>
          obtain ⟨rfl, rfl⟩ := Prod.mk.inj (Except.ok.inj h)
          exact ⟨hoffered, [], rest, rfl, by simp⟩
      · next hnone =>
          obtain ⟨hfound, before, after, rfl, hbefore⟩ := ih h
          refine ⟨hfound, first :: before, after, rfl, ?_⟩
          exact List.forall_mem_cons.mpr ⟨hnone, hbefore⟩

/-- What `choose_scheme` promises: a permitted scheme which the response
offers, and NTLM in automatic mode only when Negotiate is not offered. -/
structure Chosen (response : ResponseHead) (mode : AuthMode) (scheme : AuthScheme)
    (challenge : Challenge) : Prop where
  enabled : mode ≠ .none
  permitted : scheme ∈ permittedSchemes mode
  offered : findChallenge response scheme = some challenge
  preferred : mode = .auto → scheme = .ntlm → findChallenge response .negotiate = none

theorem chooseScheme_ok {response : ResponseHead} {mode : AuthMode} {scheme : AuthScheme}
    {challenge : Challenge} (h : chooseScheme response mode = .ok (scheme, challenge)) :
    Chosen response mode scheme challenge := by
  unfold chooseScheme at h
  split at h
  · cases h
  next henabled =>
  obtain ⟨hoffered, before, after, hschemes, hbefore⟩ := firstOffered_ok h
  refine ⟨henabled, by rw [hschemes]; simp, hoffered, ?_⟩
  rintro rfl rfl
  -- NTLM is the second entry of the list, so Negotiate was tried before it
  cases before with
  | nil => cases hschemes
  | cons first before =>
      obtain ⟨rfl, -⟩ := List.cons.inj hschemes
      exact hbefore _ List.mem_cons_self

end Server
end Fastpx
