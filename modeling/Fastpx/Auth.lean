import Fastpx.StreamKit.Text

/-!
# Authentication providers

The interface of `auth.rs`: the schemes, the errors, and a factory whose
contexts turn challenges into tokens.  The base64 codec is third-party code, so
it is a parameter like the head parser.
-/

namespace Fastpx

open StreamKit

/-- The authentication schemes the proxy can speak. -/
inductive AuthScheme where
  | negotiate
  | ntlm
  deriving DecidableEq, Repr

/-- The name of a scheme in header fields. -/
def AuthScheme.headerName : AuthScheme → Text
  | .negotiate => "Negotiate".toList
  | .ntlm => "NTLM".toList

/-- The errors of an authentication provider. -/
inductive AuthError where
  | unsupportedPlatform
  | native (message : Text)
  | contextComplete
  | tokenTooLarge
  deriving DecidableEq, Repr

/-- `AuthFactory` together with the `AuthContext` it creates.  The contexts are
the values of `κ`; a step returns the token or an error and the context
afterwards, so a context may remember everything it was given. -/
structure AuthFactory (κ : Type) where
  create : AuthScheme → Text → Except AuthError κ
  step : κ → Option Bytes → Except AuthError Bytes × κ

/-- The standard base64 engine. -/
structure Base64 where
  encode : Bytes → Text
  decode : Text → Option Bytes

/-- The characters of standard base64 with padding. -/
def isBase64Char (c : Char) : Bool :=
  c.isAlphanum || c == '+' || c == '/' || c == '='

/-- The encoder stays inside its alphabet. -/
def Base64.Standard (base64 : Base64) : Prop :=
  ∀ token, ∀ c ∈ base64.encode token, isBase64Char c = true

/-- A codec known on finitely many tokens; it refuses every other text. -/
def Base64.ofTable (entries : List (Bytes × Text)) : Base64 where
  encode token := (entries.lookup token).getD []
  decode text := (entries.find? fun entry => entry.2 = text).map Prod.fst

theorem Base64.standard_ofTable {entries : List (Bytes × Text)}
    (h : ∀ entry ∈ entries, ∀ c ∈ entry.2, isBase64Char c = true) :
    (Base64.ofTable entries).Standard := by
  intro token c hc
  cases hlookup : entries.lookup token with
  | none => simp [ofTable, hlookup] at hc
  | some text =>
      obtain ⟨front, back, rfl, -⟩ := List.lookup_eq_some_iff.mp hlookup
      refine h (token, text) (by simp) c ?_
      simpa [ofTable, hlookup] using hc

/-- The value of a `Proxy-Authorization` header. -/
def authorization (base64 : Base64) (scheme : AuthScheme) (token : Bytes) : Text :=
  scheme.headerName ++ ' ' :: base64.encode token

end Fastpx
