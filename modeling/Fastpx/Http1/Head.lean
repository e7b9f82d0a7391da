import Fastpx.StreamKit.Text

/-!
# HTTP/1 heads

The head types of `http1.rs`, the header queries made on a response, and the
interface of the third-party head parser.

`httparse` is not part of the repository, so it is a parameter: a pair of
functions from a number of header slots and a byte string to a verdict.  What
the code relies on is stated where it is used.  The code asks for 64 slots and
throws the returned `Status` away; both facts are visible in
`parseResponseHead`.
-/

namespace Fastpx
namespace Http1

open StreamKit

/-- The kinds of `io::Error` which the program can meet or create. -/
inductive IoErrorKind where
  | connectionRefused
  | connectionReset
  | connectionAborted
  | notConnected
  | brokenPipe
  | timedOut
  | invalidInput
  | other
  deriving DecidableEq, Repr

/-- An I/O error: its kind and its message. -/
structure IoError where
  kind : IoErrorKind
  message : Text
  deriving DecidableEq, Repr

/-- The errors of the head parser. -/
inductive HttparseError where
  | headerName
  | headerValue
  | newLine
  | status
  | token
  | tooManyHeaders
  | version
  deriving DecidableEq, Repr

/-- The error type of `http1.rs`. -/
inductive HttpError where
  | io (error : IoError)
  | unexpectedEof
  | headerTooLarge
  | parse (error : HttparseError)
  | missingRequestFields
  | invalidHeaderText
  | invalidContentLength
  | conflictingContentLength
  | invalidChunkedBody
  deriving DecidableEq, Repr

/-- One header line: a name and the raw bytes of its value. -/
structure Header where
  name : Text
  value : Bytes
  deriving DecidableEq, Repr

/-- The parts of a request head which the proxy keeps. -/
structure RequestHead where
  method : Text
  target : Text
  deriving DecidableEq, Repr

/-- A response head; `version` is the minor version of HTTP/1. -/
structure ResponseHead where
  version : UInt8
  status : UInt16
  headers : List Header
  deriving DecidableEq, Repr

/-- The largest `usize` of the 64-bit targets. -/
def usizeMax : Nat := 2 ^ 64 - 1

/-! ## Header queries -/

def connectionField : Text := "connection".toList
def contentLengthField : Text := "content-length".toList
def transferEncodingField : Text := "transfer-encoding".toList
def proxyAuthenticateField : Text := "proxy-authenticate".toList

def closeToken : Text := "close".toList
def keepAliveToken : Text := "keep-alive".toList
def chunkedToken : Text := "chunked".toList

namespace ResponseHead

/-- The values of all headers with the given name, in order. -/
def headerValues (response : ResponseHead) (name : Text) : List Bytes :=
  (response.headers.filter fun header => eqIgnoreAsciiCase header.name name).map
    Header.value

/-- Does a header value, read as a comma-separated list, contain `expected`?
Values which are not UTF-8 contain nothing. -/
def valueHasToken (expected : Text) (value : Bytes) : Bool :=
  match fromUtf8 value with
  | none => false
  | some text => (text.splitOn ',').any fun part => eqIgnoreAsciiCase (trim part) expected

/-- Does any header with this name contain the token `expected`? -/
def hasToken (response : ResponseHead) (name expected : Text) : Bool :=
  (response.headerValues name).any (valueHasToken expected)

/-- Does the response announce that its connection is closed afterwards? -/
def connectionClose (response : ResponseHead) : Bool :=
  response.hasToken connectionField closeToken ||
    (response.version == 0 && !response.hasToken connectionField keepAliveToken)

/-- The loop of `content_length` over the header values. -/
def contentLengthFrom : Option Nat → List Bytes → Except HttpError (Option Nat)
  | parsed, [] => .ok parsed
  | parsed, value :: rest =>
      match fromUtf8 value with
      | none => .error .invalidContentLength
      | some text =>
          match fromStrRadix usizeMax 10 (trim text) with
          | .error _ => .error .invalidContentLength
          | .ok length =>
              if parsed.any (· ≠ length) then .error .conflictingContentLength
              else contentLengthFrom (some length) rest

/-- The announced body length, if any. -/
def contentLength (response : ResponseHead) : Except HttpError (Option Nat) :=
  contentLengthFrom none (response.headerValues contentLengthField)

/-- Is any transfer coding `chunked`? -/
def isChunked (response : ResponseHead) : Bool :=
  response.hasToken transferEncodingField chunkedToken

end ResponseHead

/-! ## The head parser -/

/-- What the head parser reports besides the fields: where the head ended, or
that it needs more bytes (`Status::Partial`). -/
inductive Status where
  | complete (length : Nat)
  | incomplete
  deriving DecidableEq, Repr

/-- The fields of `httparse::Request` which the code reads. -/
structure RequestFields where
  method : Option Text
  path : Option Text
  deriving DecidableEq, Repr

/-- The fields of `httparse::Response` which the code reads. -/
structure ResponseFields where
  version : Option UInt8
  code : Option UInt16
  headers : List Header
  deriving DecidableEq, Repr

/-- The third-party head parser: number of header slots and bytes in, status
and fields out. -/
structure Httparse where
  request : Nat → Bytes → Except HttparseError (Status × RequestFields)
  response : Nat → Bytes → Except HttparseError (Status × ResponseFields)

/-- A parser known on finitely many heads: each entry gives the bytes, the
reported status and the fields.  It refuses every other input, and a response
with more headers than slots. -/
def Httparse.ofTables (requests : List (Bytes × Status × RequestFields))
    (responses : List (Bytes × Status × ResponseFields)) : Httparse where
  request _ bytes :=
    match requests.lookup bytes with
    | some entry => .ok entry
    | none => .error .token
  response slots bytes :=
    match responses.lookup bytes with
    | some entry => if entry.2.headers.length ≤ slots then .ok entry else .error .tooManyHeaders
    | none => .error .token

theorem Httparse.response_ofTables {requests : List (Bytes × Status × RequestFields)}
    {responses : List (Bytes × Status × ResponseFields)} {bytes : Bytes}
    {entry : Status × ResponseFields} {slots : Nat} (h : responses.lookup bytes = some entry)
    (hslots : entry.2.headers.length ≤ slots) :
    (Httparse.ofTables requests responses).response slots bytes = .ok entry := by
  simp [ofTables, h, hslots]

/-- The number of header slots handed to the parser. -/
def headerSlots : Nat := 64

/-- Parse a response head.  The status reported by the parser is not used. -/
def parseResponseHead (httparse : Httparse) (bytes : Bytes) : Except HttpError ResponseHead :=
  match httparse.response headerSlots bytes with
  | .error e => .error (.parse e)
  | .ok (_, response) =>
      match response.version with
      | none => .error .missingRequestFields
      | some version =>
          match response.code with
          | none => .error .missingRequestFields
          | some status => .ok ⟨version, status, response.headers⟩

/-- Parse a request head.  The status reported by the parser is not used. -/
def parseRequestHead (httparse : Httparse) (bytes : Bytes) : Except HttpError RequestHead :=
  match httparse.request headerSlots bytes with
  | .error e => .error (.parse e)
  | .ok (_, request) =>
      match request.method with
      | none => .error .missingRequestFields
      | some method =>
          match request.path with
          | none => .error .missingRequestFields
          | some target => .ok ⟨method, target⟩

/-- A parsed request head comes from fields set by the parser. -/
theorem parseRequestHead_ok {httparse : Httparse} {bytes : Bytes} {head : RequestHead}
    (h : parseRequestHead httparse bytes = .ok head) :
    ∃ status fields, httparse.request headerSlots bytes = .ok (status, fields) ∧
      fields.method = some head.method ∧ fields.path = some head.target := by
  unfold parseRequestHead at h
  split at h
  · cases h
  · next status fields hfields =>
      split at h
      · cases h
      · next method hmethod =>
          split at h
          · cases h
          · next target htarget =>
              obtain rfl := Except.ok.inj h
              exact ⟨status, fields, hfields, hmethod, htarget⟩

/-- A parsed response head comes from fields set by the parser. -/
theorem parseResponseHead_ok {httparse : Httparse} {bytes : Bytes} {head : ResponseHead}
    (h : parseResponseHead httparse bytes = .ok head) :
    ∃ status fields, httparse.response headerSlots bytes = .ok (status, fields) ∧
      fields.version = some head.version := by
  unfold parseResponseHead at h
  split at h
  · cases h
  · next status fields hfields =>
      split at h
      · cases h
      · next version hversion =>
          split at h
          · cases h
          · next code hcode =>
              obtain rfl := Except.ok.inj h
              exact ⟨status, fields, hfields, hversion⟩

end Http1
end Fastpx
