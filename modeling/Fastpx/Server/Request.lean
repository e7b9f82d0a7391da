import Fastpx.StreamKit.Lines
import Fastpx.Auth
import Fastpx.Config.Endpoint
import Fastpx.Http1.Stream

/-!
# The messages written by the proxy

The `CONNECT` request sent upstream and the error response sent to a client,
as texts.  The request is shown to be safe for every destination the endpoint
parser accepts: the client chooses the host, but cannot add a line, end the
head early or add a word to the request line.
-/

namespace Fastpx
namespace Server

open StreamKit Config Http1

/-! ## The request and the error response

The fixed parts of the request are constants, so that proofs never look into
the literals. -/

def lineEnd : Text := ['\r', '\n']
def connectText : Text := "CONNECT ".toList
def versionText : Text := " HTTP/1.1".toList
def hostText : Text := "Host: ".toList
def proxyConnectionLine : Text := "Proxy-Connection: Keep-Alive".toList
def connectionLine : Text := "Connection: Keep-Alive".toList
def proxyAuthorizationText : Text := "Proxy-Authorization: ".toList

/-- The text of the `CONNECT` request for a destination. -/
def connectRequest (destination : Endpoint) (authorization : Option Text) : Text :=
  connectText ++ destination.display ++ versionText ++ lineEnd ++
    (hostText ++ destination.display ++ lineEnd) ++
    (proxyConnectionLine ++ lineEnd) ++
    (connectionLine ++ lineEnd) ++
    (match authorization with
      | none => []
      | some value => proxyAuthorizationText ++ value ++ lineEnd) ++
    lineEnd

/-- The body of an error response. -/
def errorBody (status : UInt16) (reason : Text) : Text :=
  decimal status.toNat ++ ' ' :: reason ++ ['\n']

def statusText : Text := "HTTP/1.1 ".toList
def closeLine : Text := "Connection: close".toList
def contentTypeLine : Text := "Content-Type: text/plain; charset=utf-8".toList
def contentLengthText : Text := "Content-Length: ".toList

def statusLine (status : UInt16) (reason : Text) : Text :=
  statusText ++ decimal status.toNat ++ ' ' :: reason

def lengthLine (length : Nat) : Text := contentLengthText ++ decimal length

/-- The text of an error response. -/
def errorResponse (status : UInt16) (reason : Text) : Text :=
  statusLine status reason ++ lineEnd ++
    (closeLine ++ lineEnd) ++
    (contentTypeLine ++ lineEnd) ++
    (lengthLine (utf8 (errorBody status reason)).length ++ lineEnd) ++
    lineEnd ++
    errorBody status reason

/-! ## The lines of a request -/

/-- The words of the request line. -/
def requestWords (destination : Endpoint) : List Text :=
  ["CONNECT".toList, destination.display, "HTTP/1.1".toList]

/-- The request line, without its end. -/
def requestLine (destination : Endpoint) : Text :=
  connectText ++ destination.display ++ versionText

/-- The header lines of a request, without their ends. -/
def requestHeaders (destination : Endpoint) (authorization : Option Text) : List Text :=
  (hostText ++ destination.display) :: proxyConnectionLine :: connectionLine ::
    (authorization.map fun value => proxyAuthorizationText ++ value).toList

/-- A request is its lines and an empty one. -/
theorem connectRequest_eq_joinLines (destination : Endpoint) (authorization : Option Text) :
    connectRequest destination authorization =
      joinLines '\r' '\n' (requestLine destination :: requestHeaders destination authorization) ++
        lineEnd := by
  cases authorization <;>
    simp [connectRequest, requestLine, requestHeaders, lineEnd]

/-- Encoding a text line by line. -/
theorem utf8_joinLines (lines : List Text) :
    utf8 (joinLines '\r' '\n' lines) = joinLines 13 10 (lines.map utf8) := by
  induction lines with
  | nil => rfl
  | cons line lines ih =>
      have hends : utf8 ['\r', '\n'] = [13, 10] := by decide
      rw [joinLines_cons, List.map_cons, joinLines_cons, utf8_append, ← ih]
      show _ ++ utf8 (['\r', '\n'] ++ joinLines '\r' '\n' lines) = _
      rw [utf8_append, hends]
      rfl

/-! ## Characters which the client controls -/

/-- A character which cannot end a line. -/
def InLine (c : Char) : Prop := c.toNat ≠ 13 ∧ c.toNat ≠ 10

/-- A character which can neither end a line nor separate words. -/
def InWord (c : Char) : Prop := InLine c ∧ c.toNat ≠ 32

instance (c : Char) : Decidable (InLine c) := inferInstanceAs (Decidable (_ ∧ _))

instance (c : Char) : Decidable (InWord c) := inferInstanceAs (Decidable (_ ∧ _))

theorem inLine_append {t u : Text} (ht : ∀ c ∈ t, InLine c) (hu : ∀ c ∈ u, InLine c) :
    ∀ c ∈ t ++ u, InLine c :=
  fun c hc => (List.mem_append.mp hc).elim (ht c) (hu c)

/-- A line of such characters has no line end among its bytes. -/
theorem not_mem_utf8_of_inLine {line : Text} (hline : ∀ c ∈ line, InLine c) :
    13 ∉ utf8 line ∧ 10 ∉ utf8 line := by
  constructor
  · rw [mem_utf8_iff_of_lt (by decide)]
    rintro ⟨c, hc, hcode⟩
    exact (hline c hc).1 hcode
  · rw [mem_utf8_iff_of_lt (by decide)]
    rintro ⟨c, hc, hcode⟩
    exact (hline c hc).2 hcode

/-- Non-empty lines of such characters are encoded as such. -/
theorem utf8_lines {lines : List Text} (h : ∀ line ∈ lines, line ≠ [] ∧ ∀ c ∈ line, InLine c) :
    ∀ line ∈ lines.map utf8, line ≠ [] ∧ 13 ∉ line ∧ 10 ∉ line := by
  intro line hline
  obtain ⟨text, htext, rfl⟩ := List.mem_map.mp hline
  refine ⟨fun hnil => (h text htext).1 ?_, not_mem_utf8_of_inLine (h text htext).2⟩
  have hdecode := fromUtf8_utf8 text
  rw [hnil] at hdecode
  exact (Option.some.inj hdecode).symm

/-- The head of a message made of such lines ends at its end. -/
theorem findHeaderEnd_joinLines {lines : List Text} (hne : lines ≠ [])
    (h : ∀ line ∈ lines, line ≠ [] ∧ ∀ c ∈ line, InLine c) :
    findHeaderEnd (joinLines 13 10 (lines.map utf8) ++ crlf) =
      some (joinLines 13 10 (lines.map utf8) ++ crlf).length := by
  refine firstIndex_joinLines (by decide) (by simpa using hne) fun line hline => ?_
  obtain ⟨hline, hcr, -⟩ := utf8_lines h line hline
  exact ⟨hline, hcr⟩

/-- A word of such characters has no space among its bytes. -/
theorem not_mem_utf8_of_inWord {word : Text} (hword : ∀ c ∈ word, InWord c) :
    32 ∉ utf8 word := by
  rw [mem_utf8_iff_of_lt (by decide)]
  rintro ⟨c, hc, hcode⟩
  exact (hword c hc).2 hcode

/-- The byte filter of the endpoint parser keeps line ends and spaces out of
the host. -/
theorem inWord_of_mem_cleanHost {host : Text} (hclean : Endpoint.CleanHost host) {c : Char}
    (hc : c ∈ host) : InWord c := by
  have hallowed : ∀ byte : UInt8, byte.toNat < 0x80 → Endpoint.isForbidden byte = true →
      c.toNat ≠ byte.toNat := by
    intro byte hascii hbad hcode
    have hmem : byte ∈ utf8 host := (mem_utf8_iff_of_lt hascii host).mpr ⟨c, hc, hcode⟩
    rw [hclean.allowed byte hmem] at hbad
    cases hbad
  exact ⟨⟨hallowed 13 (by decide) rfl, hallowed 10 (by decide) rfl⟩,
    hallowed 32 (by decide) rfl⟩

theorem inWord_of_mem_decimal {n : Nat} {c : Char} (hc : c ∈ decimal n) : InWord c := by
  have hrange := range_of_mem_decimal hc
  unfold InWord InLine
  omega

/-- The brackets and the colon added by the display do no harm either. -/
theorem inWord_of_mem_display {destination : Endpoint}
    (hclean : Endpoint.CleanHost destination.host) {c : Char} (hc : c ∈ destination.display) :
    InWord c := by
  have hparts : c ∈ destination.host ∨ c ∈ decimal destination.port.toNat ∨
      c ∈ ['[', ']', ':'] := by
    unfold Endpoint.display at hc
    split at hc
    · simp only [List.cons_append, List.mem_cons, List.mem_append, List.not_mem_nil] at hc ⊢
      tauto
    · simp only [List.mem_cons, List.mem_append, List.not_mem_nil] at hc ⊢
      tauto
  rcases hparts with hhost | hport | hfixed
  · exact inWord_of_mem_cleanHost hclean hhost
  · exact inWord_of_mem_decimal hport
  · have hall : ∀ c ∈ ['[', ']', ':'], InWord c := by decide
    exact hall c hfixed

theorem inWord_of_isBase64Char {c : Char} (hc : isBase64Char c = true) : InWord c := by
  have hcodes : ∀ n : Nat, n = 13 ∨ n = 10 ∨ n = 32 → isBase64Char (Char.ofNat n) = false := by
    rintro n (rfl | rfl | rfl) <;> decide
  have hne : ∀ n : Nat, n = 13 ∨ n = 10 ∨ n = 32 → c.toNat ≠ n := by
    intro n hn hcode
    have hfalse := hcodes n hn
    rw [← hcode, Char.ofNat_toNat, hc] at hfalse
    cases hfalse
  exact ⟨⟨hne 13 (by simp), hne 10 (by simp)⟩, hne 32 (by simp)⟩

theorem inLine_of_mem_authorization {base64 : Base64} (hbase64 : base64.Standard)
    {scheme : AuthScheme} {token : Bytes} {c : Char}
    (hc : c ∈ authorization base64 scheme token) : InLine c := by
  rcases List.mem_append.mp hc with hname | hrest
  · have hall : ∀ c ∈ scheme.headerName, InLine c := by cases scheme <;> decide
    exact hall c hname
  · rcases List.mem_cons.mp hrest with rfl | htoken
    · decide
    · exact (inWord_of_isBase64Char (hbase64 token c htoken)).1

/-! ## No injection -/

/-- Every line of a request is non-empty and made of characters which cannot
end it. -/
theorem requestLines_inLine {destination : Endpoint} {value : Option Text}
    (hclean : Endpoint.CleanHost destination.host)
    (hvalue : ∀ text ∈ value, ∀ c ∈ text, InLine c) {line : Text}
    (hline : line ∈ requestLine destination :: requestHeaders destination value) :
    line ≠ [] ∧ ∀ c ∈ line, InLine c := by
  have hdisplay : ∀ c ∈ destination.display, InLine c := fun c hc =>
    (inWord_of_mem_display hclean hc).1
  have hne : ∀ {t u : Text}, t ≠ [] → t ++ u ≠ [] :=
    fun ht => List.append_ne_nil_of_left_ne_nil ht _
  simp only [requestHeaders, List.mem_cons, Option.mem_toList, Option.map_eq_some_iff] at hline
  rcases hline with rfl | rfl | rfl | rfl | ⟨text, htext, rfl⟩
  · exact ⟨hne (hne (by decide)),
      inLine_append (inLine_append (by decide) hdisplay) (by decide)⟩
  · exact ⟨hne (by decide), inLine_append (by decide) hdisplay⟩
  · exact ⟨by decide, by decide⟩
  · exact ⟨by decide, by decide⟩
  · exact ⟨hne (by decide), inLine_append (by decide) (hvalue text htext)⟩

/-- The bytes written for an accepted destination are exactly the intended
lines: no byte of a line ends it, the head ends at the end, and the request
line has three words. -/
theorem connectRequest_no_injection {input : Text} {destination : Endpoint} {base64 : Base64}
    (hparse : Endpoint.fromStr input = .ok destination) (hbase64 : base64.Standard)
    (credentials : Option (AuthScheme × Bytes)) :
    let value := credentials.map fun c => authorization base64 c.1 c.2
    let bytes := utf8 (connectRequest destination value)
    let lines := (requestLine destination :: requestHeaders destination value).map utf8
    bytes = joinLines 13 10 lines ++ crlf ∧
      (∀ line ∈ lines, 13 ∉ line ∧ 10 ∉ line) ∧
      findHeaderEnd bytes = some bytes.length ∧
      splitLines 13 10 bytes = lines ++ [[], []] ∧
      (utf8 (requestLine destination)).splitOn 32 = (requestWords destination).map utf8 := by
  intro value bytes lines
  obtain ⟨_, -, hclean, -, -⟩ := Endpoint.fromStr_eq_ok_iff.mp hparse
  have hvalue : ∀ text ∈ value, ∀ c ∈ text, InLine c := by
    intro text htext c hc
    obtain ⟨_, -, rfl⟩ := Option.map_eq_some_iff.mp htext
    exact inLine_of_mem_authorization hbase64 hc
  have htexts : ∀ line ∈ requestLine destination :: requestHeaders destination value,
      line ≠ [] ∧ ∀ c ∈ line, InLine c := fun line hline => requestLines_inLine hclean hvalue hline
  have hlines := utf8_lines htexts
  have hbytes : bytes = joinLines 13 10 lines ++ crlf := by
    show utf8 (connectRequest destination value) = _
    rw [connectRequest_eq_joinLines, utf8_append, utf8_joinLines]
    rfl
  refine ⟨hbytes, fun line hline => (hlines line hline).2, ?_, ?_, ?_⟩
  · rw [hbytes]
    exact findHeaderEnd_joinLines (List.cons_ne_nil _ _) htexts
  · rw [hbytes, splitLines_joinLines fun line hline => (hlines line hline).2.1]
    rfl
  · have hwords : utf8 (requestLine destination) =
        [32].intercalate ((requestWords destination).map utf8) := by
      simp only [requestLine, requestWords, utf8_append, List.map_cons, List.map_nil,
        List.intercalate_cons_cons, List.intercalate_singleton]
      rw [show utf8 connectText = utf8 "CONNECT".toList ++ [32] by decide,
        show utf8 versionText = [32] ++ utf8 "HTTP/1.1".toList by decide]
      simp only [List.append_assoc]
    rw [hwords]
    refine List.splitOn_intercalate 32 ?_ (List.cons_ne_nil _ _)
    simp only [requestWords, List.map_cons, List.map_nil, List.forall_mem_cons]
    exact ⟨by decide,
      not_mem_utf8_of_inWord fun c hc => inWord_of_mem_display hclean hc,
      by decide, by simp⟩

/-- A request for `[::1]:80` with an NTLM token. -/
theorem connectRequest_no_injection_ntlm :
    let base64 := Base64.ofTable [([78, 84], "TlQ=".toList)]
    let value := authorization base64 .ntlm [78, 84]
    let bytes := utf8 (connectRequest ⟨"::1".toList, 80⟩ (some value))
    value = "NTLM TlQ=".toList ∧ findHeaderEnd bytes = some bytes.length := by
  intro base64 value bytes
  have hparse : Endpoint.fromStr "[::1]:80".toList = .ok ⟨"::1".toList, 80⟩ := by
    decide
  have hbase64 : base64.Standard := Base64.standard_ofTable (by decide)
  obtain ⟨-, -, hend, -, -⟩ :=
    connectRequest_no_injection hparse hbase64 (some (.ntlm, [78, 84]))
  exact ⟨by decide, hend⟩

/-! ## Error responses are complete -/

/-- Does the header line announce a length? -/
def isLengthLine (line : Text) : Bool :=
  eqIgnoreAsciiCase (line.takeWhile (· ≠ ':')) contentLengthField

/-- One whole response with this status: a head of lines which ends where it
seems to end, and a body of the one length that the head announces. -/
def CompleteResponse (status : UInt16) (bytes : Bytes) : Prop :=
  ∃ reason headers body,
    bytes = joinLines 13 10 ((statusLine status reason :: headers).map utf8) ++ crlf ++ body ∧
    (∀ line ∈ statusLine status reason :: headers, ∀ c ∈ line, InLine c) ∧
    findHeaderEnd bytes = some (bytes.length - body.length) ∧
    headers.filter isLengthLine = [lengthLine body.length]

theorem errorResponse_eq_joinLines (status : UInt16) (reason : Text) :
    errorResponse status reason =
      joinLines '\r' '\n' [statusLine status reason, closeLine, contentTypeLine,
        lengthLine (utf8 (errorBody status reason)).length] ++ lineEnd ++
      errorBody status reason := by
  simp [errorResponse, lineEnd]

theorem isLengthLine_lengthLine (length : Nat) : isLengthLine (lengthLine length) = true := by
  have hname : contentLengthText = "Content-Length".toList ++ ':' :: [' '] := by decide
  have htake : (lengthLine length).takeWhile (· ≠ ':') = "Content-Length".toList := by
    rw [lengthLine, hname, List.append_assoc, List.takeWhile_append_of_pos (by decide),
      List.cons_append, List.takeWhile_cons_of_neg (by simp), List.append_nil]
  rw [isLengthLine, htake]
  decide

/-- Every line of an error response is non-empty and made of characters which
cannot end it, if the reason is. -/
theorem errorLines_inLine {status : UInt16} {reason : Text} (hreason : ∀ c ∈ reason, InLine c)
    (length : Nat) : ∀ line ∈ [statusLine status reason, closeLine, contentTypeLine,
      lengthLine length], line ≠ [] ∧ ∀ c ∈ line, InLine c := by
  have hdecimal : ∀ n, ∀ c ∈ decimal n, InLine c := fun n c hc => (inWord_of_mem_decimal hc).1
  have hrest : ∀ c ∈ ' ' :: reason, InLine c :=
    List.forall_mem_cons.mpr ⟨by decide, hreason⟩
  have hne : ∀ {t u : Text}, t ≠ [] → t ++ u ≠ [] :=
    fun ht => List.append_ne_nil_of_left_ne_nil ht _
  simp only [List.forall_mem_cons]
  refine ⟨⟨hne (hne (by decide)), ?_⟩, ⟨by decide, by decide⟩,
    ⟨by decide, by decide⟩, ⟨hne (by decide), ?_⟩, by simp⟩
  · exact inLine_append (inLine_append (by decide) (hdecimal _)) hrest
  · exact inLine_append (by decide) (hdecimal _)

/-- What the proxy sends as an error is one complete response. -/
theorem errorResponse_complete {status : UInt16} {reason : Text}
    (hreason : ∀ c ∈ reason, InLine c) :
    CompleteResponse status (utf8 (errorResponse status reason)) := by
  let body := utf8 (errorBody status reason)
  let headers := [closeLine, contentTypeLine, lengthLine body.length]
  have hlines : ∀ line ∈ statusLine status reason :: headers, line ≠ [] ∧ ∀ c ∈ line, InLine c :=
    errorLines_inLine hreason body.length
  have hbytes : utf8 (errorResponse status reason) =
      joinLines 13 10 ((statusLine status reason :: headers).map utf8) ++ crlf ++ body := by
    rw [errorResponse_eq_joinLines, utf8_append, utf8_append, utf8_joinLines]
    rfl
  refine ⟨reason, headers, body, hbytes, fun line hline => (hlines line hline).2, ?_, ?_⟩
  · have hhead := findHeaderEnd_joinLines (List.cons_ne_nil _ _) hlines
    rw [hbytes, List.length_append, Nat.add_sub_cancel]
    exact findHeaderEnd_append hhead body
  · have hclose : isLengthLine closeLine = false := by decide
    have htype : isLengthLine contentTypeLine = false := by decide
    simp [headers, hclose, htype, isLengthLine_lengthLine]

end Server
end Fastpx
