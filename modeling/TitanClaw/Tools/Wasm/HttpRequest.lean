import TitanClaw.Safety.DefaultPatterns
import TitanClaw.Tools.Wasm.Allowlist

/-! # HTTP requests of WASM tools

A tool names a credential by a placeholder, `\x7bNAME\x7d`, and never sees its
value: the host writes the value into the URL and the header values, adds the
headers and query parameters of the credentials kept for the target host, and
sends the request. `StoreData.httpRequest` is the host function, with every
check a request goes through in the order of the source:

* the allowlist, on the URL with the placeholders already replaced;
* the limit of requests in one execution;
* the leak scan, on the URL and the headers with all credentials in them;
* the address the host name resolves to;
* the transport, whose errors alone are redacted.

`HttpError` keeps which of them refused; the guest gets its text. -/

namespace TitanClaw.Tools.Wasm

open Text Safety LeakDetector

inductive IpAddr where
  | v4 (a b c d : UInt8)
  | v6 (segments : Vector UInt16 8)

def isPrivateIp : IpAddr → Bool
  | .v4 a b c d =>
      a == 127
        || (a == 10 || (a == 172 && 16 ≤ b && b ≤ 31) || (a == 192 && b == 168))
        || (a == 169 && b == 254)
        || (a == 0 && b == 0 && c == 0 && d == 0)
        || (a == 100 && b &&& 0xC0 == 64)
  | .v6 segments =>
      segments == #v[0, 0, 0, 0, 0, 0, 0, 1]
        || segments == #v[0, 0, 0, 0, 0, 0, 0, 0]
        || segments[0] &&& 0xFE00 == 0xFC00
        || segments[0] &&& 0xFFC0 == 0xFE80

/-! ## What a request meets outside -/

/-- The crates and library functions the host function calls. -/
structure Crates where
  url : UrlCrate
  regex : RegexEngine
  cases : CaseMap
  debug : DebugTable
  /-- `serde_json` reading a map of texts -/
  parseHeaders : String → Option (List (String × String))
  /-- `serde_json` writing a map of texts -/
  headersJson : List (String × String) → Option String
  parseIp : String → Option IpAddr
  showIp : IpAddr → String
  fromUtf8 : List UInt8 → Option String
  fromUtf8Lossy : List UInt8 → String

inductive Method where
  | get
  | post
  | put
  | delete
  | patch
  | head

def Method.ofText? : String → Option Method
  | "GET" => some .get
  | "POST" => some .post
  | "PUT" => some .put
  | "DELETE" => some .delete
  | "PATCH" => some .patch
  | "HEAD" => some .head
  | _ => none

/-- A request as it is handed to the transport. -/
structure Outgoing where
  method : Method
  url : String
  headers : List (String × String)
  body : Option (List UInt8)
  timeoutMs : Nat

/-- An answer of the transport; a header value is `none` if it is not text. -/
structure Reply where
  status : UInt16
  headers : List (String × Option String)
  contentLength : Option Nat
  bytes : Except String (List UInt8)

/-- What one call meets: the iteration order of the map of headers, name
resolution, and how the runtime, the client and the transport fare. -/
structure Outside where
  iterate : List (String × String) → List (String × String)
  iterate_perm : ∀ entries, (iterate entries).Perm entries
  resolve : String → Except String (List IpAddr)
  buildRuntime : Except String Unit
  buildClient : Except String Unit
  /-- an error comes with the texts of its causes -/
  send : Outgoing → Except (String × List String) Reply

/-! ## The store of an execution -/

structure HttpCapability where
  allowlist : List EndpointPattern
  maxResponseBytes : Nat
  deriving DecidableEq

structure HostState where
  http : Option HttpCapability
  httpRequestCount : UInt32

/-- A credential for the hosts its patterns name; both maps in the order they are
iterated in. -/
structure ResolvedHostCredential where
  hostPatterns : List String
  headers : List (String × String)
  queryParams : List (String × String)
  secretValue : String

/-- The state of one execution; `credentials` maps placeholder names to values,
in the order the map is iterated in. -/
structure StoreData where
  hostState : HostState
  credentials : List (String × String)
  hostCredentials : List ResolvedHostCredential
  httpRuntime : Bool

structure GuestRequest where
  method : String
  url : String
  headersJson : String
  body : Option (List UInt8)
  timeoutMs : Option UInt32

structure HttpResponse where
  status : UInt16
  headersJson : String
  body : List UInt8
  deriving DecidableEq

/-! ## Credentials -/

def placeholder (name : String) : String := "\x7b" ++ name ++ "\x7d"

/-- One round of the loop of `injectCredentials`. -/
def injectCredential (result : String) (credential : String × String) : String :=
  if contains result (placeholder credential.1) then
    replace result (placeholder credential.1) credential.2
  else result

def StoreData.injectCredentials (s : StoreData) (input : String) : String :=
  s.credentials.foldl injectCredential input

def redactValue (result : String) (value mark : String) : String :=
  if value = "" then result else replace result value mark

def StoreData.redactCredentials (s : StoreData) (text : String) : String :=
  s.hostCredentials.foldl
    (fun result cred => redactValue result cred.secretValue "[REDACTED:host_credential]")
    (s.credentials.foldl (fun result c => redactValue result c.2 ("[REDACTED:" ++ c.1 ++ "]")) text)

def insertEntry (entries : List (String × String)) (entry : String × String) :
    List (String × String) :=
  entry :: entries.filter (·.1 ≠ entry.1)

def hostMatchesPattern (host pattern : String) : Bool := matchesHost host pattern

def ResolvedHostCredential.appliesTo (cred : ResolvedHostCredential) (urlHost : String) : Bool :=
  cred.hostPatterns.any (hostMatchesPattern urlHost)

/-- Write the parameters behind a URL, the first one after `separator`. -/
def pushParams (U : UrlCrate) (url : String) (separator : String) : List (String × String) → String
  | [] => url
  | (name, value) :: params =>
      pushParams U (url ++ separator ++ U.encode name ++ "=" ++ U.encode value) "&" params

variable (U : UrlCrate)

def appendQuery (url : String) (params : List (String × String)) : String :=
  let base := String.ofList (url.toList.takeWhile (· ≠ '#'))
  let fragment := String.ofList (url.toList.dropWhile (· ≠ '#'))
  pushParams U base (if contains base "?" then "&" else "?") params ++ fragment

def ResolvedHostCredential.inject (cred : ResolvedHostCredential)
    (request : List (String × String) × String) : List (String × String) × String :=
  (cred.headers.foldl insertEntry request.1,
    if cred.queryParams.isEmpty then request.2
    else appendQuery U request.2 cred.queryParams)

def StoreData.injectHostCredentials (s : StoreData) (urlHost : String)
    (request : List (String × String) × String) : List (String × String) × String :=
  s.hostCredentials.foldl
    (fun request cred => if cred.appliesTo urlHost then cred.inject U request else request)
    request

variable (C : Crates)

def HostState.checkHttpAllowed (h : HostState) (url method : String) : Except String Unit :=
  match h.http with
  | none => .error "HTTP capability not granted"
  | some capability =>
      match (AllowlistValidator.new capability.allowlist).validate C.url C.cases url method with
      | .allowed => .ok ()
      | result => .error ("HTTP request not allowed: " ++ result.debug C.debug)

def HostState.recordHttpRequest (h : HostState) : Except String Unit × HostState :=
  match h.http with
  | none => (.error "HTTP capability not granted", h)
  | some _ =>
      let h := { h with httpRequestCount := h.httpRequestCount + 1 }
      if h.httpRequestCount > 50 then
        (.error "Too many HTTP requests in single execution (max 50)", h)
      else (.ok (), h)

def extractHostFromUrl (url : String) : Option String :=
  match C.url.parse url with
  | .error _ => none
  | .ok parsed =>
      if parsed.scheme = "http" ∨ parsed.scheme = "https" then
        parsed.hostStr.map (fun host => C.cases.toLowercase (unbracket host))
      else none

variable (O : Outside)

def rejectPrivateIp (url : String) : Except String Unit :=
  match C.url.parse url with
  | .error e => .error ("Failed to parse URL: " ++ e)
  | .ok parsed =>
      if parsed.scheme ≠ "http" ∧ parsed.scheme ≠ "https" then
        .error ("Unsupported URL scheme: " ++ parsed.scheme)
      else if parsed.username ≠ "" ∨ parsed.password.isSome then
        .error "URL contains userinfo (@) which is not allowed"
      else
        match parsed.hostStr.map unbracket with
        | none => .error "Failed to parse host from URL"
        | some host =>
            match C.parseIp host with
            | some ip =>
                if isPrivateIp ip then
                  .error ("HTTP request to private/internal IP " ++ C.showIp ip
                    ++ " is not allowed")
                else .ok ()
            | none =>
                match O.resolve (host ++ ":0") with
                | .error e => .error ("DNS resolution failed for " ++ host ++ ": " ++ e)
                | .ok addrs =>
                    if addrs.isEmpty then
                      .error ("DNS resolution returned no addresses for " ++ host)
                    else
                      match addrs.find? isPrivateIp with
                      | some ip =>
                          .error ("DNS rebinding detected: " ++ host
                            ++ " resolved to private IP " ++ C.showIp ip)
                      | none => .ok ()

def tooLarge (bytes max : Nat) : String :=
  "Response body too large: " ++ toString bytes ++ " bytes exceeds limit of "
    ++ toString max ++ " bytes"

/-- The response for the guest, unless it is too large or leaks a secret. -/
def readReply (max : Nat) (reply : Reply) : Except String HttpResponse :=
  if reply.contentLength.any (· > max) then .error (tooLarge (reply.contentLength.getD 0) max)
  else
    match reply.bytes with
    | .error e => .error ("Failed to read response body: " ++ e)
    | .ok body =>
        if body.length > max then .error (tooLarge body.length max)
        else
          let headers := (reply.headers.filterMap fun (k, v) => v.map (k, ·)).foldl insertEntry []
          let response : HttpResponse :=
            { status := reply.status, headersJson := (C.headersJson headers).getD "", body }
          match C.fromUtf8 body with
          | none => .ok response
          | some text =>
              match new.scanAndClean C.regex text with
              | .error e => .error ("Potential secret leak in response: " ++ e.toText)
              | .ok _ => .ok response

/-- Send the request and read the answer. -/
def exchange (max : Nat) (r : GuestRequest)
    (headers : List (String × String)) (url : String) : Except String HttpResponse :=
  match O.buildClient with
  | .error e => .error ("Failed to build HTTP client: " ++ e)
  | .ok () =>
      match Method.ofText? (C.cases.toUppercase r.method) with
      | none => .error ("Unsupported HTTP method: " ++ r.method)
      | some method =>
          let timeoutMs := min (r.timeoutMs.getD 30000).toNat 300000
          match O.send { method, url, headers, body := r.body, timeoutMs } with
          | .error (e, causes) =>
              .error (causes.foldl (fun chain cause => chain ++ " -> " ++ cause)
                ("HTTP request failed: " ++ e))
          | .ok reply => readReply C max reply

/-- Why a request failed, by the check that refused it. -/
inductive HttpError where
  | notAllowed (e : String)
  | rateLimited (e : String)
  | leakBlocked (e : LeakDetectionError)
  | privateIp (e : String)
  | noRuntime (e : String)
  /-- the text is redacted -/
  | transport (e : String)
  deriving DecidableEq

def HttpError.toText : HttpError → String
  | .notAllowed e => "HTTP not allowed: " ++ e
  | .rateLimited e => "Rate limit exceeded: " ++ e
  | .leakBlocked e => "Potential secret leak blocked: " ++ e.toText
  | .privateIp e => e
  | .noRuntime e => "Failed to create HTTP runtime: " ++ e
  | .transport e => e

def GuestRequest.headers (r : GuestRequest) : List (String × String) :=
  (C.parseHeaders r.headersJson).getD []

def StoreData.withCredentials (s : StoreData) (r : GuestRequest) :
    List (String × String) × String :=
  let headers := (r.headers C).map fun (k, v) => (k, s.injectCredentials v)
  let url := s.injectCredentials r.url
  match extractHostFromUrl C url with
  | some host => s.injectHostCredentials C.url host (headers, url)
  | none => (headers, url)

def StoreData.httpRequest (s : StoreData) (r : GuestRequest) :
    Except HttpError HttpResponse × StoreData :=
  match s.hostState.checkHttpAllowed C (s.injectCredentials r.url) r.method with
  | .error e => (.error (.notAllowed e), s)
  | .ok () =>
      match s.hostState.recordHttpRequest with
      | (.error e, hostState) => (.error (.rateLimited e), { s with hostState })
      | (.ok (), hostState) =>
          let s := { s with hostState }
          let (headers, url) := s.withCredentials C r
          match new.scanHttpRequest C.regex C.fromUtf8Lossy url (O.iterate headers) r.body with
          | .error e => (.error (.leakBlocked e), s)
          | .ok () =>
              let max := (s.hostState.http.map (·.maxResponseBytes)).getD (10 * 1024 * 1024)
              match rejectPrivateIp C O url with
              | .error e => (.error (.privateIp e), s)
              | .ok () =>
                  -- the runtime is built once and kept
                  match if s.httpRuntime then .ok () else O.buildRuntime with
                  | .error e => (.error (.noRuntime e), s)
                  | .ok () =>
                      let s := { s with httpRuntime := true }
                      match exchange C O max r (O.iterate headers) url with
                      | .error e => (.error (.transport (s.redactCredentials e)), s)
                      | .ok response => (.ok response, s)

/-! ## How a request fails

`httpRequest_error_iff` says which check refuses a request, and with what; the
rest of the development reads the host function's errors off it. -/

section

variable (C : Crates) (O : Outside) (s : StoreData) (r : GuestRequest)

def StoreData.Allowed : Prop :=
  s.hostState.checkHttpAllowed C (s.injectCredentials r.url) r.method = .ok ()

/-- The limit of requests lets it through as well. -/
def StoreData.Admits : Prop := s.Allowed C r ∧ s.hostState.recordHttpRequest.1 = .ok ()

def StoreData.scanResult : Except LeakDetectionError Unit :=
  new.scanHttpRequest C.regex C.fromUtf8Lossy (s.withCredentials C r).2
    (O.iterate (s.withCredentials C r).1) r.body

def StoreData.Scanned : Prop := s.Admits C r ∧ s.scanResult C O r = .ok ()

/-- It passes the address check as well. -/
def StoreData.Cleared : Prop :=
  s.Scanned C O r ∧ rejectPrivateIp C O (s.withCredentials C r).2 = .ok ()

/-- What becomes of the request in the transport. -/
def StoreData.exchanged : Except String HttpResponse :=
  exchange C O ((s.hostState.http.map (·.maxResponseBytes)).getD (10 * 1024 * 1024)) r
    (O.iterate (s.withCredentials C r).1) (s.withCredentials C r).2

end

theorem HostState.recordHttpRequest_http (h : HostState) : h.recordHttpRequest.2.http = h.http := by
  unfold recordHttpRequest
  cases hcap : h.http with
  | none => exact hcap
  | some capability =>
    dsimp only
    split
    · rfl
    · rfl

/-- **How a request fails**: the first check that refuses gives the error, and a
text of the transport is redacted. -/
theorem StoreData.httpRequest_error_iff {C : Crates} {O : Outside} {s : StoreData}
    {r : GuestRequest} {err : HttpError} :
    (s.httpRequest C O r).1 = .error err
      ↔ (∃ e, s.hostState.checkHttpAllowed C (s.injectCredentials r.url) r.method = .error e
            ∧ HttpError.notAllowed e = err)
        ∨ (s.Allowed C r ∧ ∃ e, s.hostState.recordHttpRequest.1 = .error e
            ∧ HttpError.rateLimited e = err)
        ∨ (s.Admits C r ∧ ∃ e, s.scanResult C O r = .error e ∧ HttpError.leakBlocked e = err)
        ∨ (s.Scanned C O r ∧ ∃ e,
            rejectPrivateIp C O (s.withCredentials C r).2 = .error e ∧ HttpError.privateIp e = err)
        ∨ (s.Cleared C O r ∧ s.httpRuntime = false ∧ ∃ e, O.buildRuntime = .error e
            ∧ HttpError.noRuntime e = err)
        ∨ (s.Cleared C O r ∧ (s.httpRuntime = true ∨ O.buildRuntime = .ok ())
            ∧ ∃ e, s.exchanged C O r = .error e
              ∧ HttpError.transport (s.redactCredentials e) = err) := by
  unfold httpRequest Cleared Scanned Admits Allowed
  cases hallowed : s.hostState.checkHttpAllowed C (s.injectCredentials r.url) r.method with
  | error e => simp
  | ok _ =>
    have hhttp := s.hostState.recordHttpRequest_http
    cases hrecord : s.hostState.recordHttpRequest with
    | mk recorded hostState =>
    rw [hrecord] at hhttp
    cases recorded with
    | error e => simp
    | ok _ =>
      -- neither injection nor the redaction reads the count
      have hsame : ({ s with hostState } : StoreData).withCredentials C r
          = s.withCredentials C r := rfl
      have hredact : ∀ e, ({ s with hostState, httpRuntime := true } :
          StoreData).redactCredentials e = s.redactCredentials e := fun _ => rfl
      have hscanned : s.scanResult C O r
          = new.scanHttpRequest C.regex C.fromUtf8Lossy
              (s.withCredentials C r).2 (O.iterate (s.withCredentials C r).1) r.body := rfl
      simp only [hsame, ← hscanned]
      cases hscan : s.scanResult C O r with
      | error e => simp
      | ok _ =>
        cases hreject : rejectPrivateIp C O (s.withCredentials C r).2 with
        | error e => simp
        | ok _ =>
          have hexchanged : exchange C O
              ((hostState.http.map (·.maxResponseBytes)).getD (10 * 1024 * 1024)) r
              (O.iterate (s.withCredentials C r).1) (s.withCredentials C r).2
                = s.exchanged C O r := by
            rw [exchanged, ← hhttp]
          simp only [hexchanged]
          cases hruntime : s.httpRuntime with
          | true =>
            cases hexchange : s.exchanged C O r with
            | error e => simp [hredact]
            | ok response => simp
          | false =>
            cases hbuild : O.buildRuntime with
            | error e => simp
            | ok _ =>
              cases hexchange : s.exchanged C O r with
              | error e => simp [hredact]
              | ok response => simp

end TitanClaw.Tools.Wasm
