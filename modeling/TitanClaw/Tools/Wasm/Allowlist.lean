import TitanClaw.Lib.Text

/-! # The HTTP allowlist of WASM tools

A request of a tool may go to the endpoints its capabilities list: a host
pattern, a path prefix and the methods. The URL is parsed by the `url` crate
(`UrlCrate`, a parameter); what is compared is the lower-cased host and the path
with its percent-encoding undone and its dot segments resolved.

A refusal is reported with the parts of the URL it is about. -/

namespace TitanClaw.Tools.Wasm

open Text

/-- A URL as the `url` crate parses it. -/
structure Url where
  scheme : String
  username : String
  password : Option String
  hostStr : Option String
  path : String

/-- The `url` and `urlencoding` crates, as far as they are used here. -/
structure UrlCrate where
  /-- the error is the text of the crate's `ParseError` -/
  parse : String → Except String Url
  /-- `none` if the decoded bytes are not UTF-8 -/
  decode : String → Option String
  encode : String → String

/-- A host without the brackets of an IPv6 address. -/
def unbracket (host : String) : String :=
  ((stripPrefix host "[").bind (stripSuffix · "]")).getD host

/-- The host is the pattern, or ends in `.d` where the pattern is `*.d`. -/
def matchesHost (host pattern : String) : Bool :=
  if pattern = host then true
  else
    match stripPrefix pattern "*." with
    | some suffix =>
        if endsWith host suffix && len host > len suffix then
          let head := host.toList.take (host.toList.length - suffix.toList.length)
          head.getLast? == some '.' || head.isEmpty
        else false
    | none => false

structure EndpointPattern where
  host : String
  pathPrefix : Option String
  methods : List String
  deriving DecidableEq

variable (p : EndpointPattern)

def EndpointPattern.hostMatches (urlHost : String) : Bool :=
  matchesHost urlHost p.host

def EndpointPattern.pathMatches (urlPath : String) : Bool :=
  match p.pathPrefix with
  | some path => startsWith urlPath path
  | none => true

def EndpointPattern.matches (K : CaseMap) (p : EndpointPattern)
    (urlHost urlPath method : String) : Bool :=
  p.hostMatches urlHost && p.pathMatches urlPath
    && (p.methods.isEmpty
      || p.methods.any (fun m => K.toUppercase m == K.toUppercase method))

/-! ## Parsing and normalising -/

def isHexDigit (b : UInt8) : Bool := (48 ≤ b && b ≤ 57) || (65 ≤ b && b ≤ 70) || (97 ≤ b && b ≤ 102)

def hasValidPercentEncoding : List UInt8 → Bool
  | [] => true
  | b :: rest =>
      if b = 37 then
        match rest with
        | h₁ :: h₂ :: rest => isHexDigit h₁ && isHexDigit h₂ && hasValidPercentEncoding rest
        | _ => false
      else hasValidPercentEncoding rest

variable (U : UrlCrate)

/-- One round of `normalizePath`'s loop over the raw segments. -/
def pushSegment (segments : List String) (raw : String) : Except String (List String) :=
  if hasValidPercentEncoding (utf8 raw) = false then
    .error ("Invalid percent-encoding in path segment: " ++ raw)
  else
    match U.decode raw with
    | none => .error ("Invalid percent-encoding in path segment: " ++ raw)
    | some segment =>
        -- an encoded separator would split the path further downstream
        if segment.toList.contains '/' || segment.toList.contains '\\' then
          .error "Path segment contains encoded path separator"
        else if segment = "" || segment = "." then .ok segments
        else if segment = ".." then .ok segments.dropLast
        else .ok (segments ++ [segment])

def normalizePath (path : String) : Except String String :=
  match ((path.toList.splitOn '/').map String.ofList).foldlM (pushSegment U) [] with
  | .error e => .error e
  | .ok segments =>
      let result := "/" ++ String.intercalate "/" segments
      .ok (if len path > 1 && endsWith path "/" && !endsWith result "/" then result ++ "/"
        else result)

structure ParsedUrl where
  scheme : String
  host : String
  path : String

def parseUrl (K : CaseMap) (url : String) : Except String ParsedUrl :=
  match U.parse url with
  | .error e => .error ("URL parse failed: " ++ e)
  | .ok parsed =>
      let scheme := K.toLowercase parsed.scheme
      if scheme ≠ "http" ∧ scheme ≠ "https" then .error ("Unsupported scheme: " ++ scheme)
      -- userinfo lets one host pass for another
      else if parsed.username ≠ "" ∨ parsed.password.isSome then
        .error "URL contains userinfo (@) which is not allowed"
      else
        match parsed.hostStr with
        | none => .error "Empty host"
        | some host =>
            match normalizePath U parsed.path with
            | .error e => .error e
            | .ok path => .ok { scheme, host := K.toLowercase (unbracket host), path }

/-! ## Validation -/

inductive DenyReason where
  | invalidUrl (text : String)
  | hostNotAllowed (host : String)
  | pathNotAllowed (host path : String)
  | methodNotAllowed (method host : String)
  | emptyAllowlist
  | insecureScheme (scheme : String)

inductive AllowlistResult where
  | allowed
  | denied (reason : DenyReason)

/-- The `Debug` output of a reason. -/
def DenyReason.debug (T : DebugTable) : DenyReason → String
  | .invalidUrl text => "InvalidUrl(" ++ debugText T text ++ ")"
  | .hostNotAllowed host => "HostNotAllowed(" ++ debugText T host ++ ")"
  | .pathNotAllowed host path =>
      "PathNotAllowed \x7b host: " ++ debugText T host ++ ", path: " ++ debugText T path ++ " \x7d"
  | .methodNotAllowed method host =>
      "MethodNotAllowed \x7b method: " ++ debugText T method ++ ", host: "
        ++ debugText T host ++ " \x7d"
  | .emptyAllowlist => "EmptyAllowlist"
  | .insecureScheme scheme => "InsecureScheme(" ++ debugText T scheme ++ ")"

/-- The `Debug` output of a result. -/
def AllowlistResult.debug (T : DebugTable) : AllowlistResult → String
  | .allowed => "Allowed"
  | .denied reason => "Denied(" ++ reason.debug T ++ ")"

structure AllowlistValidator where
  patterns : List EndpointPattern
  requireHttps : Bool

def AllowlistValidator.new (patterns : List EndpointPattern) : AllowlistValidator :=
  { patterns, requireHttps := true }

/-- Why no pattern matched. -/
def AllowlistValidator.denyReason (v : AllowlistValidator) (parsed : ParsedUrl)
    (method : String) : DenyReason :=
  let hostMatches := v.patterns.filter (·.hostMatches parsed.host)
  if hostMatches.isEmpty then .hostNotAllowed parsed.host
  else if (hostMatches.filter (·.pathMatches parsed.path)).isEmpty then
    .pathNotAllowed parsed.host parsed.path
  else .methodNotAllowed method parsed.host

def AllowlistValidator.validate (K : CaseMap) (v : AllowlistValidator)
    (url method : String) : AllowlistResult :=
  if v.patterns.isEmpty then .denied .emptyAllowlist
  else
    match parseUrl U K url with
    | .error e => .denied (.invalidUrl e)
    | .ok parsed =>
        if v.requireHttps ∧ parsed.scheme ≠ "https" then .denied (.insecureScheme parsed.scheme)
        else if v.patterns.any (·.matches K parsed.host parsed.path method) then .allowed
        else .denied (v.denyReason parsed method)

/-- **What is allowed**: a URL that parses, over https where that is required, and
that one of the patterns matches. -/
theorem AllowlistValidator.validate_allowed_iff {U : UrlCrate} {K : CaseMap}
    {v : AllowlistValidator} {url method : String} :
    v.validate U K url method = .allowed
      ↔ ∃ parsed, parseUrl U K url = .ok parsed
          ∧ (v.requireHttps = true → parsed.scheme = "https")
          ∧ ∃ p ∈ v.patterns, p.matches K parsed.host parsed.path method = true := by
  unfold validate
  by_cases hempty : v.patterns.isEmpty = true
  · rw [List.isEmpty_iff] at hempty
    simp [hempty]
  · simp only [hempty, Bool.false_eq_true, if_false]
    cases hparse : parseUrl U K url with
    | error => simp
    | ok parsed =>
      by_cases hscheme : v.requireHttps = true ∧ parsed.scheme ≠ "https"
      · simp [hscheme]
      have hsecure : v.requireHttps = true → parsed.scheme = "https" := by
        intro hrequire
        by_contra hother
        exact hscheme ⟨hrequire, hother⟩
      simp only [hscheme, if_false]
      by_cases hmatch : v.patterns.any (·.matches K parsed.host parsed.path method) = true
      · rw [if_pos hmatch]
        exact iff_of_true rfl ⟨parsed, rfl, hsecure, List.any_eq_true.mp hmatch⟩
      · rw [if_neg hmatch]
        rw [List.any_eq_true] at hmatch
        simp only [reduceCtorEq, Except.ok.injEq, exists_eq_left', false_iff]
        intro h
        exact hmatch h.2

end TitanClaw.Tools.Wasm
