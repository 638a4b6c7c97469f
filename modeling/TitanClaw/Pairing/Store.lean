import TitanClaw.Lib.FileProg
import TitanClaw.Lib.Json
import TitanClaw.Lib.Text
import Mathlib.Data.List.Sort

/-! # The pairing store

Pending pairing requests and the allowFrom list of a channel, each in a file of
its own that every operation opens, locks, reads, changes and rewrites. An
operation is a program over the files of the base directory; what it gets from
outside — the clock, random codes, the faults of its file operations — is an
`Outside`.

JSON is a parameter (`StoreCodec`), as are the calendar functions. -/

namespace TitanClaw.Pairing

open Text Files Prog

/-! ## Stored data -/

structure PairingRequest where
  id : String
  code : String
  createdAt : String
  lastSeenAt : String
  metadata : Option JsonValue

structure PairingStoreFile where
  version : UInt8
  requests : List PairingRequest

structure AllowFromStoreFile where
  version : UInt8
  allowFrom : List String

structure ApproveAttemptsFile where
  failedAt : List Nat

inductive PairingStoreError where
  | invalidChannel (reason : String)
  | io (e : IoError)
  | approveRateLimited
  deriving DecidableEq

structure UpsertResult where
  code : String
  created : Bool

/-- Writing the stored data as JSON text and reading it back. An empty text is
no JSON value. -/
structure StoreCodec where
  pairingText : PairingStoreFile → String
  pairingOf : String → Option PairingStoreFile
  allowFromText : AllowFromStoreFile → String
  allowFromOf : String → Option AllowFromStoreFile
  attemptsText : ApproveAttemptsFile → String
  attemptsOf : String → Option ApproveAttemptsFile
  pairing_empty : pairingOf "" = none
  allowFrom_text : ∀ f, allowFromOf (allowFromText f) = some f
  allowFrom_empty : allowFromOf "" = none

/-- RFC 3339 timestamps, in seconds since the epoch. -/
structure Calendar where
  toRfc3339 : Nat → String
  parseRfc3339 : String → Option Int

/-- The third-party and Unicode functions the store uses. -/
structure Deps where
  codec : StoreCodec
  calendar : Calendar
  unicode : CaseMap

/-! ## Constants -/

def pairingCodeLength : Nat := 8

def pairingAlphabet : List Char := "ABCDEFGHJKLMNPQRSTUVWXYZ23456789".toList

def pairingPendingTtlSecs : Nat := 15 * 60

def pairingPendingMax : Nat := 3

def pairingApproveRateLimit : Nat := 10

def pairingApproveRateWindowSecs : Nat := 5 * 60

/-- Which function does a file operation. -/
inductive Fn where
  | listPending
  | upsertRequest
  | writePairingFile
  | isApproveRateLimited
  | recordFailedApprove
  | approve
  | readAllowFrom
  | addAllowFrom

inductive FileOp where
  | createDir
  | openFile
  | lock
  | read
  | setLen
  | seek
  | writeAll
  | syncAll
  | write
  | unlock

def Draw : Type := Fin pairingCodeLength → Fin pairingAlphabet.length

structure Outside where
  nowSecs : Nat
  /-- the clock as `now_iso` reads it -/
  nowIsoSecs : Nat
  draws : Nat → Draw
  suffix : Fin 10000
  fault : Fn → FileOp → Fault

variable (D : Deps) (channel : String)

def safeChannelKey : Except PairingStoreError String :=
  let raw := D.unicode.toLowercase (trim channel)
  if raw.isEmpty then .error (.invalidChannel "empty")
  else
    let mapped := raw.toList.map fun c =>
      if ['\\', '/', ':', '*', '?', '"', '<', '>', '|'].contains c then '_' else c
    let safe := String.ofList (collapseDots mapped)
    if safe.isEmpty || safe = "_" then .error (.invalidChannel channel)
    else .ok safe
where
  /-- `replace("..", "_")` -/
  collapseDots : List Char → List Char
    | '.' :: '.' :: cs => '_' :: collapseDots cs
    | c :: cs => c :: collapseDots cs
    | [] => []

variable (key : String)

def pairingPath : String := key ++ "-pairing.json"

def allowFromPath : String := key ++ "-allowFrom.json"

def approveAttemptsPath : String := key ++ "-approve-attempts.json"

/-- `str::parse::<u64>`: digits, with an optional plus sign, in range. -/
def parseU64 (s : String) : Option Nat :=
  let digits := match s.toList with
    | '+' :: cs => cs
    | cs => cs
  if digits.isEmpty || !digits.all Char.isDigit then none
  else
    let n := digits.foldl (fun n c => 10 * n + (c.toNat - '0'.toNat)) 0
    if n < 2 ^ 64 then some n else none

def parseTimestamp (value : String) : Option Nat :=
  match D.calendar.parseRfc3339 value with
  | some secs => some (secs % 2 ^ 64).toNat
  | none => parseU64 value

def isExpired (req : PairingRequest) (nowSecs : Nat) : Bool :=
  let created := (parseTimestamp D req.createdAt).getD 0
  decide (nowSecs - created > pairingPendingTtlSecs)

def randomCode (d : Draw) : String :=
  String.ofList ((List.finRange pairingCodeLength).map fun i => pairingAlphabet.get (d i))

variable (out : Outside)

/-- The first of 500 draws that is new, else a draw with a number behind it. -/
def generateUniqueCode (existing : List String) : String :=
  match (List.range 500).find? fun i => !existing.contains (randomCode (out.draws i)) with
  | some i => randomCode (out.draws i)
  | none =>
      let digits := (toString out.suffix.val).toList
      randomCode (out.draws 500) ++ String.ofList (List.replicate (4 - digits.length) '0' ++ digits)

/-! ## Operations -/

abbrev StoreProg := Prog Files PairingStoreError

/-- Run a file operation whose error is passed on. -/
def io {α : Type} (m : Prog Files IoError α) : StoreProg α := mapError .io m

def channelKey : StoreProg String :=
  match safeChannelKey D channel with
  | .ok key => pure key
  | .error e => fail e

def readOrEmpty (fault : Fault) (path : String) : StoreProg String := do
  match ← attempt (readToString fault path) with
  | .ok text => pure text
  | .error _ => pure ""

variable (text : String)

def pairingOrNew : PairingStoreFile := (D.codec.pairingOf text).getD ⟨1, []⟩

def allowFromOrNew : AllowFromStoreFile := (D.codec.allowFromOf text).getD ⟨1, []⟩

def attemptsOrNew : ApproveAttemptsFile := (D.codec.attemptsOf text).getD ⟨[]⟩

/-- Rewrite the open, locked pairing file of `fn`. -/
def writePairingFileLocked (fn : Fn) (key : String)
    (requests : List PairingRequest) : StoreProg Unit := do
  let json := D.codec.pairingText ⟨1, requests⟩
  io (write (out.fault fn .setLen) (pairingPath key) "")
  io (sideStep (out.fault fn .seek))
  io (write (out.fault fn .writeAll) (pairingPath key) json)
  io (sideStep (out.fault fn .syncAll))

variable (D : Deps) (out : Outside) (key : String) (requests : List PairingRequest)

def writePairingFile : StoreProg Unit := do
  io (openFile (out.fault .writePairingFile .openFile) (pairingPath key) true true)
  io (sideStep (out.fault .writePairingFile .lock))
  writePairingFileLocked D out .writePairingFile key requests
  io (sideStep (out.fault .writePairingFile .unlock))

def listPending (channel : String) : StoreProg (List PairingRequest) := do
  let key ← channelKey D channel
  match ← attempt (readToString (out.fault .listPending .read) (pairingPath key)) with
  | .error .notFound => pure []
  | .error e => fail (.io e)
  | .ok content =>
      let file := pairingOrNew D content
      let requests := file.requests.filter (! isExpired D · out.nowSecs)
      if requests.length ≠ file.requests.length then writePairingFile D out key requests
      pure (requests.insertionSort (·.createdAt ≤ ·.createdAt))

/-- The request for `id` seen again. -/
def refresh (code : String) (metadata : Option JsonValue) (req : PairingRequest) : PairingRequest :=
  { req with
    lastSeenAt := D.calendar.toRfc3339 out.nowIsoSecs
    code
    metadata := metadata.or req.metadata }

/-- The request of a sender, and its position. -/
def findById (id : String) : Option (Nat × PairingRequest) :=
  match requests.findIdx? (·.id = id) with
  | some idx => requests[idx]?.map (idx, ·)
  | none => none

def upsertRequest (channel id : String) (metadata : Option JsonValue) : StoreProg UpsertResult := do
  let key ← channelKey D channel
  io (sideStep (out.fault .upsertRequest .createDir))
  io (openFile (out.fault .upsertRequest .openFile) (pairingPath key) true false)
  io (sideStep (out.fault .upsertRequest .lock))
  let content ← readOrEmpty (out.fault .upsertRequest .read) (pairingPath key)
  let store := pairingOrNew D content
  let id := trim id
  if id.isEmpty then
    io (sideStep (out.fault .upsertRequest .unlock))
    fail (.invalidChannel "empty id")
  else
    let requests := store.requests.filter (! isExpired D · out.nowSecs)
    let existingCodes := requests.map fun r => D.unicode.toUppercase r.code
    match findById requests id with
    | some (idx, req) =>
        let code :=
          if req.code.isEmpty then generateUniqueCode out existingCodes else req.code
        writePairingFileLocked D out .upsertRequest key
          (requests.set idx (refresh D out code metadata req))
        io (sideStep (out.fault .upsertRequest .unlock))
        pure ⟨code, false⟩
    | none =>
        if requests.length ≥ pairingPendingMax then
          io (sideStep (out.fault .upsertRequest .unlock))
          pure ⟨"", false⟩
        else
          let code := generateUniqueCode out existingCodes
          let now := D.calendar.toRfc3339 out.nowIsoSecs
          writePairingFileLocked D out .upsertRequest key
            (requests ++ [⟨id, code, now, now, metadata⟩])
          io (sideStep (out.fault .upsertRequest .unlock))
          pure ⟨code, true⟩

def isApproveRateLimited : StoreProg Bool := do
  match ← attempt
      (readToString (out.fault .isApproveRateLimited .read) (approveAttemptsPath key)) with
  | .error .notFound => pure false
  | .error e => fail (.io e)
  | .ok content =>
      let cutoff := out.nowSecs - pairingApproveRateWindowSecs
      let recent := (attemptsOrNew D content).failedAt.filter (cutoff ≤ ·)
      pure (decide (recent.length ≥ pairingApproveRateLimit))

def recordFailedApprove : StoreProg Unit := do
  io (sideStep (out.fault .recordFailedApprove .createDir))
  io (openFile (out.fault .recordFailedApprove .openFile) (approveAttemptsPath key) true false)
  io (sideStep (out.fault .recordFailedApprove .lock))
  let content ← readOrEmpty (out.fault .recordFailedApprove .read) (approveAttemptsPath key)
  let data := attemptsOrNew D content
  let cutoff := out.nowSecs - pairingApproveRateWindowSecs
  let failedAt := (data.failedAt ++ [out.nowSecs]).filter (cutoff ≤ ·)
  io (write (out.fault .recordFailedApprove .write) (approveAttemptsPath key)
    (D.codec.attemptsText ⟨failedAt⟩))
  io (sideStep (out.fault .recordFailedApprove .unlock))

def hasEntry (allow : List String) (entry : String) : Bool :=
  allow.any fun e => D.unicode.toLowercase e = D.unicode.toLowercase entry

/-- Add a sender to the allowFrom list. The file is opened with the TRUNCATE
option, and read after that. -/
def addAllowFrom (key entry : String) : StoreProg Unit := do
  let entry := trim entry
  if entry.isEmpty then pure ()
  else
    io (sideStep (out.fault .addAllowFrom .createDir))
    io (openFile (out.fault .addAllowFrom .openFile) (allowFromPath key) true true)
    io (sideStep (out.fault .addAllowFrom .lock))
    let content ← readOrEmpty (out.fault .addAllowFrom .read) (allowFromPath key)
    let store := allowFromOrNew D content
    if hasEntry D store.allowFrom entry then io (sideStep (out.fault .addAllowFrom .unlock))
    else
      io (write (out.fault .addAllowFrom .write) (allowFromPath key)
        (D.codec.allowFromText ⟨store.version, store.allowFrom ++ [entry]⟩))
      io (sideStep (out.fault .addAllowFrom .unlock))

def openForApprove : StoreProg Unit :=
  mapError (fun e =>
      match e with
      | .notFound => .invalidChannel "no pairing file"
      | e => .io e)
    (openFile (out.fault .approve .openFile) (pairingPath key) false false)

def findByCode (code : String) : Option (Nat × PairingRequest) :=
  match requests.findIdx? (D.unicode.toUppercase ·.code = code) with
  | some idx => requests[idx]?.map (idx, ·)
  | none => none

/-- Take the request a code names out of the pairing file: all of an approval
up to the release of that file's lock. -/
def takeRequest (key code : String) : StoreProg (Option PairingRequest) := do
  openForApprove out key
  io (sideStep (out.fault .approve .lock))
  let content ← readOrEmpty (out.fault .approve .read) (pairingPath key)
  let requests := (pairingOrNew D content).requests.filter (! isExpired D · out.nowSecs)
  match findByCode D requests code with
  | some (idx, entry) =>
      writePairingFileLocked D out .approve key (requests.eraseIdx idx)
      io (sideStep (out.fault .approve .unlock))
      pure (some entry)
  | none =>
      io (sideStep (out.fault .approve .unlock))
      pure none

def approveTaken (key code : String) : StoreProg (Option PairingRequest) := do
  match ← takeRequest D out key (D.unicode.toUppercase (trim code)) with
  | some entry =>
      addAllowFrom D out key entry.id
      pure (some entry)
  | none =>
      recordFailedApprove D out key
      pure none

def approve (channel code : String) : StoreProg (Option PairingRequest) := do
  if (D.unicode.toUppercase (trim code)).isEmpty then pure none
  else
    let key ← channelKey D channel
    if ← isApproveRateLimited D out key then fail .approveRateLimited
    else approveTaken D out key code

def readAllowFrom (channel : String) : StoreProg (List String) := do
  let key ← channelKey D channel
  match ← attempt (readToString (out.fault .readAllowFrom .read) (allowFromPath key)) with
  | .error .notFound => pure []
  | .error e => fail (.io e)
  | .ok content => pure (allowFromOrNew D content).allowFrom

def senderAllowed (allow : List String) (id : String) (username : Option String) : Bool :=
  allow.any (fun e => trim e = trim id)
    || match username with
      | none => false
      | some u =>
          let u := D.unicode.toLowercase (trim u)
          let uNorm := match u.toList with
            | '@' :: cs => String.ofList cs
            | _ => u
          allow.any fun e =>
            D.unicode.toLowercase (trim e) = u
              || D.unicode.toLowercase (trim e) = "@" ++ uNorm

def isSenderAllowed (channel id : String) (username : Option String) : StoreProg Bool := do
  let allow ← readAllowFrom D out channel
  pure (senderAllowed D allow id username)

end TitanClaw.Pairing
