import TitanClaw.Tools.Wasm.LeakVerdict

/-! # Credentials in the errors a guest gets

The texts of the transport are redacted before they go back to the guest; those
of the checks before it are not, and three of them quote what they refused: the
allowlist parts of the URL the credentials have been written into, the leak scan
the ends of the text it found, and the address check the host. -/

namespace TitanClaw.Tools.Wasm

open Text HostState AllowlistValidator AllowlistResult

def StoreData.secretValues (s : StoreData) : List String :=
  s.credentials.map (·.2) ++ s.hostCredentials.map (·.secretValue)

/-- No nonempty credential value stands in the text. -/
def StoreData.Hides (s : StoreData) (text : String) : Prop :=
  ∀ v ∈ s.secretValues, v ≠ "" → contains text v = false

instance (s : StoreData) (text : String) : Decidable (s.Hides text) := by
  unfold StoreData.Hides
  infer_instance

/-- No check of the request gives a credential away, by what it would say: the
allowlist quotes the URL with the placeholders replaced, the leak scan and the
address check the URL and the headers with all credentials in them; a text of the
transport is redacted first. -/
structure StoreData.Discreet (C : Crates) (O : Outside) (s : StoreData) (r : GuestRequest) :
    Prop where
  notGranted : s.hostState.http = none → s.Hides "HTTP not allowed: HTTP capability not granted"
  allowlist : ∀ capability reason, s.hostState.http = some capability →
    (new capability.allowlist).validate C.url C.cases
        (s.injectCredentials r.url) r.method = .denied reason →
    s.Hides ("HTTP not allowed: " ++ ("HTTP request not allowed: "
      ++ (denied reason).debug C.debug))
  rateLimit : s.Allowed C r → s.hostState.httpRequestCount + 1 > 50 →
    s.Hides "Rate limit exceeded: Too many HTTP requests in single execution (max 50)"
  leakScan : s.Admits C r → ∀ e, s.scanResult C O r = .error e →
    s.Hides ("Potential secret leak blocked: " ++ e.toText)
  privateIp : s.Scanned C O r → ∀ e,
    rejectPrivateIp C O (s.withCredentials C r).2 = .error e → s.Hides e
  runtime : s.Cleared C O r → s.httpRuntime = false → ∀ e,
    O.buildRuntime = .error e → s.Hides ("Failed to create HTTP runtime: " ++ e)
  transport : s.Cleared C O r → (s.httpRuntime = true ∨ O.buildRuntime = .ok ()) → ∀ e,
    s.exchanged C O r = .error e → s.Hides (s.redactCredentials e)

variable {C : Crates} {O : Outside} {s : StoreData} {r : GuestRequest}

theorem HostState.checkHttpAllowed_error_iff {h : HostState} {url method e : String} :
    h.checkHttpAllowed C url method = .error e
      ↔ h.http = none ∧ e = "HTTP capability not granted"
        ∨ ∃ capability reason, h.http = some capability
          ∧ (new capability.allowlist).validate C.url C.cases url method = .denied reason
          ∧ e = "HTTP request not allowed: " ++ (denied reason).debug C.debug := by
  unfold checkHttpAllowed
  cases hhttp : h.http with
  | none => simpa using eq_comm
  | some capability =>
    cases hresult : (new capability.allowlist).validate C.url C.cases url method with
    | allowed => simp [hresult]
    | denied reason => simpa [hresult] using eq_comm

theorem HostState.recordHttpRequest_error_iff {h : HostState} (hhttp : h.http ≠ none) {e : String} :
    h.recordHttpRequest.1 = .error e
      ↔ h.httpRequestCount + 1 > 50
        ∧ e = "Too many HTTP requests in single execution (max 50)" := by
  unfold recordHttpRequest
  cases hcap : h.http with
  | none => exact absurd hcap hhttp
  | some =>
    by_cases hcount : h.httpRequestCount + 1 > 50
    · simpa [hcount] using eq_comm
    · simp [hcount]

theorem HostState.http_ne_none_of_allowed {h : HostState} {url method : String}
    (hallowed : h.checkHttpAllowed C url method = .ok ()) : h.http ≠ none := by
  intro hnone
  simp [checkHttpAllowed, hnone] at hallowed

def tokenStore : StoreData where
  hostState :=
    { http := some ⟨[⟨"api.example.com", none, []⟩], 10485760⟩, httpRequestCount := 0 }
  credentials := [("API_TOKEN", "s3cr3t")]
  hostCredentials := []
  httpRuntime := false

def hostProbe : GuestRequest where
  method := "GET"
  url := "https://\x7bAPI_TOKEN\x7d.example.org/"
  headersJson := "\x7b\x7d"
  body := none
  timeoutMs := none

def probeCrates : Crates :=
  plainCrates "https://s3cr3t.example.org/"
    ⟨"https", "", none, some "s3cr3t.example.org", "/"⟩ { findIter := fun _ _ => [] }

end TitanClaw.Tools.Wasm
