import TitanClaw.Channels.Wasm.Host
import TitanClaw.Lib.Json

/-! # The router of webhooks

Channels declare endpoints, and the router finds the channel of a request by its path. Of an
endpoint it keeps the path alone; whether a secret is asked for depends on a table of secrets
by channel. -/

namespace TitanClaw.Channels.Wasm

open Text List Option AList Table Run

structure HttpEndpointConfig where
  path : String
  methods : List String
  requireSecret : Bool

def HttpEndpointConfig.postWebhook (path : String) : HttpEndpointConfig :=
  { path := path, methods := ["POST"], requireSecret := true }

structure RegisteredEndpoint where
  channelName : String
  path : String
  methods : List String
  requireSecret : Bool
  deriving DecidableEq

def registeredEndpoints (name : String) (caps : ChannelCapabilities)
    (configs : List HttpEndpointConfig) : List RegisteredEndpoint :=
  (configs.filter fun config => caps.isPathAllowed config.path).map fun config =>
    ⟨name, config.path, config.methods, config.requireSecret⟩

def startupEndpoint (name : String) (secret : Option String) : RegisteredEndpoint :=
  { channelName := name
    path := "/webhook/" ++ name
    methods := ["POST"]
    requireSecret := secret.isSome }

/-! ## Requests -/

structure WebhookRequest where
  method : String
  /-- What comes after `/webhook/`. -/
  path : String
  query : Table String String := ∅
  /-- Names are in lower case; a value may be no text. -/
  headers : List (String × Option String) := []
  body : List UInt8 := []

namespace WebhookRequest

variable (req : WebhookRequest)

def fullPath : String := "/webhook/" ++ req.path

/-- `HeaderMap::get`, for values that are texts. -/
def header (name : String) : Option String := (req.headers.lookup (asciiCase.toLowercase name)).join

/-- The secret in a request: from the query, the channel's own header, or the generic one. -/
def providedSecret (secretHeader : String) : Option String :=
  (req.query.lookup "secret").or <|
    (req.header secretHeader).or <|
      if secretHeader ≠ "X-Webhook-Secret" then req.header "X-Webhook-Secret" else none

def headersMap : Table String String :=
  (req.headers.filterMap fun (name, value) => value.map fun v => (name, v)).foldl
    (fun headers (name, v) => headers.insert name v) ∅

end WebhookRequest

/-- The arguments of `call_on_http_request`. -/
structure HttpCall where
  method : String
  path : String
  headers : Table String String
  query : Table String String
  body : List UInt8
  secretValidated : Bool

structure HttpResponse where
  status : Nat
  body : List UInt8

structure WasmChannel where
  name : String
  onHttpRequest : HttpCall → Except String HttpResponse

structure WebhookResponse where
  status : Nat
  body : JsonValue

/-- JSON from bytes, and the text of bytes that are not JSON. -/
structure RouterDeps where
  fromSlice : List UInt8 → Option JsonValue
  fromUtf8Lossy : List UInt8 → String

def RouterDeps.answer (D : RouterDeps) : Except String HttpResponse → WebhookResponse
  | .ok response =>
      { status := if 100 ≤ response.status ∧ response.status ≤ 999 then response.status else 500
        body := (D.fromSlice response.body).getD
          (.obj [("raw", .str (D.fromUtf8Lossy response.body))]) }
  | .error e => ⟨500, .obj [("error", .str "Channel callback failed"), ("details", .str e)]⟩

/-! ## The router -/

/-- The channel of a path. The endpoint it was declared with is a record that nothing reads. -/
structure Route where
  channel : String
  endpoint : RegisteredEndpoint
  deriving DecidableEq

structure WasmChannelRouter where
  channels : Table String WasmChannel := ∅
  pathToChannel : Table String Route := ∅
  secrets : Table String String := ∅
  secretHeaders : Table String String := ∅

namespace WasmChannelRouter

def registerPaths (name : String) (endpoints : List RegisteredEndpoint)
    (paths : Table String Route) : Table String Route :=
  endpoints.foldl (fun paths endpoint => paths.insert endpoint.path ⟨name, endpoint⟩) paths

variable (r : WasmChannelRouter)

def register (channel : WasmChannel)
    (endpoints : List RegisteredEndpoint) (secret secretHeader : Option String) :
    WasmChannelRouter where
  channels := r.channels.insert channel.name channel
  pathToChannel := registerPaths channel.name endpoints r.pathToChannel
  -- a secret of an earlier registration stays if there is none now
  secrets := secret.elim r.secrets (r.secrets.insert channel.name ·)
  secretHeaders := secretHeader.elim r.secretHeaders (r.secretHeaders.insert channel.name ·)

variable (name : String)

def unregister : WasmChannelRouter where
  channels := r.channels.erase name
  pathToChannel := r.pathToChannel.retain fun _ route => route.channel != name
  secrets := r.secrets.erase name
  secretHeaders := r.secretHeaders.erase name

def getSecretHeader : String := (r.secretHeaders.lookup name).getD "X-Webhook-Secret"

def getChannelForPath (path : String) : Option WasmChannel :=
  (r.pathToChannel.lookup path).bind fun route => r.channels.lookup route.channel

def validateSecret (name provided : String) : Bool :=
  match r.secrets.lookup name with
  | some expected => expected == provided
  | none => true

def requiresSecret : Bool := (r.secrets.lookup name).isSome

variable (req : WebhookRequest)

def checkSecret : Except WebhookResponse Unit :=
  if r.requiresSecret name then
    match req.providedSecret (r.getSecretHeader name) with
    | some secret =>
        if r.validateSecret name secret then .ok ()
        else .error ⟨401, .obj [("error", .str "Invalid webhook secret")]⟩
    | none => .error ⟨401, .obj [("error", .str "Webhook secret required")]⟩
  else .ok ()

/-- The answer, and the call of a channel if there is one. -/
def webhookHandler (D : RouterDeps) (r : WasmChannelRouter) (req : WebhookRequest) :
    WebhookResponse × Option (WasmChannel × HttpCall) :=
  match r.getChannelForPath req.fullPath with
  | none =>
      (⟨404, .obj [("error", .str "Channel not found for path"), ("path", .str req.fullPath)]⟩,
        none)
  -- the endpoint that was registered with the path is not looked at
  | some channel =>
      match r.checkSecret channel.name req with
      | .error response => (response, none)
      | .ok () =>
          let call : HttpCall :=
            { method := req.method
              path := req.fullPath
              headers := req.headersMap
              query := req.query
              body := req.body
              secretValidated := r.requiresSecret channel.name }
          (D.answer (channel.onHttpRequest call), some (channel, call))

inductive Registration where
  | register (channel : WasmChannel) (endpoints : List RegisteredEndpoint)
      (secret secretHeader : Option String)
  | unregister (name : String)

def step : Registration → WasmChannelRouter
  | .register channel endpoints secret secretHeader =>
      r.register channel endpoints secret secretHeader
  | .unregister name => r.unregister name

/-- Every path leads to a channel, and channels are kept under their names. -/
structure Consistent (r : WasmChannelRouter) : Prop where
  named : ∀ name channel, r.channels.lookup name = some channel → channel.name = name
  routed : ∀ path route, r.pathToChannel.lookup path = some route →
    route.endpoint.path = path ∧ (r.channels.lookup route.channel).isSome = true

/-- A path that is in the table after a registration is one of its endpoints, or was there. -/
theorem lookup_registerPaths {name path : String} {endpoints : List RegisteredEndpoint}
    {paths : Table String Route} {route : Route}
    (h : (registerPaths name endpoints paths).lookup path = some route) :
    (route.channel = name ∧ route.endpoint ∈ endpoints ∧ route.endpoint.path = path)
      ∨ paths.lookup path = some route := by
  induction endpoints generalizing paths with
  | nil => exact .inr h
  | cons endpoint _ ih =>
    rcases ih h with ⟨hname, hmem, hpath⟩ | hold
    · exact .inl ⟨hname, mem_cons_of_mem _ hmem, hpath⟩
    -- a later endpoint of the same path would have been found by the induction
    · by_cases hpath : path = endpoint.path
      · subst hpath
        rw [lookup_insert] at hold
        cases hold
        exact .inl ⟨rfl, mem_cons_self, rfl⟩
      · rw [lookup_insert_ne hpath] at hold
        exact .inr hold

theorem register_consistent {r : WasmChannelRouter} {channel : WasmChannel}
    {endpoints : List RegisteredEndpoint} {secret secretHeader : Option String}
    (h : r.Consistent) : (r.register channel endpoints secret secretHeader).Consistent where
  named name c hc := by
    by_cases hname : name = channel.name
    · subst hname
      rw [register, lookup_insert] at hc
      cases hc
      rfl
    · rw [register, lookup_insert_ne hname] at hc
      exact h.named name c hc
  routed path route hroute := by
    have hkept (name : String) (hname : (r.channels.lookup name).isSome = true) :
        ((r.channels.insert channel.name channel).lookup name).isSome = true := by
      by_cases heq : name = channel.name
      · subst heq
        simp
      · rwa [lookup_insert_ne heq]
    rcases lookup_registerPaths hroute with ⟨hname, -, hpath⟩ | hold
    · rw [hname]
      exact ⟨hpath, isSome_iff_exists.mpr ⟨channel, lookup_insert _⟩⟩
    · exact ⟨(h.routed path route hold).1, hkept _ (h.routed path route hold).2⟩

theorem unregister_consistent {r : WasmChannelRouter} {name : String} (h : r.Consistent) :
    (r.unregister name).Consistent where
  named other c hc := h.named other c (erase_sub _ _ _ _ hc)
  routed path route hroute := by
    rw [unregister, lookup_retain] at hroute
    obtain ⟨hold, hother⟩ := filter_eq_some_iff.mp hroute
    refine ⟨(h.routed path route hold).1, ?_⟩
    have hne : route.channel ≠ name := by simpa using hother
    simpa [unregister, lookup_erase_ne hne] using (h.routed path route hold).2

theorem run_consistent (registrations : List Registration) :
    (run step {} registrations).Consistent := by
  refine invariant_always (fun r registration h => ?_) ⟨?_, ?_⟩ registrations
  · cases registration with
    | register => exact register_consistent h
    | unregister => exact unregister_consistent h
  · intro name channel hchannel
    simp at hchannel
  · intro path route hroute
    simp at hroute

/-! ## Requests that reach a channel -/

theorem checkSecret_ok_iff :
    r.checkSecret name req = .ok () ↔ ∀ secret, r.secrets.lookup name = some secret →
      req.providedSecret (r.getSecretHeader name) = some secret := by
  cases hstored : r.secrets.lookup name with
  | none => simp [checkSecret, requiresSecret, hstored]
  | some expected =>
    cases hprovided : req.providedSecret (r.getSecretHeader name) with
    | none => simp [checkSecret, requiresSecret, hstored, hprovided]
    | some provided =>
      by_cases heq : expected = provided
      · simp [checkSecret, requiresSecret, validateSecret, hstored, hprovided, heq]
      · simp [checkSecret, requiresSecret, validateSecret, hstored, hprovided, heq, Ne.symm heq]

variable {D : RouterDeps} {r : WasmChannelRouter} {req : WebhookRequest}

/-- A channel is called if and only if the path leads to it and the secret passes. -/
theorem called_iff (h : r.Consistent) :
    (r.webhookHandler D req).2.isSome = true ↔
      ∃ route, r.pathToChannel.lookup req.fullPath = some route
        ∧ r.checkSecret route.channel req = .ok () := by
  unfold webhookHandler getChannelForPath
  cases hroute : r.pathToChannel.lookup req.fullPath with
  | none => simp
  | some route =>
    obtain ⟨channel, hchannel⟩ := isSome_iff_exists.mp (h.routed _ _ hroute).2
    have hname : channel.name = route.channel := h.named _ _ hchannel
    simp only [bind_some, hchannel, hname, Option.some.injEq, exists_eq_left']
    cases r.checkSecret route.channel req <;> simp

/-- The request keeps to what the endpoint declares. -/
structure Permitted (r : WasmChannelRouter) (req : WebhookRequest) (route : Route) : Prop where
  method : req.method ∈ route.endpoint.methods
  secret : route.endpoint.requireSecret = true →
    ∃ secret, r.secrets.lookup route.channel = some secret
      ∧ req.providedSecret (r.getSecretHeader route.channel) = some secret

def CallsPermitted (D : RouterDeps) (r : WasmChannelRouter) (req : WebhookRequest) : Prop :=
  (r.webhookHandler D req).2.isSome = true →
    ∃ route, r.pathToChannel.lookup req.fullPath = some route ∧ r.Permitted req route

/-- Unless it is refused for its secret, the request has a method of the endpoint, and the
endpoint has a secret if it requires one. -/
def Declared (r : WasmChannelRouter) (req : WebhookRequest) : Prop :=
  ∀ route, r.pathToChannel.lookup req.fullPath = some route →
    r.checkSecret route.channel req = .ok () →
      req.method ∈ route.endpoint.methods
        ∧ (route.endpoint.requireSecret = true → r.requiresSecret route.channel = true)

theorem permitted_iff {route : Route} (h : r.checkSecret route.channel req = .ok ()) :
    r.Permitted req route ↔ req.method ∈ route.endpoint.methods
      ∧ (route.endpoint.requireSecret = true → r.requiresSecret route.channel = true) := by
  rw [checkSecret_ok_iff] at h
  constructor
  · intro hp
    refine ⟨hp.method, fun hrequire => ?_⟩
    obtain ⟨secret, hstored, -⟩ := hp.secret hrequire
    simp [requiresSecret, hstored]
  · rintro ⟨hmethod, hsecret⟩
    refine ⟨hmethod, fun hrequire => ?_⟩
    obtain ⟨secret, hstored⟩ := isSome_iff_exists.mp (hsecret hrequire)
    exact ⟨secret, hstored, h secret hstored⟩

/-- Whatever has been registered before, a request reaches a channel only as the endpoint
declares, if and only if its method and the channel's secret are already in order. -/
theorem callsPermitted_iff (D : RouterDeps) (registrations : List Registration)
    (req : WebhookRequest) :
    CallsPermitted D (run step {} registrations) req ↔
      Declared (run step {} registrations) req := by
  have hconsistent := run_consistent registrations
  constructor
  · intro h route hroute hcheck
    obtain ⟨route', hroute', hpermitted⟩ := h ((called_iff hconsistent).mpr ⟨route, hroute, hcheck⟩)
    cases hroute.symm.trans hroute'
    exact (permitted_iff hcheck).mp hpermitted
  · intro h hcalled
    obtain ⟨route, hroute, hcheck⟩ := (called_iff hconsistent).mp hcalled
    exact ⟨route, hroute, (permitted_iff hcheck).mpr (h route hroute hcheck)⟩

def sampleRouterDeps : RouterDeps where
  fromSlice _ := none
  fromUtf8Lossy _ := ""

def sampleChannel : WasmChannel where
  name := name
  onHttpRequest _ := .ok ⟨200, []⟩

/-- An endpoint for POST is reached by GET; and one that requires a secret is reached without
one when none has been stored. -/
theorem undeclared_requests_call :
    ¬ CallsPermitted sampleRouterDeps
        (run step {}
          [.register (sampleChannel "telegram") [startupEndpoint "telegram" (some "s")]
            (some "s") none])
        { method := "GET", path := "telegram", headers := [("x-webhook-secret", some "s")] }
      ∧ ¬ CallsPermitted sampleRouterDeps
        (run step {}
          [.register (sampleChannel "slack")
            (registeredEndpoints "slack" { allowedPaths := ["/webhook/slack"] }
              [.postWebhook "/webhook/slack"]) none none])
        { method := "POST", path := "slack" } := by
  constructor
  · intro h
    obtain ⟨route, hroute, hpermitted⟩ := h (by decide)
    have htelegram : some route = some ⟨"telegram", startupEndpoint "telegram" (some "s")⟩ :=
      hroute.symm.trans (by decide)
    cases htelegram
    exact absurd hpermitted.method (by decide)
  · intro h
    obtain ⟨route, hroute, hpermitted⟩ := h (by decide)
    have hslack : some route = some ⟨"slack", "slack", "/webhook/slack", ["POST"], true⟩ :=
      hroute.symm.trans (by decide)
    cases hslack
    obtain ⟨secret, hstored, -⟩ := hpermitted.secret rfl
    exact absurd hstored (by simp [run, step, register])

end WasmChannelRouter

end TitanClaw.Channels.Wasm
