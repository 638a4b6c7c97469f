import TitanClaw.Tools.Wasm.HttpRequest

/-! # The leak scan and injected credentials

The leak scan is there to stop a GUEST from sending secrets out, but it is run
on the request with the host's credentials already in it. Whether a guest request
without any secret passes is therefore decided by the texts that carry a
credential: the header values the host sets, the header values and the URL whose
placeholders were replaced, and the URL behind which parameters were written. -/

namespace TitanClaw.Tools.Wasm

open Text Safety List LeakDetector StoreData

/-! ## The texts that carry a credential -/

variable (C : Crates)

def Blocked (text : String) : Prop := (new.scan C.regex text).shouldBlock = true

/-- No text the guest supplied has a match of the leak detector. -/
structure GuestRequest.Clean (C : Crates) (r : GuestRequest) : Prop where
  url : (new.scan C.regex r.url).leakMatches = []
  headers : ∀ h ∈ r.headers C, (new.scan C.regex h.2).leakMatches = []
  body : ∀ bytes ∈ r.body, (new.scan C.regex (C.fromUtf8Lossy bytes)).leakMatches = []

variable (s : StoreData)

def StoreData.HasPlaceholder (text : String) : Prop :=
  ∃ c ∈ s.credentials, contains text (placeholder c.1) = true

variable (r : GuestRequest)

/-- The host credentials that apply to the request's target host. -/
def StoreData.applicable : List ResolvedHostCredential :=
  match extractHostFromUrl C (s.injectCredentials r.url) with
  | some host => s.hostCredentials.filter (·.appliesTo host)
  | none => []

def StoreData.hostHeaders : List (String × String) := (s.applicable C r).flatMap (·.headers)

def StoreData.urlWithParams : String :=
  (s.applicable C r).foldl
    (fun url cred =>
      if cred.queryParams.isEmpty then url else appendQuery C.url url cred.queryParams)
    (s.injectCredentials r.url)

/-- No text that carries a credential is one the leak scan blocks: not a header
the host sets, not a header of the guest with a placeholder in it that the host
leaves standing, not the URL if a placeholder or a parameter is in it. -/
structure StoreData.CarriersUnblocked (C : Crates) (s : StoreData) (r : GuestRequest) : Prop where
  hostHeader : ∀ k v, (s.hostHeaders C r).reverse.lookup k = some v → ¬ Blocked C v
  guestHeader : ∀ h ∈ r.headers C, (∀ e ∈ s.hostHeaders C r, e.1 ≠ h.1) →
    s.HasPlaceholder h.2 → ¬ Blocked C (s.injectCredentials h.2)
  url : s.HasPlaceholder r.url ∨ (∃ cred ∈ s.applicable C r, cred.queryParams ≠ []) →
    ¬ Blocked C (s.urlWithParams C r)

def StoreData.PassesLeakScan (O : Outside) (s : StoreData) (r : GuestRequest) : Prop :=
  ∀ e, (s.httpRequest C O r).1 ≠ .error (.leakBlocked e)

variable {C : Crates} {O : Outside} {s : StoreData} {r : GuestRequest}

/-- A text without a placeholder is left alone. -/
theorem StoreData.injectCredentials_of_none {text : String}
    (h : ¬ s.HasPlaceholder text) : s.injectCredentials text = text := by
  have hnone : ∀ c ∈ s.credentials, contains text (placeholder c.1) = false := by
    intro c hc
    rw [Bool.eq_false_iff]
    intro htrue
    exact h ⟨c, hc, htrue⟩
  unfold injectCredentials
  generalize s.credentials = credentials at hnone
  induction credentials with
  | nil => rfl
  | cons c _ ih =>
    rw [forall_mem_cons] at hnone
    have hc : injectCredential text c = text := by simp [injectCredential, hnone.1]
    rw [foldl_cons, hc]
    exact ih hnone.2

theorem StoreData.injectHostCredentials_eq (U : UrlCrate) (urlHost : String)
    (request : List (String × String) × String) :
    s.injectHostCredentials U urlHost request
      = (((s.hostCredentials.filter (·.appliesTo urlHost)).flatMap (·.headers)).foldl
            insertEntry request.1,
          (s.hostCredentials.filter (·.appliesTo urlHost)).foldl
            (fun url cred =>
              if cred.queryParams.isEmpty then url else appendQuery U url cred.queryParams)
            request.2) := by
  unfold injectHostCredentials
  induction s.hostCredentials generalizing request with
  | nil => rfl
  | cons cred _ ih =>
    rw [foldl_cons, ih]
    by_cases happlies : cred.appliesTo urlHost = true
    · simp [happlies, ResolvedHostCredential.inject, foldl_append]
    · simp [happlies]

theorem StoreData.withCredentials_eq :
    s.withCredentials C r
      = ((s.hostHeaders C r).foldl insertEntry
            ((r.headers C).map fun h => (h.1, s.injectCredentials h.2)),
          s.urlWithParams C r) := by
  unfold withCredentials hostHeaders urlWithParams applicable
  cases hhost : extractHostFromUrl C (s.injectCredentials r.url) with
  | none => simp [hhost]
  | some => simp [hhost, injectHostCredentials_eq]

/-- What a map holds after a series of insertions: the last value inserted under
a key, or what it held if the key was not inserted. -/
theorem mem_foldl_insertEntry {inserted entries : List (String × String)} {k v : String} :
    (k, v) ∈ inserted.foldl insertEntry entries
      ↔ inserted.reverse.lookup k = some v ∨ (∀ e ∈ inserted, e.1 ≠ k) ∧ (k, v) ∈ entries := by
  -- from the right: the last insertion decides first
  induction inserted using reverseRecOn with
  | nil => simp
  | append_singleton inserted e ih =>
    rw [foldl_append, foldl_cons, foldl_nil, insertEntry,
      reverse_append, reverse_singleton, singleton_append]
    obtain ⟨k', v'⟩ := e
    by_cases hkey : k = k'
    · subst hkey
      simp [lookup_cons_self, eq_comm]
    · have hlookup : ((k', v') :: inserted.reverse).lookup k = inserted.reverse.lookup k := by
        have hother : (k == k') = false := by simpa using hkey
        rw [lookup_cons, hother]
      rw [hlookup, mem_cons, mem_filter, ih]
      have hkey' : k' ≠ k := Ne.symm hkey
      simp [hkey, hkey', or_imp, forall_and]

/-- The leak scan is reached by what the earlier checks let through, and refuses
exactly then. -/
theorem StoreData.passesLeakScan_iff_scan :
    s.PassesLeakScan C O r ↔ (s.Admits C r → s.scanResult C O r = .ok ()) := by
  unfold PassesLeakScan
  simp only [ne_eq, httpRequest_error_iff]
  cases hscan : s.scanResult C O r with
  | error | ok => simp

/-- A guest header comes through unblocked: unchanged it is clean, and changed it
carries a credential. -/
theorem StoreData.CarriersUnblocked.header (hclean : r.Clean C)
    (h : s.CarriersUnblocked C r) {entry : String × String}
    (hentry : entry ∈ (s.withCredentials C r).1) : ¬ Blocked C entry.2 := by
  obtain ⟨k, v⟩ := entry
  rw [withCredentials_eq, mem_foldl_insertEntry] at hentry
  rcases hentry with hset | ⟨hkept, hmem⟩
  · exact h.hostHeader k v hset
  obtain ⟨guest, hguest, heq⟩ := mem_map.mp hmem
  rw [Prod.mk.injEq] at heq
  obtain ⟨rfl, rfl⟩ := heq
  by_cases hplace : s.HasPlaceholder guest.2
  · exact h.guestHeader guest hguest hkept hplace
  show ¬ Blocked C (s.injectCredentials guest.2)
  rw [injectCredentials_of_none hplace]
  exact not_shouldBlock (hclean.headers guest hguest)

theorem StoreData.CarriersUnblocked.sentUrl (hclean : r.Clean C)
    (h : s.CarriersUnblocked C r) : ¬ Blocked C (s.urlWithParams C r) := by
  by_cases hplace : s.HasPlaceholder r.url
  · exact h.url (.inl hplace)
  by_cases hparams : ∃ cred ∈ s.applicable C r, cred.queryParams ≠ []
  · exact h.url (.inr hparams)
  -- nothing is written into the URL, so it is still the guest's
  have hsame : s.urlWithParams C r = r.url := by
    have hnone : ∀ cred ∈ s.applicable C r, cred.queryParams = [] := by
      intro cred hcred
      by_contra hne
      exact hparams ⟨cred, hcred, hne⟩
    unfold urlWithParams
    rw [injectCredentials_of_none hplace]
    generalize s.applicable C r = creds at hnone
    induction creds with
    | nil => rfl
    | cons _ _ ih =>
      rw [forall_mem_cons] at hnone
      rw [foldl_cons, hnone.1]
      exact ih hnone.2
  rw [hsame]
  exact not_shouldBlock hclean.url

/-- **The scan of a clean guest request** passes exactly if no text that carries
a credential is blocked. -/
theorem StoreData.scanResult_isOk_iff (hclean : r.Clean C) :
    s.scanResult C O r = .ok () ↔ s.CarriersUnblocked C r := by
  rw [scanResult, scanHttpRequest_isOk]
  constructor
  · intro ⟨hurl, hheaders, _⟩
    have hsent : ∀ k v, (k, v) ∈ (s.withCredentials C r).1 → ¬ Blocked C v := by
      intro k v hmem
      exact hheaders (k, v) ((O.iterate_perm _).mem_iff.mpr hmem)
    rw [withCredentials_eq] at hsent hurl
    constructor
    · intro k v hset
      apply hsent k v
      rw [mem_foldl_insertEntry]
      exact .inl hset
    · intro h hmem hkept _
      apply hsent h.1
      rw [mem_foldl_insertEntry]
      exact .inr ⟨hkept, mem_map.mpr ⟨h, hmem, rfl⟩⟩
    · intro _
      exact hurl
  · intro h
    refine ⟨?_, ?_, ?_⟩
    · rw [withCredentials_eq]
      exact h.sentUrl hclean
    · intro entry hentry
      exact h.header hclean ((O.iterate_perm _).mem_iff.mp hentry)
    · intro bytes hbytes
      exact not_shouldBlock (hclean.body bytes hbytes)

/-- **The leak scan of a clean guest request** fails exactly if the request gets
that far and a text that carries a credential is blocked; two stores get the
same verdict exactly if they agree on that. -/
theorem leak_verdict_iff (C : Crates) (O : Outside) (s s' : StoreData) (r : GuestRequest)
    (hclean : r.Clean C) :
    (s.PassesLeakScan C O r ↔ (s.Admits C r → s.CarriersUnblocked C r))
      ∧ ((s.PassesLeakScan C O r ↔ s'.PassesLeakScan C O r)
        ↔ ((s.Admits C r → s.CarriersUnblocked C r)
            ↔ (s'.Admits C r → s'.CarriersUnblocked C r))) := by
  have hverdict : ∀ t : StoreData,
      t.PassesLeakScan C O r ↔ (t.Admits C r → t.CarriersUnblocked C r) := by
    intro t
    rw [passesLeakScan_iff_scan, scanResult_isOk_iff hclean]
  exact ⟨hverdict s, by rw [hverdict s, hverdict s']⟩

/-! ## An API key in the Authorization header -/

/-- The crates on plain texts, when one URL is parsed and no other; what the
regexes find is left open. -/
def plainCrates (url : String) (parsed : Url) (regex : RegexEngine) : Crates where
  url :=
    { parse := fun text =>
        if text = url then .ok parsed else .error "relative URL without a base"
      decode := some
      encode := id }
  regex := regex
  cases := asciiCase
  debug := asciiDebug
  parseHeaders := fun json => if json = "\x7b\x7d" then some [] else none
  headersJson := fun _ => some "\x7b\x7d"
  parseIp := fun _ => none
  showIp := fun _ => ""
  fromUtf8 := fun _ => none
  fromUtf8Lossy := fun _ => ""

/-- A public address, and a server that cannot be reached. -/
def unreachable : Outside where
  iterate := id
  iterate_perm := fun _ => List.Perm.refl _
  resolve := fun _ => .ok [.v4 104 18 6 192]
  buildRuntime := .ok ()
  buildClient := .ok ()
  send := fun _ => .error ("error sending request", [])

/-- The key is found by the patterns for API keys and for bearer tokens. -/
def openaiCrates : Crates :=
  plainCrates "https://api.openai.com/v1/models"
    ⟨"https", "", none, some "api.openai.com", "/v1/models"⟩
    { findIter := fun regex content =>
        if content = "Bearer sk-aaaaaaaaaaaaaaaaaaaaaaaa" then
          if regex = openaiApiKey.regex then [⟨7, 34⟩]
          else if regex = bearerToken.regex then [⟨0, 34⟩]
          else []
        else [] }

variable (value : String)

/-- A store whose only credential is `value`, sent to one host as a bearer token. -/
def bearerStore : StoreData where
  hostState :=
    { http := some ⟨[⟨"api.openai.com", none, []⟩], 10485760⟩, httpRequestCount := 0 }
  credentials := []
  hostCredentials := [⟨["api.openai.com"], [("Authorization", "Bearer " ++ value)], [], value⟩]
  httpRuntime := false

def listModels : GuestRequest where
  method := "GET"
  url := "https://api.openai.com/v1/models"
  headersJson := "\x7b\x7d"
  body := none
  timeoutMs := none

theorem openaiCrates_finds_nothing {content : String}
    (h : content ≠ "Bearer sk-aaaaaaaaaaaaaaaaaaaaaaaa") :
    (new.scan openaiCrates.regex content).leakMatches = [] := by
  apply scan_of_no_find
  intro regex
  simp [openaiCrates, plainCrates, h]

theorem listModels_clean : listModels.Clean openaiCrates where
  url := openaiCrates_finds_nothing (by decide)
  headers := by decide
  body := nofun

theorem bearerStore_hostHeaders : (bearerStore value).hostHeaders openaiCrates listModels
      = [("Authorization", "Bearer " ++ value)] := by
  rfl

/-- The texts of the request that carry the token: its one header. -/
theorem bearerStore_unblocked_iff : (bearerStore value).CarriersUnblocked openaiCrates listModels
      ↔ ¬ Blocked openaiCrates ("Bearer " ++ value) := by
  constructor
  · intro h
    apply h.hostHeader "Authorization"
    rw [bearerStore_hostHeaders]
    rfl
  · intro hfree
    constructor
    · intro k v hset
      rw [bearerStore_hostHeaders, reverse_singleton] at hset
      have hv : "Bearer " ++ value = v := by
        rw [lookup_singleton] at hset
        by_cases hkey : (k == "Authorization") = true
        · simpa only [hkey, if_true, Option.some.injEq] using hset
        rw [if_neg hkey] at hset
        cases hset
      rw [← hv]
      exact hfree
    · intro h hmem
      cases hmem
    · intro _
      exact not_shouldBlock (openaiCrates_finds_nothing (show listModels.url ≠ _ by decide))

/-- A token that looks like no secret goes through. -/
theorem plain_token_passes :
    (bearerStore "test-token-123").PassesLeakScan openaiCrates unreachable listModels := by
  have hverdict := (leak_verdict_iff openaiCrates unreachable (bearerStore "test-token-123")
    (bearerStore "test-token-123") listModels listModels_clean).1
  apply hverdict.mpr
  intro _
  rw [bearerStore_unblocked_iff]
  exact not_shouldBlock (openaiCrates_finds_nothing (by decide))

theorem openai_key_blocked :
    listModels.Clean openaiCrates
      ∧ ¬ (bearerStore "sk-aaaaaaaaaaaaaaaaaaaaaaaa").PassesLeakScan openaiCrates unreachable
          listModels
      ∧ (bearerStore "test-token-123").PassesLeakScan openaiCrates unreachable
          listModels := by
  have hverdict : ∀ value,
      (bearerStore value).PassesLeakScan openaiCrates unreachable listModels
        ↔ ((bearerStore value).Admits openaiCrates listModels
          → ¬ Blocked openaiCrates ("Bearer " ++ value)) := by
    intro value
    rw [passesLeakScan_iff_scan, scanResult_isOk_iff listModels_clean, bearerStore_unblocked_iff]
  -- `sk-` stands in the header, so the pattern for API keys is run
  have hblocked : Blocked openaiCrates "Bearer sk-aaaaaaaaaaaaaaaaaaaaaaaa" := by
    apply scan_shouldBlock.mpr
    refine ⟨0, ?_, openaiApiKey, ⟨7, 34⟩, ⟨rfl, by decide +kernel⟩, rfl⟩
    rw [mem_candidateIndices_of_known (k := 0) rfl,
      search_independent (e := (0, "sk-")) (by decide)]
    decide +kernel
  have hallowed : (bearerStore "sk-aaaaaaaaaaaaaaaaaaaaaaaa").Allowed openaiCrates
      listModels := by
    unfold Allowed
    decide +kernel
  refine ⟨listModels_clean, ?_, ?_⟩
  · rw [hverdict]
    intro h
    exact h ⟨hallowed, by decide⟩ hblocked
  · rw [hverdict]
    intro _
    exact not_shouldBlock (openaiCrates_finds_nothing (by decide))

end TitanClaw.Tools.Wasm
