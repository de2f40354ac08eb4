import Mathlib
import CodexResetProxy.Library.Url
import CodexResetProxy.Library.PyFloat

/-!
The settings of the proxy, with the defaults of the source, and what the model
leaves to the Python runtime.

* `Settings`: the fields of the dataclass, in its order.
* `Runtime`: functions of the interpreter and its standard library that nothing
  here depends on in detail; `Runtime.lower` is exact on Latin-1.
-/

namespace CodexResetProxy

open PyStr

/-- The values of `listen_protocol`. -/
inductive ListenProtocol where
  | httpReverse
  | socks5Tunnel
  | socks5Mitm
  deriving DecidableEq

/-- The values of `transport_mode`. -/
inductive TransportMode where
  | http
  | websocketPerRequest
  deriving DecidableEq

/-- `Settings`. Times are in seconds. -/
structure Settings where
  upstreamBaseUrl : PyStr := []
  upstreamApiKey : Option PyStr := none
  upstreamApiKeyHeader : PyStr := py "Authorization"
  upstreamApiKeyPrefix : PyStr := py "Bearer "
  listenProtocol : ListenProtocol := .httpReverse
  listenHost : PyStr := py "0.0.0.0"
  listenPort : ℕ := 8000
  outboundProxy : Option PyStr := none
  transportMode : TransportMode := .http
  interceptHost : PyStr := []
  interceptPaths : List PyStr := [py "/backend-api/codex/responses"]
  mitmCertDir : PyStr := py "/data/certs"
  responseHeaderTimeoutSeconds : PyFloat := 30
  upstreamMaxAttempts : ℕ := 2
  connectTimeoutSeconds : PyFloat := 10
  writeTimeoutSeconds : PyFloat := 30
  poolTimeoutSeconds : PyFloat := 10
  websocketFirstMessageTimeoutSeconds : PyFloat := 30
  websocketIdleTimeoutSeconds : PyFloat := 600
  websocketProcessedTimeoutSeconds : PyFloat := 10
  websocketSendResponseProcessed : Bool := true
  websocketPoolEnabled : Bool := false
  websocketPoolMaxIdle : ℕ := 8
  websocketPoolIdleTimeoutSeconds : PyFloat := 300
  websocketPoolKeyHeaders : List PyStr :=
    [py "authorization", py "cookie", py "x-api-key", py "api-key", py "openai-organization",
      py "openai-project", py "chatgpt-account-id"]
  maxRequestBodyBytes : ℕ := 32 * 1024 * 1024
  retryBackoffSeconds : PyFloat := .finite (1 / 4)
  logLevel : PyStr := py "INFO"

/-- What is left to the runtime: how many containers `json.loads` can open in one
another, `hashlib.sha256(b).hexdigest()`, `str.lower` beyond Latin-1, `str.upper`,
`format(x, "g")`, `int(s)` and `float(s)` where they do not raise, and two checks of
`urlsplit`. -/
structure Runtime where
  depth : ℕ
  sha256 : ByteArray → PyStr
  lowerWide : PyStr → PyStr
  upper : PyStr → PyStr
  formatG : PyFloat → String
  parseInt : PyStr → Option ℤ
  parseFloat : PyStr → Option PyFloat
  bracketedHost : PyStr → Bool
  nfkcNetloc : PyStr → Bool

/-- `str.lower` on a character of Latin-1. -/
def lowerLatin1 (c : ℕ) : ℕ :=
  if (0x41 ≤ c ∧ c ≤ 0x5a) ∨ (0xc0 ≤ c ∧ c ≤ 0xde ∧ c ≠ 0xd7) then c + 0x20 else c

/-- `str.lower`. -/
def Runtime.lower (rt : Runtime) (s : PyStr) : PyStr :=
  if ∀ c ∈ s, c < 0x100 then s.map lowerLatin1 else rt.lowerWide s

/-- `urlsplit`. -/
def Runtime.urlsplit (rt : Runtime) (url : PyStr) : Option Url.SplitResult :=
  Url.urlsplit rt.bracketedHost rt.nfkcNetloc url

lemma Runtime.lt_of_mem_lower {rt : Runtime} {s : PyStr} (hs : ∀ c ∈ s, c < 0x100) :
    ∀ c ∈ rt.lower s, c < 0x100 := by
  rw [Runtime.lower, if_pos hs]
  intro c hc
  obtain ⟨d, hd, rfl⟩ := List.mem_map.mp hc
  have := hs d hd
  rw [lowerLatin1]
  split_ifs <;> omega

/-- Settings and runtime. -/
structure Config where
  settings : Settings
  runtime : Runtime

/-! ### A configuration -/

/-- What `hashlib.sha256` makes of some inputs. -/
def sampleDigests : List (String × String) :=
  [("[]", "4f53cda18c2baa0c0354bb5f9a3ecbe5ed12ab4d8e11ba873c2f11161202b945"),
    ("[[\"authorization\",\"Bearer a\"]]",
      "b1c0a2f6faf0cdd2ff622344084e70d79765f4151b1c3229988d4ce82ffa0d03"),
    ("[[\"cookie\",\"a=b\"],[\"x-token\",\"\\u00e9\"]]",
      "b305fce4174a4d7b3308c410618d8f705e3ac04dd46d76aa50a7b54795a051fe")]

/-- The digests of these inputs, without collisions on the others. -/
def sampleSha256 (b : ByteArray) : PyStr :=
  match sampleDigests.find? fun p => p.1.toUTF8 = b with
  | some p => py p.2
  | none => 0x78 :: b.data.toList.map UInt8.toNat

/-- Pooling, and retries at once. -/
def sampleConfig : Config where
  settings := { websocketPoolEnabled := true, retryBackoffSeconds := 0 }
  runtime :=
    { depth := 1000
      sha256 := sampleSha256
      lowerWide := id
      upper := fun s => s.map fun c => if 0x61 ≤ c ∧ c ≤ 0x7a then c - 0x20 else c
      formatG := fun x =>
        match x with
        | .finite q => toString q.num
        | .posInf => "inf"
        | .negInf => "-inf"
        | .nan => "nan"
      parseInt := fun s =>
        if s ≠ [] ∧ ∀ c ∈ s, 0x30 ≤ c ∧ c ≤ 0x39 then
          some (s.foldl (fun n c => n * 10 + (c - 0x30)) 0)
        else none
      parseFloat := fun s =>
        if s ≠ [] ∧ ∀ c ∈ s, 0x30 ≤ c ∧ c ≤ 0x39 then
          some (.finite (s.foldl (fun n c => n * 10 + (c - 0x30)) 0 : ℕ))
        else if s = py "inf" then some .posInf
        else if s = py "nan" then some .nan
        else none
      bracketedHost := fun s => s = py "::1"
      nfkcNetloc := fun _ => true }

end CodexResetProxy
