/-
  RealmCpp.Networking.Endpoint
  ────────────────────────────
  **WEBSOCKET ENDPOINTS, OF THE CORE AND OF THE SDK.**

  `to_websocket_endpoint` writes the endpoint of the core as a URL, and
  `to_core_websocket_endpoint` reads it.  The URL of an endpoint with a proxy has
  the port of the proxy.

  `endpoint_round_trip_iff` says which endpoints come back.
-/
import RealmCpp.Networking.Transport

namespace RealmCpp.Networking

open RealmCpp.Bridge (Callback CoreProxyConfig ProxyConfig)

/-! ## §1. The conversions. -/

/-- `ProtocolEnvelope`. -/
inductive ProtocolEnvelope where
  | realm
  | realms
  | ws
  | wss
  deriving DecidableEq

/-- `WebSocketEndpoint` of the core; `verify_servers_ssl_certificate` has no value
where it is as the core has it. -/
structure WebSocketEndpoint where
  address : String
  port : Nat
  path : String
  protocols : List String
  is_ssl : Bool
  headers : HTTPHeaders := []
  verify_servers_ssl_certificate : Option Bool := none
  ssl_trust_certificate_path : Option String := none
  ssl_verify_callback : Option Callback := none
  proxy : Option CoreProxyConfig := none

/-- `websocket_endpoint` of the SDK. -/
structure SdkEndpoint where
  protocols : List String
  url : String

/-- What the conversions use of the core. -/
structure Core where
  uri : String → Uri
  is_ssl : ProtocolEnvelope → Bool
  base64_encode : String → String

/-- `to_protocol_envelope`, which ends the program for other schemes. -/
def to_protocol_envelope (protocol : String) : Option ProtocolEnvelope :=
  if protocol = "realm:" then some .realm
  else if protocol = "realms:" then some .realms
  else if protocol = "ws:" then some .ws
  else if protocol = "wss:" then some .wss
  else none

/-- An `int` as a port, a 64-bit number. -/
def to_port (n : Int) : Nat := (n % 18446744073709551616).toNat

/-- Send an endpoint through a proxy. -/
def with_proxy (core : Core) (proxy : ProxyConfig) (core_ep : WebSocketEndpoint) :
    WebSocketEndpoint :=
  let core_ep := { core_ep with proxy := some ⟨proxy.address, proxy.port⟩ }
  match proxy.username_password with
  | none => core_ep
  | some (username, password) =>
      { core_ep with
        headers := core_ep.headers.emplace "Proxy-Authorization"
          ("Basic " ++ core.base64_encode s!"{username}:{password}") }

/-- What the configuration adds to an endpoint: custom headers replace those of the
proxy. -/
def configure (core : Core) (config : Configuration) (core_ep : WebSocketEndpoint) :
    WebSocketEndpoint :=
  let core_ep := (config.proxy_config.map fun proxy => with_proxy core proxy core_ep).getD core_ep
  { core_ep with
    headers := config.custom_http_headers.getD core_ep.headers
    verify_servers_ssl_certificate := some config.client_validate_ssl
    ssl_trust_certificate_path := config.ssl_trust_certificate_path
    ssl_verify_callback := config.ssl_verify_callback }

/-- `to_core_websocket_endpoint`; there is none where the program ends or
`std::stoi` throws. -/
def to_core_websocket_endpoint (core : Core) (ep : SdkEndpoint) (config : Option Configuration) :
    Option WebSocketEndpoint := do
  let uri := core.uri ep.url
  let protocol ← to_protocol_envelope uri.scheme
  let is_ssl := core.is_ssl protocol
  -- a URL without a port gets that of its scheme
  let port ←
    if uri.port.isEmpty then some (if is_ssl then 443 else 80) else (stoi uri.port).map to_port
  let core_ep : WebSocketEndpoint :=
    { address := uri.host
      port := port
      path := uri.path ++ uri.query
      protocols := ep.protocols
      is_ssl := is_ssl }
  match config with
  | none => some core_ep
  | some config => some (configure core config core_ep)

/-- `to_websocket_endpoint`. -/
def to_websocket_endpoint (core_ep : WebSocketEndpoint) : SdkEndpoint :=
  -- the URL has the address of the server, but the port of the proxy
  let port :=
    match core_ep.proxy with
    | some proxy => proxy.port
    | none => core_ep.port
  { protocols := core_ep.protocols
    url := urlText (if core_ep.is_ssl then "wss" else "ws") core_ep.address (toString port)
      core_ep.path }

/-! ## §2. The round trip. -/

/-- An endpoint with a host, a port and a path. -/
structure WellFormed (ep : WebSocketEndpoint) : Prop where
  address : IsHost ep.address
  port : 1 ≤ ep.port ∧ ep.port ≤ 65535
  slash : ep.path.toList.head? = some '/'
  fragment : '#' ∉ ep.path.toList

/-- What is behind `util::Uri` and `is_ssl`. -/
structure Core.Documented (core : Core) : Prop where
  uri : SplitsUrls core.uri
  wss : core.is_ssl .wss = true
  ws : core.is_ssl .ws = false

/-- What should come back of an endpoint. -/
structure SameEndpoint (ep ep' : WebSocketEndpoint) : Prop where
  address : ep'.address = ep.address
  port : ep'.port = ep.port
  path : ep'.path = ep.path
  is_ssl : ep'.is_ssl = ep.is_ssl
  protocols : ep'.protocols = ep.protocols

/-- The port that is in the URL. -/
def urlPort (ep : WebSocketEndpoint) : Nat :=
  match ep.proxy with
  | some proxy => proxy.port
  | none => ep.port

section
variable {core : Core} {ep : WebSocketEndpoint}

/-- The scheme that is in the URL. -/
theorem to_protocol_envelope_scheme (hcore : core.Documented) (is_ssl : Bool) :
    ∃ protocol, to_protocol_envelope ((if is_ssl then "wss" else "ws") ++ ":") = some protocol ∧
      core.is_ssl protocol = is_ssl := by
  cases is_ssl with
  | true => exact ⟨.wss, rfl, hcore.wss⟩
  | false => exact ⟨.ws, rfl, hcore.ws⟩

theorem isUrl_of_wellFormed (hep : WellFormed ep) :
    IsUrl (if ep.is_ssl then "wss" else "ws") ep.address (toString (urlPort ep)) ep.path where
  scheme := by
    cases ep.is_ssl with
    | true => exact ⟨by decide, List.all_eq_true.mp rfl⟩
    | false => exact ⟨by decide, List.all_eq_true.mp rfl⟩
  host := hep.address
  port c hc := by
    rw [Nat.toString_eq_repr, Nat.toList_repr] at hc
    exact Nat.isDigit_of_mem_toDigits (by omega) (by omega) hc
  slash := hep.slash
  fragment := hep.fragment

theorem SameEndpoint.with_proxy {ep' : WebSocketEndpoint} (h : SameEndpoint ep ep')
    (proxy : ProxyConfig) : SameEndpoint ep (with_proxy core proxy ep') := by
  unfold RealmCpp.Networking.with_proxy
  dsimp only
  split
  · exact ⟨h.address, h.port, h.path, h.is_ssl, h.protocols⟩
  · exact ⟨h.address, h.port, h.path, h.is_ssl, h.protocols⟩

/-- A configuration leaves alone what should come back. -/
theorem SameEndpoint.configure {ep' : WebSocketEndpoint} (h : SameEndpoint ep ep')
    (config : Configuration) : SameEndpoint ep (configure core config ep') := by
  have hproxy : SameEndpoint ep
      ((config.proxy_config.map fun proxy => RealmCpp.Networking.with_proxy core proxy ep').getD
        ep') := by
    cases config.proxy_config with
    | none => exact h
    | some proxy => exact h.with_proxy proxy
  exact ⟨hproxy.address, hproxy.port, hproxy.path, hproxy.is_ssl, hproxy.protocols⟩

/-- What the URL of an endpoint is read as: the endpoint, with the port of the URL. -/
theorem to_core_to_websocket_endpoint (hcore : core.Documented) (hep : WellFormed ep)
    (config : Option Configuration) (hport : urlPort ep ≤ 2147483647) :
    ∃ ep', to_core_websocket_endpoint core (to_websocket_endpoint ep) config = some ep' ∧
      SameEndpoint { ep with port := urlPort ep } ep' := by
  have hurl := isUrl_of_wellFormed hep
  obtain ⟨protocol, hprotocol, hssl⟩ := to_protocol_envelope_scheme hcore ep.is_ssl
  have hvalue : to_port (urlPort ep : Int) = urlPort ep := by
    unfold to_port
    omega
  -- every part of the URL is read as it was written
  have hread : to_core_websocket_endpoint core (to_websocket_endpoint ep) config =
      match config with
      | none => some ⟨ep.address, urlPort ep, ep.path, ep.protocols, ep.is_ssl, [], none, none, none,
          none⟩
      | some config => some (configure core config ⟨ep.address, urlPort ep, ep.path, ep.protocols,
          ep.is_ssl, [], none, none, none, none⟩) := by
    show to_core_websocket_endpoint core
      ⟨ep.protocols, urlText (if ep.is_ssl then "wss" else "ws") ep.address (toString (urlPort ep))
        ep.path⟩ config = _
    unfold to_core_websocket_endpoint
    simp only [hcore.uri.scheme hurl, hcore.uri.host hurl, hcore.uri.port hurl, hcore.uri.rest hurl,
      hprotocol, hssl, isEmpty_toString, stoi_toString, if_pos hport, Option.map_some, hvalue,
      Option.bind_eq_bind, Option.bind_some, Bool.false_eq_true, if_false]
  rw [hread]
  cases config with
  | none => exact ⟨_, rfl, rfl, rfl, rfl, rfl, rfl⟩
  | some config =>
    refine ⟨_, rfl, ?_⟩
    apply SameEndpoint.configure
    exact ⟨rfl, rfl, rfl, rfl, rfl⟩

/-- A port that is no `int` is not read. -/
theorem to_core_to_websocket_endpoint_none (hcore : core.Documented) (hep : WellFormed ep)
    (config : Option Configuration) (hport : ¬ urlPort ep ≤ 2147483647) :
    to_core_websocket_endpoint core (to_websocket_endpoint ep) config = none := by
  have hurl := isUrl_of_wellFormed hep
  obtain ⟨protocol, hprotocol, hssl⟩ := to_protocol_envelope_scheme hcore ep.is_ssl
  show to_core_websocket_endpoint core
    ⟨ep.protocols, urlText (if ep.is_ssl then "wss" else "ws") ep.address (toString (urlPort ep))
      ep.path⟩ config = _
  unfold to_core_websocket_endpoint
  simp only [hcore.uri.scheme hurl, hcore.uri.port hurl, hprotocol, isEmpty_toString,
    stoi_toString, if_neg hport, Option.map_none, Option.bind_eq_bind, Option.bind_some, Option.bind_none,
    Bool.false_eq_true, if_false]

/-- The port in the URL is that of the endpoint, unless the proxy has another. -/
theorem urlPort_eq_iff :
    urlPort ep = ep.port ↔ ∀ proxy, ep.proxy = some proxy → proxy.port = ep.port := by
  unfold urlPort
  cases ep.proxy <;> simp

end

/-- **An endpoint comes back exactly if it has no proxy on another port.** -/
theorem endpoint_round_trip_iff (core : Core) (ep : WebSocketEndpoint) (config : Option Configuration)
    (hcore : core.Documented) (hep : WellFormed ep) :
    (∃ ep', to_core_websocket_endpoint core (to_websocket_endpoint ep) config = some ep' ∧
      SameEndpoint ep ep') ↔
      ∀ proxy, ep.proxy = some proxy → proxy.port = ep.port := by
  rw [← urlPort_eq_iff]
  by_cases hport : urlPort ep ≤ 2147483647
  · obtain ⟨ep', hread, hsame⟩ := to_core_to_websocket_endpoint hcore hep config hport
    constructor
    · intro ⟨ep'', hread', hsame'⟩
      rw [hread] at hread'
      cases hread'
      -- the port that is read is that of the URL
      rw [← hsame'.port, hsame.port]
    · intro heq
      refine ⟨ep', hread, hsame.address, ?_, hsame.path, hsame.is_ssl, hsame.protocols⟩
      rw [hsame.port, ← heq]
  · -- only a proxy can have a port that is no `int`
    have hread := to_core_to_websocket_endpoint_none hcore hep config hport
    have hrange := hep.port.2
    constructor
    · intro ⟨ep', hread', _⟩
      rw [hread] at hread'
      cases hread'
    · intro heq
      omega

/-- The core, as far as it is used here. -/
def exampleCore : Core := ⟨splitUrl, fun p => p = .realms ∨ p = .wss, id⟩

theorem exampleCore_documented : exampleCore.Documented := ⟨splitsUrls_splitUrl, rfl, rfl⟩

def syncServer : WebSocketEndpoint :=
  { address := "localhost", port := 9090, path := "/sync?a=b", protocols := ["sync"], is_ssl := true }

theorem wellFormed_syncServer (proxy : Option CoreProxyConfig) :
    WellFormed { syncServer with proxy := proxy } := by
  have hhost : ∀ c ∈ "localhost".toList, c.isAlphanum = true := List.all_eq_true.mp rfl
  have hserver : WellFormed syncServer :=
    ⟨⟨by decide, fun c hc => .inl (hhost c hc)⟩, by decide, by decide, by decide⟩
  exact ⟨hserver.address, hserver.port, hserver.slash, hserver.fragment⟩

theorem round_trip_syncServer :
    ∃ ep', to_core_websocket_endpoint exampleCore (to_websocket_endpoint syncServer) none = some ep' ∧
      SameEndpoint syncServer ep' :=
  (endpoint_round_trip_iff exampleCore syncServer none exampleCore_documented
    (wellFormed_syncServer none)).mpr nofun

/-- **Behind a proxy on port 8080, the server is on that port.** -/
theorem proxy_port_returned :
    ¬ ∃ ep', to_core_websocket_endpoint exampleCore
        (to_websocket_endpoint { syncServer with proxy := some ⟨"proxy", 8080⟩ }) none = some ep' ∧
      SameEndpoint { syncServer with proxy := some ⟨"proxy", 8080⟩ } ep' := by
  obtain ⟨ep', hread, hsame⟩ := to_core_to_websocket_endpoint exampleCore_documented
    (wellFormed_syncServer (some ⟨"proxy", 8080⟩)) none (by decide)
  intro ⟨ep'', hread', hsame'⟩
  rw [hread] at hread'
  cases hread'
  have hport : 8080 = 9090 := hsame.port.symm.trans hsame'.port
  omega

end RealmCpp.Networking
