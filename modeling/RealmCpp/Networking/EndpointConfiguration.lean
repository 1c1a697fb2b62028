/-
  RealmCpp.Networking.EndpointConfiguration
  ─────────────────────────────────────────
  **WHAT A WEBSOCKET ENDPOINT HAS OF THE CONFIGURATION.**

  The credentials of a proxy become a header of the endpoint, and the custom headers
  are assigned over it.

    • `Reaches` — what the endpoint should have,
    • `configure_reaches_iff` — of which configurations it has that,
    • `configuration_reaches_iff` — from any websocket URL.
-/
import RealmCpp.Networking.Endpoint
import RealmCpp.Networking.RequestPort

namespace RealmCpp.Networking

open RealmCpp.Bridge (ProxyConfig)

/-- A URL whose scheme is one of a websocket, with or without a port. -/
structure IsWebsocketUrl (core : Core) (url : String) : Prop where
  scheme : (to_protocol_envelope (core.uri url).scheme).isSome = true
  port : ∃ p, PortText (core.uri url).port p

/-- The custom headers define a header. -/
def Configuration.Defines (config : Configuration) (name : String) : Prop :=
  ∃ value, (name, value) ∈ config.custom_http_headers.getD []

/-- **The configuration is in the endpoint, in full.** -/
structure Reaches (core : Core) (config : Configuration) (core_ep : WebSocketEndpoint) : Prop where
  custom : ∀ e ∈ config.custom_http_headers.getD [], e ∈ core_ep.headers
  authorization : ∀ proxy username password, config.proxy_config = some proxy →
    proxy.username_password = some (username, password) →
    ¬ config.Defines "Proxy-Authorization" →
      ("Proxy-Authorization", "Basic " ++ core.base64_encode s!"{username}:{password}") ∈
        core_ep.headers
  proxy : core_ep.proxy = config.proxy_config.map ProxyConfig.toCore
  certificates : core_ep.ssl_trust_certificate_path = config.ssl_trust_certificate_path
  callback : core_ep.ssl_verify_callback = config.ssl_verify_callback
  validation : core_ep.verify_servers_ssl_certificate = some config.client_validate_ssl

section

variable {core : Core} {config : Configuration} {core_ep : WebSocketEndpoint}

/-- The headers of an endpoint: what the custom ones replace is gone. -/
theorem configure_headers (config : Configuration) (core_ep : WebSocketEndpoint) :
    (configure core config core_ep).headers = config.custom_http_headers.getD
      ((config.proxy_config.map fun proxy => with_proxy core proxy core_ep).getD core_ep).headers :=
  rfl

/-- The header that the credentials of a proxy become. -/
theorem with_proxy_authorization {proxy : ProxyConfig} {username password : String}
    (h : proxy.username_password = some (username, password)) (hheaders : core_ep.headers = []) :
    ("Proxy-Authorization", "Basic " ++ core.base64_encode s!"{username}:{password}") ∈
      (with_proxy core proxy core_ep).headers := by
  unfold with_proxy
  rw [h]
  dsimp only
  rw [hheaders]
  exact List.mem_singleton.mpr rfl

theorem configure_proxy (config : Configuration) (hproxy : core_ep.proxy = none) :
    (configure core config core_ep).proxy = config.proxy_config.map ProxyConfig.toCore := by
  show ((config.proxy_config.map fun proxy => with_proxy core proxy core_ep).getD core_ep).proxy = _
  cases config.proxy_config with
  | none => exact hproxy
  | some proxy =>
    show (with_proxy core proxy core_ep).proxy = some proxy.toCore
    unfold with_proxy
    cases proxy.username_password <;> rfl

/-- **What reaches a new endpoint**: everything, unless custom headers that do not define
it replace the header of the credentials. -/
theorem configure_reaches_iff (hproxy : core_ep.proxy = none) (hheaders : core_ep.headers = []) :
    Reaches core config (configure core config core_ep) ↔
      (∃ proxy, config.proxy_config = some proxy ∧ proxy.username_password.isSome = true) →
        config.custom_http_headers.isSome = true → config.Defines "Proxy-Authorization" := by
  constructor
  · rintro h ⟨proxy, hsome, huserpass⟩ hcustom
    obtain ⟨⟨username, password⟩, huserpass⟩ := Option.isSome_iff_exists.mp huserpass
    obtain ⟨custom, hcustom⟩ := Option.isSome_iff_exists.mp hcustom
    -- where they do not, the header would be among the custom ones
    by_contra hdefines
    have hmem := h.authorization proxy username password hsome huserpass hdefines
    rw [configure_headers, hcustom] at hmem
    unfold Configuration.Defines at hdefines
    rw [hcustom] at hdefines
    exact hdefines ⟨_, hmem⟩
  · intro h
    refine ⟨?_, ?_, configure_proxy config hproxy, rfl, rfl, rfl⟩
    · intro e he
      rw [configure_headers]
      cases hcustom : config.custom_http_headers with
      | none =>
        rw [hcustom] at he
        exact absurd he List.not_mem_nil
      | some custom =>
        rw [hcustom] at he
        exact he
    · intro proxy username password hsome huserpass hdefines
      rw [configure_headers]
      cases hcustom : config.custom_http_headers with
      | none =>
        rw [hsome]
        exact with_proxy_authorization huserpass hheaders
      | some custom =>
        -- there are custom headers, and so they define it
        have hcredentials : proxy.username_password.isSome = true := by rw [huserpass]; rfl
        exact absurd (h ⟨proxy, hsome, hcredentials⟩ (by rw [hcustom]; rfl)) hdefines

/-- A websocket URL is converted. -/
theorem exists_core_endpoint {ep : SdkEndpoint} (hurl : IsWebsocketUrl core ep.url)
    (config : Configuration) :
    ∃ core_ep : WebSocketEndpoint, core_ep.proxy = none ∧ core_ep.headers = [] ∧
      to_core_websocket_endpoint core ep (some config) = some (configure core config core_ep) := by
  obtain ⟨protocol, hprotocol⟩ := Option.isSome_iff_exists.mp hurl.scheme
  obtain ⟨p, hp⟩ := hurl.port
  unfold to_core_websocket_endpoint
  simp only [hprotocol, Option.bind_eq_bind, Option.bind_some]
  cases p with
  | none =>
    -- without a port, that of the scheme
    have hempty : (core.uri ep.url).port.isEmpty = true := by
      rw [show (core.uri ep.url).port = "" from hp]
      rfl
    rw [if_pos hempty]
    exact ⟨_, rfl, rfl, rfl⟩
  | some p =>
    have htext : IsPort (core.uri ep.url).port p := hp
    rw [htext.isEmpty, htext.stoi]
    exact ⟨_, rfl, rfl, rfl⟩

end

/-- **Which configurations reach the endpoint in full**, from a websocket URL: those
without credentials of a proxy, without custom headers, or with custom headers that
define `Proxy-Authorization`. -/
theorem configuration_reaches_iff (core : Core) (ep : SdkEndpoint) (config : Configuration)
    (hurl : IsWebsocketUrl core ep.url) :
    (∃ core_ep, to_core_websocket_endpoint core ep (some config) = some core_ep ∧
      Reaches core config core_ep) ↔
      ((∃ proxy, config.proxy_config = some proxy ∧ proxy.username_password.isSome = true) →
        config.custom_http_headers.isSome = true → config.Defines "Proxy-Authorization") := by
  obtain ⟨core_ep, hproxy, hheaders, hconvert⟩ := exists_core_endpoint hurl config
  rw [hconvert, ← configure_reaches_iff hproxy hheaders]
  constructor
  · intro ⟨core_ep', hsome, hreaches⟩
    cases hsome
    exact hreaches
  · intro hreaches
    exact ⟨_, rfl, hreaches⟩

/-- A proxy that has to be authenticated to, and custom headers. -/
def authenticated (custom : Option (List (String × String))) : Configuration :=
  ⟨custom, some ⟨"127.0.0.1", 1234, some ("foo", "bar")⟩, true, some "test_path", none⟩

/-- The URL is split as it should be. -/
def myServer : Core :=
  ⟨fun _ => ⟨"wss:", "", "my-server.com", "443", "", ""⟩, fun p => p = .realms ∨ p = .wss, id⟩

theorem isWebsocketUrl_myServer : IsWebsocketUrl myServer "wss://my-server.com:443" :=
  ⟨rfl, some 443, isPort_443⟩

theorem configuration_reaches_authenticated :
    ∃ core_ep, to_core_websocket_endpoint myServer ⟨["test_protocol"], "wss://my-server.com:443"⟩
        (some (authenticated none)) = some core_ep ∧
      Reaches myServer (authenticated none) core_ep :=
  (configuration_reaches_iff myServer ⟨["test_protocol"], "wss://my-server.com:443"⟩
    (authenticated none) isWebsocketUrl_myServer).mpr fun _ h => by cases h

/-- **With a custom header, the credentials are lost.** -/
theorem credentials_replaced :
    ¬ ∃ core_ep, to_core_websocket_endpoint myServer
        ⟨["test_protocol"], "wss://my-server.com:443"⟩ (some (authenticated (some [("X-App", "1")])))
          = some core_ep ∧
      Reaches myServer (authenticated (some [("X-App", "1")])) core_ep := by
  rintro ⟨core_ep, hconvert, hreaches⟩
  cases hconvert
  have hdefines : ¬ (authenticated (some [("X-App", "1")])).Defines "Proxy-Authorization" := by
    rintro ⟨value, hmem⟩
    simp [authenticated] at hmem
  have hmem := hreaches.authorization _ "foo" "bar" rfl rfl hdefines
  have hheaders : ("Proxy-Authorization", _) ∈ [("X-App", "1")] := hmem
  simp at hheaders

end RealmCpp.Networking
