/-
  RealmCpp.Networking.RequestPort
  ───────────────────────────────
  **THE PORT THAT A REQUEST GOES TO.**

  The port of the URL is read once.  A proxy is asked to connect to it, and an IPv4
  address is connected to on it; a name is resolved with a port of its own.

    • `requested_port` — the port that a request is for,
    • `GoesToPort` — it is asked for, or connected to,
    • `request_port_iff` — when it is.
-/
import RealmCpp.Networking.Transport

namespace RealmCpp.Networking

open RealmCpp.Bridge (ProxyConfig)

/-- A port as text, in decimal. -/
structure IsPort (text : String) (p : Nat) : Prop where
  nonempty : text.toList ≠ []
  digits : ∀ c ∈ text.toList, c.isDigit = true
  value : Nat.ofDigitChars 10 text.toList 0 = p
  range : p ≤ 65535

/-- What `get_auth` gives for a URL with this port: without one, the empty text. -/
def PortText (text : String) : Option Nat → Prop
  | none => text = ""
  | some p => IsPort text p

/-- The default port chosen for a host. -/
def default_port (host : String) : Nat := if host = "localhost" then 9090 else 443

/-- The port that a request to a host is for. -/
def requested_port (host : String) (p : Option Nat) : Nat := p.getD (default_port host)

/-- A host is resolved to endpoints on the port that is asked for. -/
def Network.ResolvesPorts (net : Network) : Prop :=
  ∀ host service p ep, IsPort service p → net.resolve host service = some ep → ep.port = p

section

variable (net : Network) (configuration : Configuration) (request : Request)

/-- **The request goes to its port**: the endpoint that is connected to is on it, or
the proxy is asked to connect to the host and that port. -/
def GoesToPort (p : Option Nat) : Prop :=
  match configuration.proxy_config with
  | none => ∀ ep, find_endpoint net configuration request = .ok ep →
      ep.port = requested_port (net.host request) p
  | some proxy => ∃ text, IsPort text (requested_port (net.host request) p) ∧
      ("Host", net.host request ++ ":" ++ text) ∈ (connect_request net request proxy).headers

end

section

variable {net : Network} {configuration : Configuration} {request : Request} {p : Option Nat}

theorem IsPort.stoi {text : String} {p : Nat} (h : IsPort text p) : stoi text = some (p : Int) := by
  have hrange := h.range
  rw [stoi_digits h.digits h.nonempty, h.value, if_pos (by omega)]

theorem IsPort.isEmpty {text : String} {p : Nat} (h : IsPort text p) : text.isEmpty = false := by
  rw [← Bool.not_eq_true, String.isEmpty_iff]
  intro hempty
  apply h.nonempty
  rw [hempty]
  rfl

theorem isPort_9090 : IsPort "9090" 9090 :=
  ⟨by decide, List.all_eq_true.mp rfl, by decide, by omega⟩

theorem isPort_443 : IsPort "443" 443 :=
  ⟨by decide, List.all_eq_true.mp rfl, by decide, by omega⟩

/-- The default port, as it is written in the function. -/
theorem isPort_default (net : Network) (request : Request) :
    IsPort (if net.is_localhost request then "9090" else "443")
      (default_port (net.host request)) := by
  unfold default_port Network.is_localhost
  by_cases hlocal : net.host request = "localhost"
  · rw [if_pos hlocal, if_pos (by simpa using hlocal)]
    exact isPort_9090
  · rw [if_neg hlocal, if_neg (by simpa using hlocal)]
    exact isPort_443

/-- **The port that is kept is the one that the request is for.** -/
theorem isPort_port (hport : PortText (net.uri request.url).port p) :
    IsPort (net.port request) (requested_port (net.host request) p) := by
  unfold Network.port
  dsimp only
  cases p with
  | none =>
    have hempty : (net.uri request.url).port = "" := hport
    rw [hempty, if_pos (show "".isEmpty = true from rfl)]
    exact isPort_default net request
  | some p =>
    have htext : IsPort (net.uri request.url).port p := hport
    rw [htext.isEmpty, if_neg (by simp)]
    exact htext

/-- A proxy is always asked for the host and that port. -/
theorem goesToPort_of_proxy {proxy : ProxyConfig} (hproxy : configuration.proxy_config = some proxy)
    (hport : PortText (net.uri request.url).port p) :
    GoesToPort net configuration request p := by
  unfold GoesToPort
  rw [hproxy]
  refine ⟨net.port request, isPort_port hport, ?_⟩
  have hhost : ("Host", net.host request ++ ":" ++ net.port request)
      ∈ HTTPHeaders.emplace [] "Host" s!"{net.host request}:{net.port request}" :=
    List.mem_singleton.mpr rfl
  unfold connect_request
  cases proxy.username_password with
  | none => exact hhost
  | some userpass => exact HTTPHeaders.mem_emplace hhost _ _

/-- An address is connected to on the port of the URL. -/
theorem goesToPort_of_ipv4 (hproxy : configuration.proxy_config = none)
    (hipv4 : is_valid_ipv4 (net.host request) = true)
    (hport : PortText (net.uri request.url).port p) :
    GoesToPort net configuration request p := by
  unfold GoesToPort find_endpoint
  rw [hproxy]
  intro ep hep
  dsimp only at hep
  rw [if_pos hipv4, (isPort_port hport).stoi] at hep
  cases hep
  rfl

/-- **A name is resolved with the default port**, whatever the port of the URL. -/
theorem goesToPort_of_name (hresolve : net.ResolvesPorts)
    (hproxy : configuration.proxy_config = none)
    (hipv4 : ¬ is_valid_ipv4 (net.host request) = true) :
    GoesToPort net configuration request p ↔
      requested_port (net.host request) p = default_port (net.host request) ∨
        net.resolve (net.host request)
          (if net.is_localhost request then "9090" else "443") = none := by
  have hdefault := isPort_default net request
  unfold GoesToPort find_endpoint
  rw [hproxy]
  dsimp only
  rw [if_neg hipv4]
  cases hep : net.resolve (net.host request)
      (if net.is_localhost request then "9090" else "443") with
  | none =>
    refine iff_of_true ?_ (.inr rfl)
    intro ep h
    cases h
  | some ep =>
    -- the endpoint is on the default port
    have hep_port := hresolve _ _ _ ep hdefault hep
    constructor
    · intro h
      left
      have hrequested := h ep rfl
      omega
    · intro h ep' hep'
      have hequal := h.resolve_right (by simp)
      cases hep'
      omega

end

/-- **When a request goes to its port**: there is a proxy, the host is an IPv4 address,
the port is the default one of the host, or the host does not resolve. -/
theorem request_port_iff (net : Network) (configuration : Configuration) (request : Request)
    (p : Option Nat) (hport : PortText (net.uri request.url).port p)
    (hresolve : net.ResolvesPorts) :
    GoesToPort net configuration request p ↔
      configuration.proxy_config.isSome = true ∨ is_valid_ipv4 (net.host request) = true ∨
        (∀ explicit, p = some explicit → explicit = default_port (net.host request)) ∨
        net.resolve (net.host request)
          (if net.is_localhost request then "9090" else "443") = none := by
  have hrequested : requested_port (net.host request) p = default_port (net.host request) ↔
      ∀ explicit, p = some explicit → explicit = default_port (net.host request) := by
    unfold requested_port
    cases p <;> simp
  cases hproxy : configuration.proxy_config with
  | some proxy => exact iff_of_true (goesToPort_of_proxy hproxy hport) (.inl rfl)
  | none =>
    by_cases hipv4 : is_valid_ipv4 (net.host request) = true
    · exact iff_of_true (goesToPort_of_ipv4 hproxy hipv4 hport) (.inr (.inl hipv4))
    · rw [goesToPort_of_name hresolve hproxy hipv4, hrequested]
      simp [hipv4]

/-- A network that resolves every name, and a URL with the host and port. -/
def resolving (host port : String) : Network where
  uri _ := ⟨"https:", "", host, port, "/", ""⟩
  base64_encode s := s
  operation_aborted := 125
  make_address text := (text, 0, "")
  resolve _ service := (stoi service).map fun port => ⟨"192.0.2.1", port⟩
  connect _ := true
  use_certificate_chain_file _ := true
  handshake _ := 0
  exchange _ := (⟨200, [], none⟩, 0)

theorem resolving_resolvesPorts (host port : String) : (resolving host port).ResolvesPorts := by
  intro _ service p ep hservice hep
  obtain ⟨q, hq, rfl⟩ := Option.map_eq_some_iff.mp hep
  rw [hservice.stoi] at hq
  exact (Option.some.inj hq).symm

/-- No proxy, and nothing else. -/
def direct : Configuration := ⟨none, none, true, none, none⟩

theorem isPort_8443 : IsPort "8443" 8443 :=
  ⟨by decide, List.all_eq_true.mp rfl, by decide, by omega⟩

/-- `https://192.0.2.1:8443/` goes to its port. -/
theorem request_port_ipv4 :
    GoesToPort (resolving "192.0.2.1" "8443") direct ⟨.get, "https://192.0.2.1:8443/", [], ""⟩
      (some 8443) :=
  (request_port_iff (resolving "192.0.2.1" "8443") direct ⟨.get, "https://192.0.2.1:8443/", [], ""⟩
    (some 8443) isPort_8443 (resolving_resolvesPorts _ _)).mpr (.inr (.inl (by decide)))

/-- **`https://example.com:8443/` is connected to on port 443.** -/
theorem explicit_port_dropped :
    ¬ GoesToPort (resolving "example.com" "8443") direct ⟨.get, "https://example.com:8443/", [], ""⟩
      (some 8443) := by
  intro h
  have hport : (443 : Int) = 8443 := h ⟨"192.0.2.1", 443⟩ rfl
  omega

end RealmCpp.Networking
