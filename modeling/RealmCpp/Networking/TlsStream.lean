/-
  RealmCpp.Networking.TlsStream
  ─────────────────────────────
  **`default_http_transport` AND THE `ssl_stream` OF ITS SOCKETS.**

  Each request has a socket of its own, with an optional TLS stream.  The methods of
  the socket look whether there is a stream; the function that makes the stream
  passes it the verify callback before.

    • `DefaultSocket` — the socket, and what was called on its stream,
    • `Transport.send_request_to_server` — a request, on a transport object,
    • `send_request_outcome` — it comes to what `Transport` says,
    • `Kept` — the stream is there, and the configuration is kept,
    • `requests_keep_iff` — the sequences of requests for which they are.
-/
import RealmCpp.Library.Client
import RealmCpp.Networking.Transport

namespace RealmCpp.Networking

open RealmCpp.Library
open RealmCpp.Bridge (Callback)

/-! ## §1. Sockets. -/

/-- The members of `ssl::Stream` that are called. -/
inductive StreamMember where
  | use_verify_callback | set_host_name | set_verify_mode | set_logger
  | async_handshake | async_write | async_read_until | async_read
  deriving DecidableEq

/-- `ssl::Stream`, as it was set up. -/
structure TlsStream where
  verify_callback : Option Callback := none
  host_name : String := ""
  verify_peer : Bool := false
  deriving DecidableEq

/-- The optional stream of a `DefaultSocket`, and the calls of its members, each with
whether the optional held a stream. -/
structure DefaultSocket where
  ssl_stream : Option TlsStream := none
  uses : List (StreamMember × Bool) := []
  deriving DecidableEq

namespace DefaultSocket

/-- `ssl_stream->member(…)`. -/
def use (socket : DefaultSocket) (member : StreamMember) : DefaultSocket :=
  { socket with uses := socket.uses ++ [(member, socket.ssl_stream.isSome)] }

/-- The same, for a member that changes the stream. -/
def apply (socket : DefaultSocket) (member : StreamMember) (f : TlsStream → TlsStream) :
    DefaultSocket :=
  { socket.use member with ssl_stream := socket.ssl_stream.map f }

/-- `if (ssl_stream) ssl_stream->member(…)`; otherwise the member of the plain socket. -/
def use_if_present (socket : DefaultSocket) (member : StreamMember) : DefaultSocket :=
  if socket.ssl_stream.isSome then socket.use member else socket

def async_write (socket : DefaultSocket) : DefaultSocket := socket.use_if_present .async_write

def async_read_until (socket : DefaultSocket) : DefaultSocket :=
  socket.use_if_present .async_read_until

def async_read (socket : DefaultSocket) : DefaultSocket := socket.use_if_present .async_read

/-- `async_handshake`; none where it ends the program. -/
def async_handshake (socket : DefaultSocket) : Option DefaultSocket :=
  if socket.ssl_stream.isSome then some (socket.use .async_handshake) else none

end DefaultSocket

/-- What an `HTTPClient` calls on its socket. -/
inductive SocketCall where
  | async_write
  | async_read_until
  | async_read

def DefaultSocket.call (socket : DefaultSocket) : SocketCall → DefaultSocket
  | .async_write => socket.async_write
  | .async_read_until => socket.async_read_until
  | .async_read => socket.async_read

/-- What the core does with what it is passed: the calls of an `HTTPClient` for a
request, and what is left of a callback after `std::move`. -/
structure TlsCore where
  http_client : HTTPRequest → List SocketCall
  moved : Callback → Option Callback

/-! ## §2. A request. -/

/-- What a call of the function comes to: its outcome, and what it leaves. -/
structure RequestCall where
  outcome : Outcome Exchange
  socket : DefaultSocket
  m_configuration : Configuration

section

variable (core : TlsCore) (net : Network) (m_configuration : Configuration) (request : Request)

/-- The certificate chain file can be used, if there is one. -/
def certificates_usable : Bool :=
  match m_configuration.ssl_trust_certificate_path with
  | some path => net.use_certificate_chain_file path
  | none => true

/-- Pass the verify callback to the stream.  Without a stream that is undefined. -/
def install_verify_callback (socket : DefaultSocket) :
    Outcome Unit × DefaultSocket × Configuration :=
  match m_configuration.ssl_verify_callback with
  | none => (.returned (), socket, m_configuration)
  | some callback =>
      let called := socket.apply .use_verify_callback fun stream =>
        { stream with verify_callback := some callback }
      if socket.ssl_stream.isSome then
        (.returned (), called, { m_configuration with ssl_verify_callback := core.moved callback })
      else (.raised, called, m_configuration)

/-- Make the stream, for an `https` URL. -/
def emplace_stream (socket : DefaultSocket) : DefaultSocket :=
  if net.url_scheme request = .HTTPS then
    -- `emplace` replaces whatever stream there is
    let socket := { socket with ssl_stream := some {} }
    let socket := socket.apply .set_host_name fun stream =>
      { stream with host_name := net.host request }
    let socket :=
      if m_configuration.client_validate_ssl then
        socket.apply .set_verify_mode fun stream => { stream with verify_peer := true }
      else socket
    socket.use .set_logger
  else socket

/-- The TLS setup. -/
def set_up_tls (socket : DefaultSocket) : Outcome Unit × DefaultSocket × Configuration :=
  if !certificates_usable net m_configuration then (.raised, socket, m_configuration)
  else
    match install_verify_callback core m_configuration socket with
    | (.returned (), socket, m_configuration) =>
        (.returned (), emplace_stream net m_configuration request socket, m_configuration)
    | undefined => undefined

/-- The handshake, if there is TLS, and the request. -/
def exchange_request (socket : DefaultSocket) : Option DefaultSocket :=
  let calls := core.http_client (http_request net m_configuration request)
  if net.url_scheme request = .HTTPS then
    socket.async_handshake.map fun socket =>
      if net.handshake (ssl_stream net m_configuration request) = 0 then
        calls.foldl DefaultSocket.call socket
      else socket
  else some (calls.foldl DefaultSocket.call socket)

/-- What the proxy is asked through the socket, if there is one. -/
def proxy_calls : List SocketCall :=
  match m_configuration.proxy_config with
  | none => []
  | some proxy => core.http_client (connect_request net request proxy)

/-- **`send_request_to_server`, on a transport object**, with at most `n` rounds of
each loop of its service. -/
def Transport.send_request_to_server (n : Nat) : RequestCall :=
  match connect net m_configuration request with
  | .error response => ⟨.returned (Exchange.completion_block {} response), {}, m_configuration⟩
  | .ok _ =>
      let socket := (proxy_calls core net m_configuration request).foldl DefaultSocket.call {}
      match connect_proxy net m_configuration request n (⟨[], false⟩, {}) with
      | .pending => ⟨.pending, socket, m_configuration⟩
      | .raised => ⟨.raised, socket, m_configuration⟩
      | .returned (service, w) =>
          match set_up_tls core net m_configuration request socket with
          | (.returned (), socket, m_configuration) =>
              match exchange_request core net m_configuration request socket with
              | none => ⟨.raised, socket, m_configuration⟩
              | some socket =>
                  let run := Service.run (Handler.call net m_configuration request) n
                    (service.post .start, w)
                  ⟨run >>= fun x => pure x.2, socket, m_configuration⟩
          | (_, socket, m_configuration) => ⟨.raised, socket, m_configuration⟩

end

/-! ## §3. What holds of the socket. -/

namespace DefaultSocket

/-- **The optional holds a stream whenever a member of it is called.** -/
def Present (socket : DefaultSocket) : Prop := ∀ use ∈ socket.uses, use.2 = true

theorem present_start : Present {} := by
  intro use hmem
  exact absurd hmem List.not_mem_nil

variable {socket : DefaultSocket}

theorem present_use (h : socket.Present) (hstream : socket.ssl_stream.isSome = true)
    (member : StreamMember) : (socket.use member).Present := by
  intro use hmem
  rcases List.mem_append.mp hmem with hmem | hmem
  · exact h use hmem
  · rw [List.mem_singleton.mp hmem]
    exact hstream

/-- A member of the stream is called only where the method has found it. -/
theorem present_use_if_present (h : socket.Present) (member : StreamMember) :
    (socket.use_if_present member).Present := by
  unfold use_if_present
  split
  · next hstream => exact present_use h hstream member
  · exact h

theorem ssl_stream_use_if_present (socket : DefaultSocket) (member : StreamMember) :
    (socket.use_if_present member).ssl_stream = socket.ssl_stream := by
  unfold use_if_present
  split <;> rfl

/-- **No method of the socket calls a stream that is not there**, or changes whether it
is. -/
theorem call_spec (h : socket.Present) (c : SocketCall) :
    (socket.call c).Present ∧ (socket.call c).ssl_stream = socket.ssl_stream := by
  cases c with
  | async_write => exact ⟨present_use_if_present h _, ssl_stream_use_if_present _ _⟩
  | async_read_until => exact ⟨present_use_if_present h _, ssl_stream_use_if_present _ _⟩
  | async_read => exact ⟨present_use_if_present h _, ssl_stream_use_if_present _ _⟩

/-- The same for whatever an `HTTPClient` calls. -/
theorem calls_spec (h : socket.Present) (calls : List SocketCall) :
    (calls.foldl call socket).Present ∧
      (calls.foldl call socket).ssl_stream = socket.ssl_stream := by
  induction calls generalizing socket with
  | nil => exact ⟨h, rfl⟩
  | cons c calls ih =>
    obtain ⟨hpresent, hstream⟩ := call_spec h c
    have hrest := ih hpresent
    rw [List.foldl_cons]
    exact ⟨hrest.1, hrest.2.trans hstream⟩

end DefaultSocket

section

variable {core : TlsCore} {net : Network} {m_configuration : Configuration} {request : Request}
variable {socket : DefaultSocket}

/-- What is called on a new stream is called on one that is there. -/
theorem emplace_stream_spec (net : Network) (m_configuration : Configuration) (request : Request)
    (h : socket.Present) :
    (emplace_stream net m_configuration request socket).Present ∧
      (net.url_scheme request = .HTTPS →
        (emplace_stream net m_configuration request socket).ssl_stream.isSome = true) := by
  unfold emplace_stream
  by_cases hhttps : net.url_scheme request = .HTTPS
  · rw [if_pos hhttps]
    -- the stream is there from `emplace` on
    have hnew : ({ socket with ssl_stream := some {} } : DefaultSocket).Present := h
    have hhost := DefaultSocket.present_use hnew rfl .set_host_name
    dsimp only
    by_cases hvalidate : m_configuration.client_validate_ssl = true
    · rw [if_pos hvalidate]
      have hmode := DefaultSocket.present_use hhost rfl .set_verify_mode
      exact ⟨DefaultSocket.present_use hmode rfl .set_logger, fun _ => rfl⟩
    · rw [if_neg hvalidate]
      exact ⟨DefaultSocket.present_use hhost rfl .set_logger, fun _ => rfl⟩
  · rw [if_neg hhttps]
    exact ⟨h, fun hscheme => absurd hscheme hhttps⟩

/-- After that, the request goes through, and its calls find the stream. -/
theorem exchange_request_spec (core : TlsCore) (m_configuration : Configuration)
    (h : socket.Present)
    (hstream : net.url_scheme request = .HTTPS → socket.ssl_stream.isSome = true) :
    ∃ after, exchange_request core net m_configuration request socket = some after ∧
      after.Present ∧ after.ssl_stream = socket.ssl_stream := by
  unfold exchange_request
  by_cases hhttps : net.url_scheme request = .HTTPS
  · rw [if_pos hhttps]
    unfold DefaultSocket.async_handshake
    rw [if_pos (hstream hhttps)]
    have hused := DefaultSocket.present_use h (hstream hhttps) .async_handshake
    refine ⟨_, rfl, ?_⟩
    split
    · exact DefaultSocket.calls_spec hused _
    · exact ⟨hused, rfl⟩
  · rw [if_neg hhttps]
    exact ⟨_, rfl, DefaultSocket.calls_spec h _⟩

/-- Without a verify callback, the setup leaves the configuration as it is. -/
theorem set_up_tls_of_none (hcallback : m_configuration.ssl_verify_callback = none)
    (husable : certificates_usable net m_configuration = true) (socket : DefaultSocket) :
    set_up_tls core net m_configuration request socket =
      (.returned (), emplace_stream net m_configuration request socket, m_configuration) := by
  unfold set_up_tls install_verify_callback
  rw [husable, hcallback]
  rfl

/-- **With one, it is passed to a stream that is not there.** -/
theorem set_up_tls_of_some (core : TlsCore) (request : Request) {callback : Callback}
    (hcallback : m_configuration.ssl_verify_callback = some callback)
    (husable : certificates_usable net m_configuration = true)
    (hstream : socket.ssl_stream = none) :
    ∃ after, set_up_tls core net m_configuration request socket =
        (.raised, after, m_configuration) ∧
      (StreamMember.use_verify_callback, false) ∈ after.uses := by
  refine ⟨socket.apply .use_verify_callback fun stream =>
    { stream with verify_callback := some callback }, ?_, ?_⟩
  · unfold set_up_tls install_verify_callback
    rw [husable, hcallback]
    simp [hstream]
  · show _ ∈ socket.uses ++ [(StreamMember.use_verify_callback, socket.ssl_stream.isSome)]
    rw [hstream]
    simp

theorem set_up_tls_unusable (husable : certificates_usable net m_configuration = false)
    (socket : DefaultSocket) :
    set_up_tls core net m_configuration request socket = (.raised, socket, m_configuration) := by
  unfold set_up_tls
  rw [husable]
  rfl

/-- The socket that the proxy was asked through has no stream yet. -/
theorem proxy_socket_spec (core : TlsCore) (net : Network) (m_configuration : Configuration)
    (request : Request) :
    ((proxy_calls core net m_configuration request).foldl DefaultSocket.call {}).Present ∧
      ((proxy_calls core net m_configuration request).foldl DefaultSocket.call {}).ssl_stream =
        none :=
  DefaultSocket.calls_spec DefaultSocket.present_start _

end

/-! ## §4. Requests. -/

section

variable (core : TlsCore) {net : Network} {m_configuration : Configuration} {request : Request}
variable {n : Nat}

/-- The request gets as far as the TLS setup: there is a connection, through the proxy
if there is one, and the certificates can be used. -/
structure ReachesTls (net : Network) (m_configuration : Configuration) (request : Request)
    (n : Nat) : Prop where
  connected : connect net m_configuration request = .ok ()
  proxied : ∃ x, connect_proxy net m_configuration request n (⟨[], false⟩, {}) = .returned x
  certificates : certificates_usable net m_configuration = true

/-- With enough rounds, the proxy is a matter of what it answers. -/
theorem proxied_iff (n : Nat) :
    (∃ x, connect_proxy net m_configuration request (n + 2) (⟨[], false⟩, {}) = .returned x) ↔
      Proxied net m_configuration request := by
  constructor
  · intro ⟨x, hx⟩ proxy hproxy
    by_contra hrefused
    rw [connect_proxy_refused hproxy hrefused] at hx
    cases hx
  · intro h
    obtain ⟨w, -, -, hrun⟩ := connect_proxy_returned h
    exact ⟨_, hrun n⟩

theorem configured_iff : Configured net m_configuration ↔
    certificates_usable net m_configuration = true ∧ m_configuration.ssl_verify_callback = none := by
  unfold Configured certificates_usable
  cases m_configuration.ssl_trust_certificate_path <;> simp

/-- What the call comes to without a connection. -/
theorem send_of_unconnected {response : Response}
    (hconnect : connect net m_configuration request = .error response) :
    Transport.send_request_to_server core net m_configuration request n =
      ⟨.returned (Exchange.completion_block {} response), {}, m_configuration⟩ := by
  unfold Transport.send_request_to_server
  rw [hconnect]

/-- Where the proxy does not let the request go on, it is the run of the service. -/
theorem send_of_unproxied (hconnect : connect net m_configuration request = .ok ())
    (hproxy : ¬ ∃ x, connect_proxy net m_configuration request n (⟨[], false⟩, {}) = .returned x) :
    Transport.send_request_to_server core net m_configuration request n =
      ⟨connect_proxy net m_configuration request n (⟨[], false⟩, {}) >>= fun x => pure x.2,
        (proxy_calls core net m_configuration request).foldl DefaultSocket.call {},
        m_configuration⟩ := by
  unfold Transport.send_request_to_server
  rw [hconnect]
  dsimp only
  cases hrun : connect_proxy net m_configuration request n (⟨[], false⟩, {}) with
  | pending => rfl
  | raised => rfl
  | returned x => exact absurd ⟨x, hrun⟩ hproxy

/-- Where it does, the TLS setup decides. -/
theorem send_of_proxied (hconnect : connect net m_configuration request = .ok ())
    {service : Service Handler} {w : Exchange}
    (hproxy : connect_proxy net m_configuration request n (⟨[], false⟩, {}) =
      .returned (service, w)) :
    Transport.send_request_to_server core net m_configuration request n =
      match set_up_tls core net m_configuration request
          ((proxy_calls core net m_configuration request).foldl DefaultSocket.call {}) with
      | (.returned (), socket, m_configuration) =>
          match exchange_request core net m_configuration request socket with
          | none => ⟨.raised, socket, m_configuration⟩
          | some socket =>
              let run := Service.run (Handler.call net m_configuration request) n
                (service.post .start, w)
              ⟨run >>= fun x => pure x.2, socket, m_configuration⟩
      | (_, socket, m_configuration) => ⟨.raised, socket, m_configuration⟩ := by
  unfold Transport.send_request_to_server
  rw [hconnect]
  dsimp only
  rw [hproxy]

/-- Without a verify callback, the stream is set up and the request is made. -/
theorem send_of_configured (hconnect : connect net m_configuration request = .ok ())
    {service : Service Handler} {w : Exchange}
    (hproxy : connect_proxy net m_configuration request n (⟨[], false⟩, {}) =
      .returned (service, w))
    (husable : certificates_usable net m_configuration = true)
    (hcallback : m_configuration.ssl_verify_callback = none) :
    ∃ socket : DefaultSocket, socket.Present ∧
      Transport.send_request_to_server core net m_configuration request n =
        ⟨Service.run (Handler.call net m_configuration request) n (service.post .start, w) >>=
          fun x => pure x.2, socket, m_configuration⟩ := by
  obtain ⟨hpresent, -⟩ := proxy_socket_spec core net m_configuration request
  obtain ⟨hstream, hsome⟩ := emplace_stream_spec net m_configuration request hpresent
  obtain ⟨after, hafter, hkept, -⟩ := exchange_request_spec core m_configuration hstream hsome
  refine ⟨after, hkept, ?_⟩
  rw [send_of_proxied core hconnect hproxy, set_up_tls_of_none hcallback husable]
  dsimp only
  rw [hafter]

/-- **With a verify callback, a member is called of a stream that is not there.** -/
theorem send_of_callback (hconnect : connect net m_configuration request = .ok ())
    {service : Service Handler} {w : Exchange}
    (hproxy : connect_proxy net m_configuration request n (⟨[], false⟩, {}) =
      .returned (service, w))
    (husable : certificates_usable net m_configuration = true) {callback : Callback}
    (hcallback : m_configuration.ssl_verify_callback = some callback) :
    ∃ socket : DefaultSocket, (StreamMember.use_verify_callback, false) ∈ socket.uses ∧
      Transport.send_request_to_server core net m_configuration request n =
        ⟨.raised, socket, m_configuration⟩ := by
  obtain ⟨-, hnone⟩ := proxy_socket_spec core net m_configuration request
  obtain ⟨after, hafter, hused⟩ := set_up_tls_of_some core request
    hcallback husable hnone
  refine ⟨after, hused, ?_⟩
  rw [send_of_proxied core hconnect hproxy, hafter]

theorem send_of_unusable (hconnect : connect net m_configuration request = .ok ())
    {service : Service Handler} {w : Exchange}
    (hproxy : connect_proxy net m_configuration request n (⟨[], false⟩, {}) =
      .returned (service, w))
    (husable : certificates_usable net m_configuration = false) :
    Transport.send_request_to_server core net m_configuration request n =
      ⟨.raised, (proxy_calls core net m_configuration request).foldl DefaultSocket.call {},
        m_configuration⟩ := by
  rw [send_of_proxied core hconnect hproxy, set_up_tls_unusable husable]

/-- **The outcome is the one that a request has without its socket.** -/
theorem send_request_outcome :
    (Transport.send_request_to_server core net m_configuration request n).outcome =
      send_request_to_server net m_configuration request n := by
  cases hconnect : connect net m_configuration request with
  | error response =>
    rw [send_of_unconnected core hconnect]
    exact (send_request_unconnected hconnect n).symm
  | ok u =>
    rw [send_request_connected hconnect]
    by_cases hproxy :
        ∃ x, connect_proxy net m_configuration request n (⟨[], false⟩, {}) = .returned x
    · obtain ⟨⟨service, w⟩, hrun⟩ := hproxy
      rw [hrun]
      cases husable : certificates_usable net m_configuration with
      | false =>
        have hssl : ¬ Configured net m_configuration := by simp [configured_iff, husable]
        rw [send_of_unusable core hconnect hrun husable, set_up_ssl_raised hssl]
        rfl
      | true =>
        cases hcallback : m_configuration.ssl_verify_callback with
        | none =>
          obtain ⟨socket, -, hsend⟩ := send_of_configured core hconnect hrun husable hcallback
          rw [hsend, set_up_ssl_returned (configured_iff.mpr ⟨husable, hcallback⟩)]
          rfl
        | some callback =>
          have hssl : ¬ Configured net m_configuration := by simp [configured_iff, hcallback]
          obtain ⟨socket, -, hsend⟩ := send_of_callback core hconnect hrun husable hcallback
          rw [hsend, set_up_ssl_raised hssl]
          rfl
    · rw [send_of_unproxied core hconnect hproxy]
      cases hrun : connect_proxy net m_configuration request n (⟨[], false⟩, {}) with
      | pending => rfl
      | raised => rfl
      | returned x => exact absurd ⟨x, hrun⟩ hproxy

/-! ## §5. Sequences of requests. -/

/-- **What a request should keep**: a stream is there whenever a member of it is called,
the verify callback is on the stream of an `https` request, and the configuration is
what it was. -/
structure Kept (net : Network) (before : Configuration) (request : Request) (call : RequestCall) :
    Prop where
  present : call.socket.Present
  installed : net.url_scheme request = .HTTPS → before.ssl_verify_callback.isSome = true →
    ∀ stream, call.socket.ssl_stream = some stream →
      stream.verify_callback = before.ssl_verify_callback
  configuration : call.m_configuration = before

/-- A request keeps all of it just where no verify callback is set, or it does not get to
the TLS setup. -/
theorem kept_iff :
    Kept net m_configuration request
        (Transport.send_request_to_server core net m_configuration request n) ↔
      m_configuration.ssl_verify_callback = none ∨
        ¬ ReachesTls net m_configuration request n := by
  obtain ⟨hpresent, hnone⟩ := proxy_socket_spec core net m_configuration request
  -- before the setup there is no stream
  have hbefore : ∀ outcome, Kept net m_configuration request
      ⟨outcome, (proxy_calls core net m_configuration request).foldl DefaultSocket.call {},
        m_configuration⟩ := by
    intro outcome
    refine ⟨hpresent, fun _ _ stream hstream => ?_, rfl⟩
    rw [hnone] at hstream
    cases hstream
  cases hconnect : connect net m_configuration request with
  | error response =>
    rw [send_of_unconnected core hconnect]
    refine iff_of_true ⟨DefaultSocket.present_start, fun _ _ stream hstream => ?_, rfl⟩
      (.inr fun h => ?_)
    · cases hstream
    · have hconnected := h.connected
      rw [hconnect] at hconnected
      cases hconnected
  | ok u =>
    by_cases hproxy :
        ∃ x, connect_proxy net m_configuration request n (⟨[], false⟩, {}) = .returned x
    · obtain ⟨⟨service, w⟩, hrun⟩ := hproxy
      cases husable : certificates_usable net m_configuration with
      | false =>
        rw [send_of_unusable core hconnect hrun husable]
        refine iff_of_true (hbefore _) (.inr fun h => ?_)
        have hcertificates := h.certificates
        rw [husable] at hcertificates
        cases hcertificates
      | true =>
        cases hcallback : m_configuration.ssl_verify_callback with
        | none =>
          obtain ⟨socket, hsocket, hsend⟩ := send_of_configured core hconnect hrun husable hcallback
          rw [hsend]
          refine iff_of_true ⟨hsocket, fun _ hsome => ?_, rfl⟩ (.inl rfl)
          rw [hcallback] at hsome
          cases hsome
        | some callback =>
          obtain ⟨socket, hused, hsend⟩ := send_of_callback core hconnect hrun husable hcallback
          rw [hsend]
          refine iff_of_false (fun h => ?_) fun h => ?_
          · have hcalled := h.present _ hused
            cases hcalled
          · exact h.resolve_left (by simp) ⟨hconnect, ⟨_, hrun⟩, husable⟩
    · rw [send_of_unproxied core hconnect hproxy]
      exact iff_of_true (hbefore _) (.inr fun h => hproxy h.proxied)

end

/-- The requests of a client, each with the network as it is then, on one transport. -/
def Transport.handle (core : TlsCore) (n : Nat) :
    Library.Handler (Network × Request) (fun _ => Outcome Exchange) Configuration :=
  fun m_configuration c =>
    let call := Transport.send_request_to_server core c.1 m_configuration c.2 n
    (call.outcome, call.m_configuration)

/-- **The sequences of requests that keep everything**: those of a transport without a
verify callback, and those in which no request gets to the TLS setup. -/
theorem requests_keep_iff {ρ : Type} (core : TlsCore) (n : Nat)
    (p : Client (Network × Request) (fun _ => Outcome Exchange) ρ)
    (m_configuration : Configuration) :
    p.Along (Transport.handle core n)
        (fun m_configuration c => Kept c.1 m_configuration c.2
          (Transport.send_request_to_server core c.1 m_configuration c.2 n)) m_configuration ↔
      p.Along (Transport.handle core n)
        (fun m_configuration c => m_configuration.ssl_verify_callback = none ∨
          ¬ ReachesTls c.1 m_configuration c.2 n) m_configuration :=
  Client.along_congr (fun _ _ => kept_iff core) p m_configuration

/-- A client of the core that writes, and reads a line. -/
def writing : TlsCore := ⟨fun _ => [.async_write, .async_read_until], fun _ => none⟩

/-- **One request with a verify callback**: it is passed to an absent stream. -/
theorem callback_without_stream :
    let m_configuration : Configuration := ⟨none, none, true, none, some 0⟩
    let p : Client (Network × Request) (fun _ => Outcome Exchange) Unit :=
      .call (answering 200 0, getServer) fun _ => .ret ()
    ¬ p.Along (Transport.handle writing 4)
      (fun m_configuration c => Kept c.1 m_configuration c.2
        (Transport.send_request_to_server writing c.1 m_configuration c.2 4)) m_configuration := by
  intro m_configuration p h
  have hcalled := h.1.present (.use_verify_callback, false) (by decide)
  cases hcalled

end RealmCpp.Networking
