/-
  RealmCpp.Networking.Transport
  ─────────────────────────────
  **`default_http_transport::send_request_to_server`.**

  A request goes through stages: the address is resolved and connected to, a proxy
  is asked to connect, TLS is set up, and the request is exchanged.  The last ones
  are handlers that a service calls, in two runs.  What the network answers at
  each stage is given by a `Network`.

  `truthful_iff` says for which answers the completion block is called once, and
  with an error if and only if a stage failed.
-/
import RealmCpp.Bridge.Config
import RealmCpp.Library.EventLoop
import RealmCpp.Networking.Uri

namespace RealmCpp.Networking

open RealmCpp.Library
open RealmCpp.Bridge (Callback ProxyConfig)

/-! ## §1. Requests, responses and the network. -/

/-- `std::map` with names that are compared without their case. -/
abbrev HTTPHeaders := List (String × String)

namespace HTTPHeaders

def sameName (a b : String) : Bool := a.toLower == b.toLower

/-- `headers[name] = value`. -/
def set : HTTPHeaders → String → String → HTTPHeaders
  | [], name, value => [(name, value)]
  | (k, v) :: headers, name, value =>
      if sameName k name then (k, value) :: headers else (k, v) :: set headers name value

/-- `headers.emplace(name, value)`: what is there stays. -/
def emplace (headers : HTTPHeaders) (name value : String) : HTTPHeaders :=
  if headers.any fun e => sameName e.1 name then headers else headers ++ [(name, value)]

theorem mem_emplace {headers : HTTPHeaders} {e : String × String} (h : e ∈ headers)
    (name value : String) : e ∈ headers.emplace name value := by
  unfold emplace
  split
  · exact h
  · exact List.mem_append_left _ h

end HTTPHeaders

/-- `http_method`. -/
inductive HttpMethod where
  | get
  | post
  | patch
  | put
  | del
  deriving DecidableEq

/-- `networking::request`. -/
structure Request where
  method : HttpMethod
  url : String
  headers : List (String × String)
  body : String

/-- `networking::response`, where a status code that is not set has no value. -/
structure Response where
  http_status_code : Option Int := none
  custom_status_code : Option Int := none
  headers : List (String × String) := []
  body : String := ""
  deriving DecidableEq

/-- `HTTPMethod` of the core. -/
inductive HTTPMethod where
  | Connect
  | Get
  | Put
  | Post
  | Patch
  | Delete
  deriving DecidableEq

/-- `HTTPRequest` of the core. -/
structure HTTPRequest where
  method : HTTPMethod
  path : String
  headers : HTTPHeaders
  body : Option String
  deriving DecidableEq

/-- `HTTPResponse` of the core. -/
structure HTTPResponse where
  status : Int
  headers : HTTPHeaders
  body : Option String

/-- `HTTPStatus::Ok`. -/
def statusOk : Int := 200

/-- An address and a port. -/
structure Endpoint where
  address : String
  port : Int

/-- How a TLS stream is set up. -/
structure Stream where
  certificate_chain_file : Option String
  host_name : String
  verify_peer : Bool

/-- `default_http_transport::configuration`. -/
structure Configuration where
  custom_http_headers : Option (List (String × String))
  proxy_config : Option ProxyConfig
  client_validate_ssl : Bool
  ssl_trust_certificate_path : Option String
  ssl_verify_callback : Option Callback

/-- The network, and what the core makes of texts: an error code is 0 where there
is no error, and what throws has no value. -/
structure Network where
  uri : String → Uri
  base64_encode : String → String
  operation_aborted : Int
  /-- The address, the error code and its message. -/
  make_address : String → String × Int × String
  resolve : String → String → Option Endpoint
  connect : Endpoint → Bool
  use_certificate_chain_file : String → Bool
  handshake : Stream → Int
  exchange : HTTPRequest → HTTPResponse × Int

/-- `is_valid_ipv4`: four numbers up to 255 with dots between them, and maybe one
after them. -/
def is_valid_ipv4 (ip : String) : Bool :=
  -- `std::getline` gives no empty text after the last dot
  let parts := ip.toList.splitOn '.'
  let segments := if parts.getLast? = some [] then parts.dropLast else parts
  segments.length == 4 &&
    segments.all fun seg =>
      !seg.isEmpty && seg.length ≤ 3 && seg.all Char.isDigit && Nat.ofDigitChars 10 seg 0 ≤ 255

inductive URLScheme where
  | HTTP
  | HTTPS
  | Unknown
  deriving DecidableEq

def get_url_scheme (scheme : String) : URLScheme :=
  if scheme = "https:" then .HTTPS else if scheme = "http:" then .HTTP else .Unknown

/-! ## §2. Finding the server, or the proxy. -/

section
variable (net : Network) (configuration : Configuration) (request : Request)

def Network.host : String := (net.uri request.url).host

def Network.is_localhost : Bool := net.host request == "localhost"

def Network.port : String :=
  let port := (net.uri request.url).port
  if port.isEmpty then (if net.is_localhost request then "9090" else "443") else port

def Network.url_scheme : URLScheme := get_url_scheme (net.uri request.url).scheme

/-- What is answered when an operation was aborted, or threw. -/
def aborted : Response := { custom_status_code := some net.operation_aborted }

/-- The endpoint `ep` to connect to, or what is answered.  The error code of an
address that the URL has is not looked at. -/
def find_endpoint : Except Response Endpoint :=
  match configuration.proxy_config with
  | some proxy =>
      let proxy_host := (net.uri proxy.address).host
      if proxy_host.isEmpty then
        -- what is no URL is an address; negative error codes are none here
        let (address, e, message) := net.make_address proxy.address
        if e > 0 then .error { custom_status_code := some e, body := message }
        else .ok ⟨address, proxy.port⟩
      else
        match net.resolve proxy_host (toString proxy.port) with
        | none => .error (aborted net)
        | some ep => .ok ep
  | none =>
      if is_valid_ipv4 (net.host request) then
        -- only here the port of the URL counts
        match stoi (net.port request) with
        | none => .error (aborted net)
        | some port => .ok ⟨(net.make_address (net.host request)).1, port⟩
      else
        match net.resolve (net.host request) (if net.is_localhost request then "9090" else "443") with
        | none => .error (aborted net)
        | some ep => .ok ep

/-- `socket.connect(ep)`, or what is answered. -/
def connect : Except Response Unit :=
  match find_endpoint net configuration request with
  | .error response => .error response
  | .ok ep => if net.connect ep then .ok () else .error (aborted net)

/-! ## §3. The requests. -/

/-- The CONNECT request to the proxy. -/
def connect_request (proxy : ProxyConfig) : HTTPRequest where
  method := .Connect
  path := ""
  headers :=
    let headers := HTTPHeaders.emplace [] "Host" s!"{net.host request}:{net.port request}"
    match proxy.username_password with
    | none => headers
    | some (username, password) =>
        headers.emplace "Proxy-Authorization" ("Basic " ++ net.base64_encode s!"{username}:{password}")
  body := none

def core_method : HttpMethod → HTTPMethod
  | .get => .Get
  | .put => .Put
  | .post => .Post
  | .patch => .Patch
  | .del => .Delete

/-- The headers of the request: the configured ones replace no other. -/
def request_headers : HTTPHeaders :=
  let headers := request.headers.foldl (fun headers e => HTTPHeaders.set headers e.1 e.2) []
  let headers := headers.set "Host" (net.host request)
  let headers := headers.set "User-Agent" "Realm C++ SDK"
  -- from here on, only what is not there yet is added
  let headers :=
    if request.body.isEmpty then headers
    else headers.set "Content-Length" (toString request.body.utf8ByteSize)
  match configuration.custom_http_headers with
  | none => headers
  | some custom => custom.foldl (fun headers e => headers.emplace e.1 e.2) headers

/-- The request of the user, as it is sent. -/
def http_request : HTTPRequest where
  method := core_method request.method
  path := request.url
  headers := request_headers net configuration request
  body := if request.body.isEmpty then none else some request.body

/-- The TLS stream. -/
def ssl_stream : Stream :=
  ⟨configuration.ssl_trust_certificate_path, net.host request, configuration.client_validate_ssl⟩

/-! ## §4. The handlers. -/

/-- A handler that is due, with the outcome of its operation. -/
inductive Handler where
  /-- Of the CONNECT request. -/
  | connected (response : HTTPResponse) (ec : Int)
  /-- What is posted to the service. -/
  | start
  | handshaken (ec : Int)
  /-- Of the request. -/
  | answered (r : HTTPResponse) (ec : Int)

/-- The requests that were sent, and what the completion block was called with. -/
structure Exchange where
  sent : List HTTPRequest := []
  answers : List Response := []

def Exchange.completion_block (w : Exchange) (response : Response) : Exchange :=
  { w with answers := w.answers ++ [response] }

/-- `async_request`: the request is sent, and its handler is called with what comes
of it. -/
def async_request (req : HTTPRequest) (handler : HTTPResponse → Int → Handler) :
    Service Handler × Exchange → Service Handler × Exchange
  | (service, w) =>
      let (response, ec) := net.exchange req
      (service.post (handler response ec), { w with sent := w.sent ++ [req] })

/-- What the response of the server is converted to. -/
def to_response (r : HTTPResponse) : Response where
  http_status_code := some r.status
  custom_status_code := some 0
  headers := r.headers
  body := r.body.getD ""

/-- The handler of the handshake, which is called without one if there is no TLS. -/
def handshake_handler (ec : Int) : Service Handler × Exchange → Service Handler × Exchange
  | (service, w) =>
      if ec = 0 then
        async_request net (http_request net configuration request) .answered (service, w)
      else (service, w.completion_block (aborted net))

/-- Call a handler.  That of the request looks at no error code, and that of the
CONNECT request stops the service only where all is well. -/
def Handler.call : Handler → Service Handler × Exchange → Service Handler × Exchange
  | .connected response ec, (service, w) =>
      -- both errors are answered, and the service goes on
      if ec ≠ 0 ∧ ec ≠ net.operation_aborted then (service, w.completion_block (aborted net))
      else if response.status ≠ statusOk then
        (service, w.completion_block { http_status_code := some response.status })
      else (service.stop, w)
  | .start, (service, w) =>
      if net.url_scheme request = .HTTPS then
        (service.post (.handshaken (net.handshake (ssl_stream net configuration request))), w)
      else handshake_handler net configuration request 0 (service, w)
  | .handshaken ec, x => handshake_handler net configuration request ec x
  | .answered r _, (service, w) => (service, w.completion_block (to_response r))

/-! ## §5. A request, to its end. -/

/-- Ask the proxy, if there is one, and wait until the service is stopped. -/
def connect_proxy (n : Nat) (x : Service Handler × Exchange) :
    Outcome (Service Handler × Exchange) :=
  match configuration.proxy_config with
  | none => .returned x
  | some proxy => do
      let x := async_request net (connect_request net request proxy) .connected x
      let (service, w) ← Service.runUntilStopped (Handler.call net configuration request) n x
      pure (service.reset, w)

/-- Set up the TLS context.  A verify callback is passed to a stream that is not
there yet. -/
def set_up_ssl : Outcome Unit :=
  match configuration.ssl_trust_certificate_path with
  | some path =>
      if net.use_certificate_chain_file path then
        if configuration.ssl_verify_callback.isSome then .raised else .returned ()
      else .raised
  | none => if configuration.ssl_verify_callback.isSome then .raised else .returned ()

/-- `send_request_to_server`, where the service goes at most `n` times through each
of its loops. -/
def send_request_to_server (n : Nat) : Outcome Exchange :=
  match connect net configuration request with
  | .error response => .returned (Exchange.completion_block {} response)
  | .ok _ => do
      -- outside of the `try`: what throws from here on leaves the function
      let (service, w) ← connect_proxy net configuration request n (⟨[], false⟩, {})
      set_up_ssl net configuration
      let (_, w) ← Service.run (Handler.call net configuration request) n (service.post .start, w)
      pure w

/-! ## §6. What a request should come to. -/

/-- No address of the server, or of the proxy, was found. -/
def ResolutionFailed : Prop :=
  match configuration.proxy_config with
  | some proxy =>
      let proxy_host := (net.uri proxy.address).host
      if proxy_host.isEmpty then (net.make_address proxy.address).2.1 ≠ 0
      else net.resolve proxy_host (toString proxy.port) = none
  | none =>
      if is_valid_ipv4 (net.host request) then
        stoi (net.port request) = none ∨ (net.make_address (net.host request)).2.1 ≠ 0
      else
        net.resolve (net.host request) (if net.is_localhost request then "9090" else "443") = none

/-- It was not connected to. -/
def ConnectionFailed : Prop :=
  ∃ ep, find_endpoint net configuration request = .ok ep ∧ net.connect ep = false

/-- The proxy did not connect to the server. -/
def ProxyFailed : Prop :=
  ∃ proxy, configuration.proxy_config = some proxy ∧
    ((net.exchange (connect_request net request proxy)).2 ≠ 0 ∨
      (net.exchange (connect_request net request proxy)).1.status ≠ statusOk)

/-- There is TLS, and its handshake failed. -/
def HandshakeFailed : Prop :=
  net.url_scheme request = .HTTPS ∧ net.handshake (ssl_stream net configuration request) ≠ 0

/-- The handler of the CONNECT request takes this as a connection. -/
def Accepted (response : HTTPResponse) (ec : Int) : Prop :=
  (ec = 0 ∨ ec = net.operation_aborted) ∧ response.status = statusOk

variable (success : Int → Prop)

/-- The request was not answered, or not with a status of success. -/
def RequestFailed : Prop :=
  (net.exchange (http_request net configuration request)).2 ≠ 0 ∨
    ¬ success (net.exchange (http_request net configuration request)).1.status

/-- **Some stage failed.** -/
def Failed : Prop :=
  ResolutionFailed net configuration request ∨ ConnectionFailed net configuration request ∨
    ProxyFailed net configuration request ∨ HandshakeFailed net configuration request ∨
    RequestFailed net configuration request success

/-- A response signals an error. -/
def SignalsError (response : Response) : Prop :=
  (∃ c, response.custom_status_code = some c ∧ c ≠ 0) ∨
    ∃ status, response.http_status_code = some status ∧ ¬ success status

/-- **One truthful answer**: the function returns, the completion block was called
once, with an error exactly if some stage failed; and where it was the proxy, the
request was not sent. -/
def Truthful : Prop :=
  ∃ w, (∃ n, send_request_to_server net configuration request n = .returned w) ∧
    ∃ response, w.answers = [response] ∧
      (SignalsError success response ↔ Failed net configuration request success) ∧
      (ProxyFailed net configuration request → ∀ req ∈ w.sent, req.method = .Connect)

/-- **The stages go as the function expects**: where there is a connection, the
proxy answers 200, with no error code but that of an aborted operation; the
certificates can be used and no verify callback is set; and where the request is
sent, the proxy had no error code, and a status of success comes with none and
from an address that was one. -/
def Expected : Prop :=
  connect net configuration request = .ok () →
    (∀ proxy, configuration.proxy_config = some proxy →
      Accepted net (net.exchange (connect_request net request proxy)).1
        (net.exchange (connect_request net request proxy)).2) ∧
    (∀ path, configuration.ssl_trust_certificate_path = some path →
      net.use_certificate_chain_file path = true) ∧
    configuration.ssl_verify_callback = none ∧
    (¬ HandshakeFailed net configuration request →
      ¬ ProxyFailed net configuration request ∧
      (success (net.exchange (http_request net configuration request)).1.status →
        (net.exchange (http_request net configuration request)).2 = 0 ∧
        ¬ ResolutionFailed net configuration request))

end

/-! ## §7. What it comes to. -/

section
variable {net : Network} {configuration : Configuration} {request : Request} {success : Int → Prop}

theorem send_request_to_server_le (n : Nat) :
    Outcome.Le (send_request_to_server net configuration request n)
      (send_request_to_server net configuration request (n + 1)) := by
  unfold send_request_to_server
  split
  · exact Outcome.Le.refl _
  · have hproxy : Outcome.Le (connect_proxy net configuration request n (⟨[], false⟩, {}))
        (connect_proxy net configuration request (n + 1) (⟨[], false⟩, {})) := by
      unfold connect_proxy
      split
      · exact Outcome.Le.refl _
      · exact (Service.runUntilStopped_le _ n _).bind fun _ => Outcome.Le.refl _
    refine hproxy.bind fun x => ?_
    refine (Outcome.Le.refl _).bind fun _ => ?_
    exact (Service.run_le _ n _).bind fun _ => Outcome.Le.refl _

/-- What is answered before there is a connection is an error, and there was one. -/
theorem find_endpoint_error (habort : net.operation_aborted ≠ 0) {response : Response}
    (h : find_endpoint net configuration request = .error response) :
    SignalsError success response ∧ ResolutionFailed net configuration request := by
  have haborted : SignalsError success (aborted net) := .inl ⟨_, rfl, habort⟩
  unfold find_endpoint at h
  unfold ResolutionFailed
  cases hproxy : configuration.proxy_config with
  | some proxy =>
    rw [hproxy] at h
    dsimp only at h ⊢
    split at h
    · next hempty =>
      rw [if_pos hempty]
      split at h
      · next he =>
        cases h
        exact ⟨.inl ⟨_, rfl, Int.ne_of_gt he⟩, Int.ne_of_gt he⟩
      · cases h
    · next hempty =>
      rw [if_neg hempty]
      split at h
      · next hresolve =>
        cases h
        exact ⟨haborted, hresolve⟩
      · cases h
  | none =>
    rw [hproxy] at h
    dsimp only at h ⊢
    split at h
    · next hipv4 =>
      rw [if_pos hipv4]
      split at h
      · next hport =>
        cases h
        exact ⟨haborted, .inl hport⟩
      · cases h
    · next hipv4 =>
      rw [if_neg hipv4]
      split at h
      · next hresolve =>
        cases h
        exact ⟨haborted, hresolve⟩
      · cases h

theorem connect_error (habort : net.operation_aborted ≠ 0) {response : Response}
    (h : connect net configuration request = .error response) :
    SignalsError success response ∧ Failed net configuration request success := by
  unfold connect at h
  split at h
  · next r hfind =>
    cases h
    obtain ⟨hsignals, hfailed⟩ : SignalsError success response ∧
      ResolutionFailed net configuration request := find_endpoint_error habort hfind
    exact ⟨hsignals, .inl hfailed⟩
  · next ep hfind =>
    split at h
    · cases h
    · next hconnect =>
      cases h
      exact ⟨.inl ⟨_, rfl, habort⟩, .inr (.inl ⟨ep, hfind, by simpa using hconnect⟩)⟩

theorem not_connectionFailed (h : connect net configuration request = .ok ()) :
    ¬ ConnectionFailed net configuration request := by
  intro ⟨ep, hfind, hconnect⟩
  unfold connect at h
  rw [hfind] at h
  simp [hconnect] at h

theorem call_connected {response : HTTPResponse} {ec : Int} (h : Accepted net response ec)
    (service : Service Handler) (w : Exchange) :
    Handler.call net configuration request (.connected response ec) (service, w) =
      (service.stop, w) := by
  obtain ⟨hec, hstatus⟩ := h
  unfold Handler.call
  dsimp only
  rw [if_neg (by tauto), if_neg (by simpa using hstatus)]

theorem call_connected_refused {response : HTTPResponse} {ec : Int} (h : ¬ Accepted net response ec)
    (service : Service Handler) (w : Exchange) :
    ∃ w', Handler.call net configuration request (.connected response ec) (service, w) =
      (service, w') := by
  unfold Handler.call
  dsimp only
  by_cases hec : ec ≠ 0 ∧ ec ≠ net.operation_aborted
  · exact ⟨_, if_pos hec⟩
  · have hstatus : response.status ≠ statusOk := fun hstatus => h ⟨by tauto, hstatus⟩
    exact ⟨_, (if_neg hec).trans (if_pos hstatus)⟩

/-- **A proxy that does not connect is waited for.** -/
theorem connect_proxy_refused {proxy : ProxyConfig} (hproxy : configuration.proxy_config = some proxy)
    (h : ¬ Accepted net (net.exchange (connect_request net request proxy)).1
      (net.exchange (connect_request net request proxy)).2) (n : Nat) :
    connect_proxy net configuration request n (⟨[], false⟩, {}) = .pending := by
  unfold connect_proxy
  rw [hproxy]
  dsimp only
  have hrun : Service.runUntilStopped (Handler.call net configuration request) n
      (async_request net (connect_request net request proxy) .connected (⟨[], false⟩, {})) =
        .pending := by
    cases n with
    | zero => rfl
    | succ n =>
      -- the handler is called, does not stop the service, and nothing else is due
      refine Eq.trans (Service.runUntilStopped_due _ n _ _ _) ?_
      obtain ⟨w', hcall⟩ := @call_connected_refused net configuration request _ _ h ⟨[], false⟩
        ⟨[connect_request net request proxy], []⟩
      refine Eq.trans (congrArg _ hcall) ?_
      exact Service.runUntilStopped_idle _ n w'
  rw [hrun]
  rfl

/-- The proxy connects, if there is one. -/
def Proxied (net : Network) (configuration : Configuration) (request : Request) : Prop :=
  ∀ proxy, configuration.proxy_config = some proxy →
    Accepted net (net.exchange (connect_request net request proxy)).1
      (net.exchange (connect_request net request proxy)).2

theorem connect_proxy_returned (h : Proxied net configuration request) :
    ∃ w : Exchange, w.answers = [] ∧ (∀ req ∈ w.sent, req.method = .Connect) ∧
      ∀ n, connect_proxy net configuration request (n + 2) (⟨[], false⟩, {}) =
        .returned (⟨[], false⟩, w) := by
  unfold connect_proxy
  cases hproxy : configuration.proxy_config with
  | none => exact ⟨{}, rfl, nofun, fun n => rfl⟩
  | some proxy =>
    refine ⟨⟨[connect_request net request proxy], []⟩, rfl, ?_, fun n => ?_⟩
    · intro req hreq
      rw [List.mem_singleton.mp hreq]
      rfl
    · dsimp only
      have hrun : Service.runUntilStopped (Handler.call net configuration request) (n + 2)
          (async_request net (connect_request net request proxy) .connected (⟨[], false⟩, {})) =
            .returned (⟨[], true⟩, ⟨[connect_request net request proxy], []⟩) := by
        refine Eq.trans (Service.runUntilStopped_due _ (n + 1) _ _ _) ?_
        rw [call_connected (h proxy hproxy)]
        exact Service.runUntilStopped_stopped _ n _ _
      rw [hrun]
      rfl

/-- What the run of the posted handler comes to. -/
def served (net : Network) (configuration : Configuration) (request : Request) (w : Exchange) :
    Exchange :=
  if net.url_scheme request = .HTTPS ∧ net.handshake (ssl_stream net configuration request) ≠ 0 then
    w.completion_block (aborted net)
  else
    Exchange.completion_block
      { w with sent := w.sent ++ [http_request net configuration request] }
      (to_response (net.exchange (http_request net configuration request)).1)

theorem call_start (service : Service Handler) (w : Exchange) :
    Handler.call net configuration request .start (service, w) =
      if net.url_scheme request = .HTTPS then
        (service.post (.handshaken (net.handshake (ssl_stream net configuration request))), w)
      else handshake_handler net configuration request 0 (service, w) := rfl

theorem run_start (n : Nat) (w : Exchange) :
    Service.run (Handler.call net configuration request) (n + 4) (⟨[.start], false⟩, w) =
      .returned (⟨[], false⟩, served net configuration request w) := by
  rw [Service.run_due, call_start]
  unfold served
  by_cases hscheme : net.url_scheme request = .HTTPS
  · -- a second handler is due, that of the handshake
    rw [if_pos hscheme]
    refine Eq.trans (Service.run_due _ (n + 2) _ _ _) ?_
    by_cases hec : net.handshake (ssl_stream net configuration request) = 0
    · rw [if_neg (fun h => h.2 hec), hec]
      exact Service.run_idle (Handler.call net configuration request) (n + 1) _
    · rw [if_pos ⟨hscheme, hec⟩]
      have hcall : Handler.call net configuration request
          (.handshaken (net.handshake (ssl_stream net configuration request))) (⟨[], false⟩, w) =
            (⟨[], false⟩, w.completion_block (aborted net)) := if_neg hec
      rw [hcall]
      exact Service.run_idle (Handler.call net configuration request) (n + 1) _
  · -- without TLS it is called at once
    rw [if_neg hscheme, if_neg (fun h => hscheme h.1)]
    exact Service.run_idle (Handler.call net configuration request) (n + 2) _

/-- TLS can be set up. -/
def Configured (net : Network) (configuration : Configuration) : Prop :=
  (∀ path, configuration.ssl_trust_certificate_path = some path →
    net.use_certificate_chain_file path = true) ∧ configuration.ssl_verify_callback = none

theorem set_up_ssl_returned (h : Configured net configuration) :
    set_up_ssl net configuration = .returned () := by
  obtain ⟨hfile, hcallback⟩ := h
  unfold set_up_ssl
  rw [hcallback]
  cases hpath : configuration.ssl_trust_certificate_path with
  | none => rfl
  | some path => simp [hfile path hpath]

theorem set_up_ssl_raised (h : ¬ Configured net configuration) :
    set_up_ssl net configuration = .raised := by
  unfold set_up_ssl
  unfold Configured at h
  cases hcallback : configuration.ssl_verify_callback with
  | some callback =>
    split
    · split <;> rfl
    · rfl
  | none =>
    cases hpath : configuration.ssl_trust_certificate_path with
    | none => exact absurd ⟨by simp [hpath], hcallback⟩ h
    | some path =>
      have hfile : net.use_certificate_chain_file path = false := by
        rw [← Bool.not_eq_true]
        intro hfile
        apply h
        refine ⟨fun path' hpath' => ?_, hcallback⟩
        rw [hpath] at hpath'
        cases hpath'
        exact hfile
      simp [hfile]

/-- What is answered where the handshake failed. -/
theorem served_of_handshakeFailed (h : HandshakeFailed net configuration request) (w : Exchange) :
    served net configuration request w = w.completion_block (aborted net) :=
  if_pos h

/-- What is answered where the request was sent. -/
theorem served_of_not_handshakeFailed (h : ¬ HandshakeFailed net configuration request)
    (w : Exchange) :
    served net configuration request w =
      ⟨w.sent ++ [http_request net configuration request],
        w.answers ++ [to_response (net.exchange (http_request net configuration request)).1]⟩ :=
  if_neg h

theorem core_method_ne_connect (method : HttpMethod) : core_method method ≠ .Connect := by
  cases method <;> decide

theorem signalsError_to_response (r : HTTPResponse) :
    SignalsError success (to_response r) ↔ ¬ success r.status := by
  simp [SignalsError, to_response]

/-- Where there is a connection and the request was sent. -/
theorem signalsError_iff_failed (hconnect : connect net configuration request = .ok ())
    (hhandshake : ¬ HandshakeFailed net configuration request)
    (hproxy : ¬ ProxyFailed net configuration request) :
    (SignalsError success
        (to_response (net.exchange (http_request net configuration request)).1) ↔
        Failed net configuration request success) ↔
      (success (net.exchange (http_request net configuration request)).1.status →
        (net.exchange (http_request net configuration request)).2 = 0 ∧
        ¬ ResolutionFailed net configuration request) := by
  have hconnection := not_connectionFailed hconnect
  rw [signalsError_to_response]
  unfold Failed RequestFailed
  tauto

/-- **What is answered once there is a connection**: the truth, except for a request
that should not have been sent or an error that is not looked at. -/
theorem served_truthful_iff (habort : net.operation_aborted ≠ 0)
    (hconnect : connect net configuration request = .ok ()) {w : Exchange} (hanswers : w.answers = [])
    (hsent : ∀ req ∈ w.sent, req.method = .Connect) :
    (∃ response, (served net configuration request w).answers = [response] ∧
      (SignalsError success response ↔ Failed net configuration request success) ∧
      (ProxyFailed net configuration request →
        ∀ req ∈ (served net configuration request w).sent, req.method = .Connect)) ↔
      (¬ HandshakeFailed net configuration request →
        ¬ ProxyFailed net configuration request ∧
        (success (net.exchange (http_request net configuration request)).1.status →
          (net.exchange (http_request net configuration request)).2 = 0 ∧
          ¬ ResolutionFailed net configuration request)) := by
  by_cases hhandshake : HandshakeFailed net configuration request
  · -- an error for a stage that failed, and nothing was sent after it
    refine iff_of_true ?_ fun h => absurd hhandshake h
    rw [served_of_handshakeFailed hhandshake]
    refine ⟨aborted net, ?_, ?_, fun _ => hsent⟩
    · simp [Exchange.completion_block, hanswers]
    · refine iff_of_true (.inl ⟨_, rfl, habort⟩) ?_
      exact .inr (.inr (.inr (.inl hhandshake)))
  · rw [served_of_not_handshakeFailed hhandshake]
    constructor
    · intro ⟨response, hresponse, htruth, hrequest⟩ _
      -- the request of the user is among what was sent
      have hproxy : ¬ ProxyFailed net configuration request := by
        intro hproxy
        apply core_method_ne_connect request.method
        exact hrequest hproxy (http_request net configuration request)
          (List.mem_append_right _ List.mem_cons_self)
      simp only [hanswers, List.nil_append, List.cons.injEq, and_true] at hresponse
      subst hresponse
      exact ⟨hproxy, (signalsError_iff_failed hconnect hhandshake hproxy).mp htruth⟩
    · intro h
      obtain ⟨hproxy, hrequest⟩ := h hhandshake
      refine ⟨to_response (net.exchange (http_request net configuration request)).1, ?_, ?_, ?_⟩
      · simp [hanswers]
      · exact (signalsError_iff_failed hconnect hhandshake hproxy).mpr hrequest
      · exact fun h => absurd h hproxy

/-- With enough fuel, the function comes to one outcome, and no other. -/
theorem returns_iff {k : Nat} {x : Outcome Exchange}
    (h : ∀ n, send_request_to_server net configuration request (n + k) = x) (w : Exchange) :
    (∃ n, send_request_to_server net configuration request n = .returned w) ↔ x = .returned w :=
  Outcome.returns_iff send_request_to_server_le h w

/-- Without a connection, the function returns at once. -/
theorem send_request_unconnected {response : Response}
    (hconnect : connect net configuration request = .error response) (n : Nat) :
    send_request_to_server net configuration request (n + 0) =
      .returned (Exchange.completion_block {} response) := by
  unfold send_request_to_server
  rw [hconnect]

/-- With one, it sees to the proxy, to TLS and then to the request. -/
theorem send_request_connected (hconnect : connect net configuration request = .ok ()) (n : Nat) :
    send_request_to_server net configuration request n = (do
      let (service, w) ← connect_proxy net configuration request n (⟨[], false⟩, {})
      set_up_ssl net configuration
      let (_, w) ← Service.run (Handler.call net configuration request) n (service.post .start, w)
      pure w) := by
  unfold send_request_to_server
  rw [hconnect]

theorem send_request_served (hconnect : connect net configuration request = .ok ())
    (hproxy : Proxied net configuration request) (hssl : Configured net configuration) :
    ∃ w : Exchange, w.answers = [] ∧ (∀ req ∈ w.sent, req.method = .Connect) ∧
      ∀ n, send_request_to_server net configuration request (n + 4) =
        .returned (served net configuration request w) := by
  obtain ⟨w, hanswers, hsent, hrun⟩ := connect_proxy_returned hproxy
  refine ⟨w, hanswers, hsent, fun n => ?_⟩
  rw [send_request_connected hconnect, hrun (n + 2), set_up_ssl_returned hssl]
  show (Service.run _ (n + 4) (⟨[Handler.start], false⟩, w) >>= _) = _
  rw [run_start]
  rfl

/-- TLS cannot be set up: an exception, or worse. -/
theorem send_request_raised (hconnect : connect net configuration request = .ok ())
    (hproxy : Proxied net configuration request) (hssl : ¬ Configured net configuration) (n : Nat) :
    send_request_to_server net configuration request (n + 2) = .raised := by
  obtain ⟨w, -, -, hrun⟩ := connect_proxy_returned hproxy
  rw [send_request_connected hconnect, hrun, set_up_ssl_raised hssl]
  rfl

/-- The proxy is waited for. -/
theorem send_request_pending (hconnect : connect net configuration request = .ok ())
    (hproxy : ¬ Proxied net configuration request) (n : Nat) :
    send_request_to_server net configuration request (n + 0) = .pending := by
  unfold Proxied at hproxy
  simp only [not_forall] at hproxy
  obtain ⟨proxy, hsome, hrefused⟩ := hproxy
  rw [send_request_connected hconnect, connect_proxy_refused hsome hrefused]
  rfl

/-- **A request gets one truthful answer exactly if its stages go as expected.** -/
theorem truthful_iff (net : Network) (configuration : Configuration) (request : Request)
    (success : Int → Prop) (habort : net.operation_aborted ≠ 0) :
    Truthful net configuration request success ↔ Expected net configuration request success := by
  unfold Truthful Expected
  cases hconnect : connect net configuration request with
  | error response =>
    -- every failed connection is answered with an error
    refine iff_of_true ?_ nofun
    obtain ⟨hsignals, hfailed⟩ : SignalsError success response ∧
      Failed net configuration request success := connect_error habort hconnect
    refine ⟨Exchange.completion_block {} response, ?_, response, rfl, ?_, nofun⟩
    · exact (returns_iff (send_request_unconnected hconnect) _).mpr rfl
    · exact iff_of_true hsignals hfailed
  | ok u =>
    simp only [forall_const]
    by_cases hproxy : Proxied net configuration request
    · by_cases hssl : Configured net configuration
      · obtain ⟨w, hanswers, hsent, hserved⟩ := send_request_served hconnect hproxy hssl
        rw [← served_truthful_iff habort hconnect hanswers hsent]
        constructor
        · intro ⟨w', hw', hanswer⟩
          rw [returns_iff hserved] at hw'
          cases hw'
          exact ⟨hproxy, hssl.1, hssl.2, hanswer⟩
        · intro ⟨_, _, _, hanswer⟩
          exact ⟨_, (returns_iff hserved _).mpr rfl, hanswer⟩
      · -- an exception is no answer
        refine iff_of_false ?_ fun h => hssl ⟨h.2.1, h.2.2.1⟩
        rintro ⟨w', hw', -⟩
        rw [returns_iff (send_request_raised hconnect hproxy hssl)] at hw'
        cases hw'
    · -- neither is waiting forever
      refine iff_of_false ?_ fun h => hproxy h.1
      rintro ⟨w', hw', -⟩
      rw [returns_iff (send_request_pending hconnect hproxy)] at hw'
      cases hw'

end

/-! ## §8. A proxy, and its answers. -/

/-- A network that answers every request with `status` and `ec`. -/
def answering (status ec : Int) : Network where
  uri _ := ⟨"http:", "", "server", "", "/", ""⟩
  base64_encode s := s
  operation_aborted := 125
  make_address _ := ("127.0.0.1", 0, "")
  resolve _ _ := some ⟨"127.0.0.1", 80⟩
  connect _ := true
  use_certificate_chain_file _ := true
  handshake _ := 0
  exchange _ := (⟨status, [], none⟩, ec)

def behindProxy : Configuration := ⟨none, some ⟨"http://proxy", 8080, none⟩, true, none, none⟩

def getServer : Request := ⟨.get, "http://server/", [], ""⟩

theorem truthful_iff_answering : Truthful (answering 200 0) behindProxy getServer (· = 200) := by
  refine (truthful_iff (answering 200 0) behindProxy getServer (· = 200) (by decide)).mpr ?_
  intro _
  refine ⟨fun proxy _ => ⟨.inl rfl, rfl⟩, nofun, rfl, fun _ => ⟨?_, fun _ => ⟨rfl, ?_⟩⟩⟩
  · rintro ⟨proxy, -, hec | hstatus⟩
    · exact hec rfl
    · exact hstatus rfl
  · intro h
    cases h

/-- **A proxy that wants to be authenticated to**: the function does not return. -/
theorem refused_connect : ¬ Truthful (answering 407 0) behindProxy getServer (· = 200) := by
  intro ⟨w, ⟨n, hn⟩, _⟩
  have hrefused : ¬ Accepted (answering 407 0) ⟨407, [], none⟩ 0 :=
    fun h => absurd h.2 (by decide)
  have hproxy : connect_proxy (answering 407 0) behindProxy getServer n (⟨[], false⟩, {}) =
      .pending := connect_proxy_refused rfl hrefused n
  have hpending : send_request_to_server (answering 407 0) behindProxy getServer n = .pending := by
    unfold send_request_to_server
    rw [hproxy]
    rfl
  rw [hpending] at hn
  cases hn

end RealmCpp.Networking
