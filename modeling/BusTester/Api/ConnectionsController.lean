import BusTester.Domain.BusConnectionConfig

/-!
# The connections endpoint

`ConnectionsController.BuildConfig` makes a configuration of a request in one of two shapes, a list
of servers or a single endpoint, and `BusExceptionHandler` turns the exceptions of the bus into
responses. A list of servers goes through the constructor of `BrokerServer` element by element
before the configuration looks at it, so what is wrong with the first bad element is what the
client hears of; where that element is `null`, it is no client error at all.
-/

namespace BusTester

/-! ## Exceptions as responses -/

/-- `Exception.Message`, as far as the code says what it is: an `ArgumentException` appends the name
of its parameter. -/
def BusException.message : BusException → Utf16
  | argument message none => message
  | argument message (some paramName) =>
    message ++ Utf16.ofString " (Parameter '" ++ paramName ++ Utf16.ofString "')"
  | busConnection message | busPublish message | busSubscription message
  | requestReplyNotSupported message => message
  | operationCanceled | nullReference | other => []

structure ProblemDetails where
  status : ℕ
  title : Utf16
  detail : Utf16
deriving DecidableEq

/-- `TryHandleAsync`: the response that is written, or none where the exception is not handled. -/
def BusExceptionHandler.tryHandle (exception : BusException) : Option ProblemDetails :=
  match exception with
  | .busConnection _ =>
    some ⟨503, Utf16.ofString "Broker connection failed", exception.message⟩
  | .requestReplyNotSupported _ =>
    some ⟨409, Utf16.ofString "Request-reply not supported by the connected broker",
      exception.message⟩
  | .busPublish _ => some ⟨400, Utf16.ofString "Message could not be published", exception.message⟩
  | .busSubscription _ =>
    some ⟨400, Utf16.ofString "Subscription could not be started", exception.message⟩
  | .argument _ _ => some ⟨400, Utf16.ofString "Invalid request", exception.message⟩
  | .operationCanceled | .nullReference | .other => none

/-! ## The request -/

/-- `ConnectServer`, as it is bound: nothing keeps the host from being `null`. -/
structure ConnectServer where
  host : Option Utf16
  port : ℤ
deriving DecidableEq

/-- `ConnectRequest`, as it is bound. -/
structure ConnectRequest where
  host : Option Utf16
  port : Option ℤ
  username : Option Utf16
  password : Option Utf16
  servers : Option (List (Option ConnectServer))
deriving DecidableEq

namespace ConnectionsController

/-- `new BrokerServer(server.Host, server.Port)` for an element of the list. -/
def brokerServer : Option ConnectServer → Except BusException BrokerServer
  | none => .error .nullReference
  | some server => BrokerServer.create server.host server.port

/-- `BuildConfig`. -/
def buildConfig (request : ConnectRequest) : Except BusException BusConnectionConfig :=
  match request.servers with
  | some (server :: servers) => do
    let endpoints ← (server :: servers).mapM brokerServer
    BusConnectionConfig.create (some (endpoints.map some)) request.username request.password
  | _ =>
    BusConnectionConfig.createLegacy request.host (request.port.getD 0) request.username
      request.password

/-- The endpoints that the request asks for, in its order. -/
def requested (request : ConnectRequest) : List (Option Utf16 × ℤ) :=
  match request.servers with
  | some (server :: servers) =>
    (server :: servers).map fun server ↦ (server.bind ConnectServer.host,
      (server.map ConnectServer.port).getD 0)
  | _ => [(request.host, request.port.getD 0)]

/-- The element is an endpoint: not `null`, with a host and a port in range. -/
def IsEndpoint (server : Option ConnectServer) : Prop :=
  ∃ s ∈ server, Utf16.isNullOrWhiteSpace s.host = false ∧ ValidPort s.port

instance : DecidablePred IsEndpoint := fun server ↦ Option.decidableExistsMem server

/-- The first element that is no endpoint is not `null`. -/
def NoNullFirst (request : ConnectRequest) : Prop :=
  (request.servers.getD []).find? (fun server ↦ ¬IsEndpoint server) ≠ some none

instance : DecidablePred NoNullFirst := fun _ ↦ inferInstanceAs (Decidable (_ ≠ _))

/-- The request is answered as a client error, or gives a valid configuration with what was asked
for. -/
def ClientErrorOrValid (request : ConnectRequest) : Prop :=
  match buildConfig request with
  | .error exception => (∃ message paramName, exception = .argument message paramName) ∧
      (BusExceptionHandler.tryHandle exception).map ProblemDetails.status = some 400
  | .ok config => config.servers ≠ [] ∧
      (∀ server ∈ config.servers, Utf16.isNullOrWhiteSpace (some server.host) = false ∧
        1 ≤ server.port ∧ server.port ≤ 65535) ∧
      config.servers.map (fun server ↦ (some server.host, server.port)) = requested request ∧
      ((config.username = none ∧ config.password = none) ∨
        (Utf16.isNullOrWhiteSpace config.username = false ∧
          Utf16.isNullOrWhiteSpace config.password = false))

variable {request : ConnectRequest}

/-! ## The list of servers -/

theorem exists_brokerServer_iff {server : Option ConnectServer} :
    (∃ endpoint, brokerServer server = .ok endpoint) ↔ IsEndpoint server := by
  cases server with
  | none => exact iff_of_false nofun nofun
  | some server => exact BrokerServer.exists_create_iff.trans (by simp [IsEndpoint])

theorem mapM_brokerServer_eq_ok {servers : List (Option ConnectServer)}
    {endpoints : List BrokerServer} (h : servers.mapM brokerServer = .ok endpoints) :
    (∀ server ∈ servers, IsEndpoint server) ∧
      endpoints.map (fun endpoint ↦ (some endpoint.host, endpoint.port))
        = servers.map fun server ↦ (server.bind ConnectServer.host,
          (server.map ConnectServer.port).getD 0) := by
  induction servers generalizing endpoints with
  | nil =>
    cases h
    exact ⟨fun server hserver ↦ absurd hserver List.not_mem_nil, rfl⟩
  | cons server servers ih =>
    rw [List.mapM_cons] at h
    cases hserver : brokerServer server with
    | error exception =>
      rw [hserver] at h
      cases h
    | ok endpoint =>
      cases hrest : servers.mapM brokerServer with
      | error exception =>
        rw [hserver, hrest] at h
        cases h
      | ok rest =>
        rw [hserver, hrest] at h
        cases h
        obtain ⟨hall, hmap⟩ := ih hrest
        refine ⟨List.forall_mem_cons.mpr ⟨exists_brokerServer_iff.mp ⟨_, hserver⟩, hall⟩, ?_⟩
        rw [List.map_cons, List.map_cons, hmap]
        cases server with
        | none => cases hserver
        | some server =>
          obtain ⟨hhost, hport⟩ := BrokerServer.create_eq_ok_iff.mp hserver
          simp [hhost, hport]

/-- The first element that is no endpoint decides which exception is thrown. -/
theorem mapM_brokerServer_eq_error {servers : List (Option ConnectServer)}
    {exception : BusException} (h : servers.mapM brokerServer = .error exception) :
    ∃ bad, servers.find? (fun server ↦ ¬IsEndpoint server) = some bad ∧
      brokerServer bad = .error exception := by
  induction servers with
  | nil => cases h
  | cons server servers ih =>
    rw [List.mapM_cons] at h
    cases hserver : brokerServer server with
    | error exception' =>
      rw [hserver] at h
      cases h
      have hbad : ¬IsEndpoint server := by
        rw [← exists_brokerServer_iff, hserver]
        exact nofun
      exact ⟨server, by simp [hbad], hserver⟩
    | ok endpoint =>
      have hgood : IsEndpoint server := exists_brokerServer_iff.mp ⟨endpoint, hserver⟩
      cases hrest : servers.mapM brokerServer with
      | error exception' =>
        rw [hserver, hrest] at h
        cases h
        obtain ⟨bad, hbad, hthrows⟩ := ih hrest
        exact ⟨bad, by simpa [hgood] using hbad, hthrows⟩
      | ok rest =>
        rw [hserver, hrest] at h
        cases h

/-! ## Configurations and client errors -/

theorem buildConfig_of_servers (request : ConnectRequest) {server : Option ConnectServer}
    {servers : List (Option ConnectServer)} (h : request.servers = some (server :: servers)) :
    buildConfig request = (server :: servers).mapM brokerServer >>= fun endpoints ↦
      BusConnectionConfig.create (some (endpoints.map some)) request.username request.password := by
  rw [buildConfig, h]

theorem buildConfig_of_legacy (h : request.servers.getD [] = []) :
    buildConfig request = BusConnectionConfig.createLegacy request.host (request.port.getD 0)
        request.username request.password ∧
      requested request = [(request.host, request.port.getD 0)] := by
  obtain ⟨host, port, username, password, servers⟩ := request
  match servers with
  | none | some [] => exact ⟨rfl, rfl⟩
  | some (server :: servers) => cases h

theorem shape_cases (request : ConnectRequest) : request.servers.getD [] = [] ∨
    ∃ server servers, request.servers = some (server :: servers) := by
  match request.servers with
  | none | some [] => exact Or.inl rfl
  | some (server :: servers) => exact Or.inr ⟨server, servers, rfl⟩

theorem noNullFirst_of_legacy (h : request.servers.getD [] = []) : NoNullFirst request := by
  rw [NoNullFirst, h]
  exact nofun

theorem noNullFirst_of_mapM {servers : List (Option ConnectServer)}
    {endpoints : List BrokerServer} (hservers : request.servers = some servers)
    (h : servers.mapM brokerServer = .ok endpoints) : NoNullFirst request := by
  have hnone : servers.find? (fun server ↦ ¬IsEndpoint server) = none :=
    List.find?_eq_none.mpr fun s hs ↦ by simpa using (mapM_brokerServer_eq_ok h).1 s hs
  rw [NoNullFirst, hservers, Option.getD_some, hnone]
  exact nofun

theorem servers_of_buildConfig {config : BusConnectionConfig}
    (h : buildConfig request = .ok config) :
    config.servers.map (fun server ↦ (some server.host, server.port)) = requested request ∧
      NoNullFirst request := by
  rcases shape_cases request with hlegacy | ⟨server, servers, hservers⟩
  · obtain ⟨hbuild, hrequested⟩ := buildConfig_of_legacy hlegacy
    rw [hbuild] at h
    obtain ⟨server, hserver, -, -, rfl⟩ := BusConnectionConfig.createLegacy_eq_ok_iff.mp h
    obtain ⟨hhost, hport⟩ := BrokerServer.create_eq_ok_iff.mp hserver
    refine ⟨?_, noNullFirst_of_legacy hlegacy⟩
    rw [hrequested, hhost, hport]
    rfl
  · rw [buildConfig_of_servers request hservers] at h
    cases hmap : (server :: servers).mapM brokerServer with
    | error exception =>
      rw [hmap] at h
      cases h
    | ok endpoints =>
      have hendpoints := (mapM_brokerServer_eq_ok hmap).2
      have hne : endpoints ≠ [] := by
        rintro rfl
        cases hendpoints
      rw [hmap] at h
      have hconfig := (BusConnectionConfig.create_map_some hne).symm.trans h
      refine ⟨?_, noNullFirst_of_mapM hservers hmap⟩
      rw [BusConnectionConfig.servers_of_withCredentials hconfig, hendpoints, requested, hservers]

/-- **What `BuildConfig` throws**: a null reference when the first element that is no endpoint is
`null`, and an argument error otherwise. -/
theorem exception_of_buildConfig {exception : BusException}
    (h : buildConfig request = .error exception) :
    if NoNullFirst request then ∃ message paramName, exception = .argument message paramName
    else exception = .nullReference := by
  rcases shape_cases request with hlegacy | ⟨server, servers, hservers⟩
  · rw [(buildConfig_of_legacy hlegacy).1] at h
    rw [if_pos (noNullFirst_of_legacy hlegacy)]
    exact BusConnectionConfig.createLegacy_eq_error h
  · rw [buildConfig_of_servers request hservers] at h
    cases hmap : (server :: servers).mapM brokerServer with
    | ok endpoints =>
      rw [if_pos (noNullFirst_of_mapM hservers hmap)]
      rw [hmap] at h
      exact BusConnectionConfig.create_eq_error h
    | error exception' =>
      rw [hmap] at h
      cases h
      obtain ⟨bad, hbad, hthrows⟩ := mapM_brokerServer_eq_error hmap
      cases bad with
      | none =>
        rw [if_neg (by rw [NoNullFirst, hservers, Option.getD_some, hbad]; exact fun h ↦ h rfl)]
        cases hthrows
        rfl
      | some server =>
        rw [if_pos (by rw [NoNullFirst, hservers, Option.getD_some, hbad]; exact nofun)]
        exact BrokerServer.create_eq_error hthrows

/-- **A request is answered as it should be unless it makes `BuildConfig` meet a `null` server.** -/
theorem clientErrorOrValid_iff (request : ConnectRequest) :
    ClientErrorOrValid request ↔ NoNullFirst request := by
  rw [ClientErrorOrValid]
  cases hbuild : buildConfig request with
  | ok config =>
    obtain ⟨hservers, hfirst⟩ := servers_of_buildConfig hbuild
    refine iff_of_true ⟨config.servers_ne_nil, fun server _ ↦ ?_, hservers,
      config.credentials_valid⟩ hfirst
    have hport := server.port_valid
    rw [ValidPort] at hport
    exact ⟨server.host_valid, by omega, by omega⟩
  | error exception =>
    have hexception := exception_of_buildConfig hbuild
    by_cases hfirst : NoNullFirst request
    · rw [if_pos hfirst] at hexception
      obtain ⟨message, paramName, rfl⟩ := hexception
      exact iff_of_true ⟨⟨message, paramName, rfl⟩, rfl⟩ hfirst
    · rw [if_neg hfirst] at hexception
      subst hexception
      exact iff_of_false (by rintro ⟨⟨_, _, h⟩, -⟩; cases h) hfirst

/-! ## The two shapes of a body -/

/-- **The shapes agree**: a legacy body gives a configuration exactly if its credentials are not
blank and the list with its one endpoint gives the same. -/
theorem buildConfig_legacy_iff {config : BusConnectionConfig}
    (h : request.servers.getD [] = []) : buildConfig request = .ok config ↔
      Utf16.isNullOrWhiteSpace request.username = false ∧
      Utf16.isNullOrWhiteSpace request.password = false ∧
      buildConfig { request with
        servers := some [some ⟨request.host, request.port.getD 0⟩] } = .ok config := by
  rw [(buildConfig_of_legacy h).1, BusConnectionConfig.createLegacy_eq_ok_iff,
    buildConfig_of_servers { request with
      servers := some [some ⟨request.host, request.port.getD 0⟩] } rfl]
  have hone : [some (ConnectServer.mk request.host (request.port.getD 0))].mapM brokerServer
      = (BrokerServer.create request.host (request.port.getD 0)).map fun server ↦ [server] := by
    rw [List.mapM_cons, brokerServer]
    cases BrokerServer.create request.host (request.port.getD 0) <;> rfl
  rw [hone]
  constructor
  · rintro ⟨server, hserver, husername, hpassword, rfl⟩
    refine ⟨husername, hpassword, ?_⟩
    rw [hserver]
    exact (BusConnectionConfig.create_map_some (List.cons_ne_nil server [])).trans
      (BusConnectionConfig.withCredentials_of_given husername hpassword)
  · rintro ⟨husername, hpassword, hbuild⟩
    cases hserver : BrokerServer.create request.host (request.port.getD 0) with
    | error exception =>
      rw [hserver] at hbuild
      cases hbuild
    | ok server =>
      rw [hserver] at hbuild
      have hconfig := (BusConnectionConfig.create_map_some (List.cons_ne_nil server [])).symm.trans
        hbuild
      rw [BusConnectionConfig.withCredentials_of_given husername hpassword] at hconfig
      cases hconfig
      exact ⟨server, rfl, husername, hpassword, rfl⟩

/-- **Connect requests.** A request is answered with a valid configuration or a client error exactly
if the first element of its list that is no endpoint is not `null`; and the two shapes of a body
agree. -/
theorem connect_requests (request : ConnectRequest) :
    (ClientErrorOrValid request ↔ NoNullFirst request) ∧
    (request.servers.getD [] = [] → ∀ config, buildConfig request = .ok config ↔
      Utf16.isNullOrWhiteSpace request.username = false ∧
      Utf16.isNullOrWhiteSpace request.password = false ∧
      buildConfig { request with
        servers := some [some ⟨request.host, request.port.getD 0⟩] } = .ok config) :=
  ⟨clientErrorOrValid_iff request, fun h _ ↦ buildConfig_legacy_iff h⟩

/-- A list with a `null` in it: the exception that escapes is not handled. -/
theorem not_clientErrorOrValid_of_null : ∃ request : ConnectRequest,
    request.servers = some [none] ∧ buildConfig request = .error .nullReference ∧
      BusExceptionHandler.tryHandle .nullReference = none ∧ ¬ClientErrorOrValid request :=
  ⟨⟨none, none, none, none, some [none]⟩, rfl, rfl, rfl, fun h ↦
    (clientErrorOrValid_iff _).mp h (by decide)⟩

end ConnectionsController

end BusTester
