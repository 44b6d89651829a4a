import BusTester.Domain.BusMessage

/-!
# Connection configurations

A configuration has at least one server and either both credentials or none. As with `BusMessage`
the guards of the constructors are fields of the structures, and each constructor of the source is
a function that throws where the source does. `int` ports are integers: the guard bounds them, so
the 32 bits do not matter.
-/

namespace BusTester

def hostRequired : BusException :=
  .argument (Utf16.ofString "Host is required.") (Utf16.ofString "Host")

def portOutOfRange : BusException :=
  .argument (Utf16.ofString "Port must be between 1 and 65535.") (Utf16.ofString "Port")

/-- `Port is <= 0 or > 65535`, negated. -/
def ValidPort (port : ℤ) : Prop := ¬(port ≤ 0 ∨ 65535 < port)

instance (port : ℤ) : Decidable (ValidPort port) := inferInstanceAs (Decidable ¬_)

/-- A broker endpoint. -/
@[ext]
structure BrokerServer where
  host : Utf16
  port : ℤ
  host_valid : Utf16.isNullOrWhiteSpace (some host) = false
  port_valid : ValidPort port

instance : DecidableEq BrokerServer := fun _ _ ↦ decidable_of_iff _ BrokerServer.ext_iff.symm

namespace BrokerServer

/-- The constructor of `BrokerServer`. -/
def create (host : Option Utf16) (port : ℤ) : Except BusException BrokerServer :=
  match host with
  | none => .error hostRequired
  | some host =>
    match hhost : Utf16.isNullOrWhiteSpace (some host) with
    | true => .error hostRequired
    | false =>
      if hport : ValidPort port then .ok ⟨host, port, hhost, hport⟩ else .error portOutOfRange

theorem create_eq_ok_iff {host : Option Utf16} {port : ℤ} {server : BrokerServer} :
    create host port = .ok server ↔ host = some server.host ∧ port = server.port := by
  constructor
  · intro h
    unfold create at h
    split at h
    · cases h
    · split at h
      · cases h
      · split_ifs at h
        cases h
        exact ⟨rfl, rfl⟩
  · rintro ⟨rfl, rfl⟩
    unfold create
    split
    · rename_i hnone
      cases hnone
    · rename_i host hhost
      cases hhost
      split
      · rename_i hblank
        rw [server.host_valid] at hblank
        cases hblank
      · exact dif_pos server.port_valid

theorem create_eq_error {host : Option Utf16} {port : ℤ} {exception : BusException}
    (h : create host port = .error exception) :
    ∃ message paramName, exception = .argument message paramName := by
  unfold create at h
  split at h
  · cases h
    exact ⟨_, _, rfl⟩
  · split at h
    · cases h
      exact ⟨_, _, rfl⟩
    · split_ifs at h
      cases h
      exact ⟨_, _, rfl⟩

theorem exists_create_iff {host : Option Utf16} {port : ℤ} :
    (∃ server, create host port = .ok server) ↔
      Utf16.isNullOrWhiteSpace host = false ∧ ValidPort port := by
  simp only [create_eq_ok_iff]
  constructor
  · rintro ⟨server, rfl, rfl⟩
    exact ⟨server.host_valid, server.port_valid⟩
  · rintro ⟨hhost, hport⟩
    cases host with
    | none => cases hhost
    | some host => exact ⟨⟨host, port, hhost, hport⟩, rfl, rfl⟩

end BrokerServer

/-- A connection configuration. -/
structure BusConnectionConfig where
  servers : List BrokerServer
  username : Option Utf16
  password : Option Utf16
  servers_ne_nil : servers ≠ []
  /-- Credentials are given together or not at all, and are not blank. -/
  credentials_valid :
    (username = none ∧ password = none) ∨
      (Utf16.isNullOrWhiteSpace username = false ∧ Utf16.isNullOrWhiteSpace password = false)
deriving DecidableEq

namespace BusConnectionConfig

/-! ## The constructors -/

def serverRequired : BusException :=
  .argument (Utf16.ofString "At least one server is required.") (Utf16.ofString "servers")

def nullServer : BusException :=
  .argument (Utf16.ofString "Server entries must not be null.") (Utf16.ofString "servers")

def bothOrNeither : BusException :=
  .argument (Utf16.ofString "Username and password must be provided together or not at all.") none

/-- The end of the first constructor: credentials that are blank count as not given. -/
def withCredentials (servers : List BrokerServer) (hne : servers ≠ [])
    (username password : Option Utf16) : Except BusException BusConnectionConfig :=
  match husername : Utf16.isNullOrWhiteSpace username,
    hpassword : Utf16.isNullOrWhiteSpace password with
  | true, true => .ok ⟨servers, none, none, hne, Or.inl ⟨rfl, rfl⟩⟩
  | false, false => .ok ⟨servers, username, password, hne, Or.inr ⟨husername, hpassword⟩⟩
  | _, _ => .error bothOrNeither

/-- The constructor that takes a list of servers. -/
def create (servers : Option (List (Option BrokerServer))) (username password : Option Utf16) :
    Except BusException BusConnectionConfig :=
  match servers with
  | none | some [] => .error serverRequired
  | some (server :: servers) =>
    match server, servers.mapM id with
    | some server, some servers =>
      withCredentials (server :: servers) (List.cons_ne_nil server servers) username password
    | _, _ => .error nullServer

/-- The guards of the legacy constructor name its own parameters. -/
def legacyHostRequired : BusException :=
  .argument (Utf16.ofString "Host is required.") (Utf16.ofString "host")

def legacyPortOutOfRange : BusException :=
  .argument (Utf16.ofString "Port must be between 1 and 65535.") (Utf16.ofString "port")

def usernameRequired : BusException :=
  .argument (Utf16.ofString "Username is required.") (Utf16.ofString "username")

def passwordRequired : BusException :=
  .argument (Utf16.ofString "Password is required.") (Utf16.ofString "password")

/-- The constructor that takes a single endpoint. -/
def createLegacy (host : Option Utf16) (port : ℤ) (username password : Option Utf16) :
    Except BusException BusConnectionConfig :=
  if Utf16.isNullOrWhiteSpace host then .error legacyHostRequired
  else if ¬ValidPort port then .error legacyPortOutOfRange
  else
    match husername : Utf16.isNullOrWhiteSpace username,
      hpassword : Utf16.isNullOrWhiteSpace password with
    | true, _ => .error usernameRequired
    | false, true => .error passwordRequired
    | false, false => do
      let server ← BrokerServer.create host port
      return ⟨[server], username, password, by simp, Or.inr ⟨husername, hpassword⟩⟩

theorem mapM_id_map_some {α : Type*} (l : List α) : (l.map some).mapM id = some l := by
  induction l with
  | nil => rfl
  | cons a l ih =>
    rw [List.map_cons, List.mapM_cons, ih]
    rfl

variable {servers : List BrokerServer} {host : Option Utf16} {port : ℤ}
  {username password : Option Utf16} {config : BusConnectionConfig} {exception : BusException}

theorem withCredentials_eq_error {hne : servers ≠ []}
    (h : withCredentials servers hne username password = .error exception) :
    ∃ message paramName, exception = .argument message paramName := by
  unfold withCredentials at h
  split at h <;> cases h
  exact ⟨_, _, rfl⟩

theorem create_eq_error {servers : Option (List (Option BrokerServer))}
    (h : create servers username password = .error exception) :
    ∃ message paramName, exception = .argument message paramName := by
  unfold create at h
  split at h
  · cases h
    exact ⟨_, _, rfl⟩
  · cases h
    exact ⟨_, _, rfl⟩
  · split at h
    · exact withCredentials_eq_error h
    · cases h
      exact ⟨_, _, rfl⟩

theorem createLegacy_eq_error (h : createLegacy host port username password = .error exception) :
    ∃ message paramName, exception = .argument message paramName := by
  unfold createLegacy at h
  split_ifs at h
  · cases h
    exact ⟨_, _, rfl⟩
  · split at h
    · cases h
      exact ⟨_, _, rfl⟩
    · cases h
      exact ⟨_, _, rfl⟩
    · cases hserver : BrokerServer.create host port with
      | error exception' =>
        rw [hserver] at h
        cases h
        exact BrokerServer.create_eq_error hserver
      | ok server =>
        rw [hserver] at h
        cases h
  · cases h
    exact ⟨_, _, rfl⟩

theorem create_map_some (hne : servers ≠ []) : create (some (servers.map some)) username password
    = withCredentials servers hne username password := by
  cases servers with
  | nil => exact absurd rfl hne
  | cons server servers => simp only [create, List.map_cons, mapM_id_map_some]

theorem servers_of_withCredentials {hne : servers ≠ []}
    (h : withCredentials servers hne username password = .ok config) :
    config.servers = servers := by
  unfold withCredentials at h
  split at h <;> cases h <;> rfl

theorem withCredentials_of_given {hne : servers ≠ []}
    (husername : Utf16.isNullOrWhiteSpace username = false)
    (hpassword : Utf16.isNullOrWhiteSpace password = false) :
    withCredentials servers hne username password
      = .ok ⟨servers, username, password, hne, Or.inr ⟨husername, hpassword⟩⟩ := by
  unfold withCredentials
  split
  · simp_all
  · rfl
  · simp_all

/-- **What the legacy constructor accepts**: an endpoint and two credentials. -/
theorem createLegacy_eq_ok_iff : createLegacy host port username password = .ok config ↔
    ∃ server, BrokerServer.create host port = .ok server ∧
      ∃ husername : Utf16.isNullOrWhiteSpace username = false,
      ∃ hpassword : Utf16.isNullOrWhiteSpace password = false,
        config = ⟨[server], username, password, List.cons_ne_nil server [],
          Or.inr ⟨husername, hpassword⟩⟩ := by
  constructor
  · intro h
    unfold createLegacy at h
    split_ifs at h
    split at h
    · cases h
    · cases h
    · rename_i husername hpassword
      cases hserver : BrokerServer.create host port with
      | error exception =>
        rw [hserver] at h
        cases h
      | ok server =>
        rw [hserver] at h
        cases h
        exact ⟨server, rfl, husername, hpassword, rfl⟩
  · rintro ⟨server, hserver, husername, hpassword, rfl⟩
    obtain ⟨hhost, hport⟩ := BrokerServer.exists_create_iff.mp ⟨server, hserver⟩
    rw [createLegacy, hhost, if_neg Bool.false_ne_true, if_neg (not_not.mpr hport), hserver]
    split
    · simp_all
    · simp_all
    · rfl

/-- `config.Servers[0]`. -/
def firstServer (config : BusConnectionConfig) : BrokerServer :=
  config.servers.head config.servers_ne_nil

/-- A broker on this machine at the default port, without credentials. -/
def localhost : BusConnectionConfig where
  servers := [⟨Utf16.ofString "localhost", 5672, by decide, by decide⟩]
  username := none
  password := none
  servers_ne_nil := by decide
  credentials_valid := by decide

end BusConnectionConfig

end BusTester
