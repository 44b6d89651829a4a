import BusTester.Api.ConnectionsController
import BusTester.Client.MessagesComponent
import Mathlib.Data.Rat.Defs

/-!
# The connect panel

The signals of `ConnectComponent`, its two requests with their callbacks, and what its template does
with them: which controls are disabled, and the badge. The number that the port field holds is kept
as its value; the field is `null` when it is empty.
-/

namespace BusTester

/-- The body that `connect` posts. -/
structure ConnectBody where
  host : Utf16
  port : Option ℚ
  username : Utf16
  password : Utf16
deriving DecidableEq

/-- The body as model binding reads it; a port that is no `int` is not bound. -/
def ConnectBody.bound (body : ConnectBody) : Option ConnectRequest :=
  match body.port with
  | none => some ⟨body.host, none, body.username, body.password, none⟩
  | some port =>
    if port.den = 1 ∧ -2147483648 ≤ port.num ∧ port.num ≤ 2147483647 then
      some ⟨body.host, port.num, body.username, body.password, none⟩
    else none

structure ConnectComponent where
  host : Utf16
  port : Option ℚ
  username : Utf16
  password : Utf16
  connected : Bool
  errorMessage : Option Utf16
  pending : Bool
deriving DecidableEq

namespace ConnectComponent

/-- The component as it is created. -/
def initial : ConnectComponent where
  host := Utf16.ofString "localhost"
  port := some 5672
  username := Utf16.ofString "guest"
  password := Utf16.ofString "guest"
  connected := false
  errorMessage := none
  pending := false

/-- What the user types into one of the fields. -/
inductive Edit where
  | host (value : Utf16)
  | port (value : Option ℚ)
  | username (value : Utf16)
  | password (value : Utf16)
deriving DecidableEq

def edit (c : ConnectComponent) : Edit → ConnectComponent
  | .host value => { c with host := value }
  | .port value => { c with port := value }
  | .username value => { c with username := value }
  | .password value => { c with password := value }

/-! ## The template -/

/-- `[disabled]` of the fields and of the button that connects. -/
def connectDisabled (c : ConnectComponent) : Bool := c.connected || c.pending

/-- `[disabled]` of the button that disconnects. -/
def disconnectDisabled (c : ConnectComponent) : Bool := !c.connected || c.pending

def connectingBadge : Utf16 := Utf16.ofString "Conectando…"

def disconnectingBadge : Utf16 := Utf16.ofString "Desconectando…"

def connectedBadge : Utf16 := Utf16.ofString "Conectado (último conocido)"

/-- The text of the badge `broker-status`, if it is shown. -/
def brokerStatus (c : ConnectComponent) : Option Utf16 :=
  if c.pending then some (if c.connected then disconnectingBadge else connectingBadge)
  else if c.connected then some connectedBadge
  else none

/-! ## The methods -/

def body (c : ConnectComponent) : ConnectBody := ⟨c.host, c.port, c.username, c.password⟩

/-- `connect`, up to the request. -/
def connect (c : ConnectComponent) : ConnectComponent :=
  { c with errorMessage := none, pending := true }

def onConnected (c : ConnectComponent) : ConnectComponent :=
  { c with connected := true, pending := false }

/-- The error callback of `connect`, with the detail of the problem that it was given. -/
def onConnectFailed (c : ConnectComponent) (detail : Option Utf16) : ConnectComponent :=
  { c with
    connected := false
    errorMessage := some (MessagesComponent.errorDetail detail
      (Utf16.ofString "No se pudo conectar con el broker."))
    pending := false }

/-- `disconnect`, up to the request. -/
def disconnect (c : ConnectComponent) : ConnectComponent := { c with pending := true }

/-- Both callbacks of `disconnect`. -/
def onDisconnected (c : ConnectComponent) : ConnectComponent :=
  { c with connected := false, pending := false }

variable {c : ConnectComponent}

/-! ## What the badge says -/

theorem brokerStatus_eq_none :
    c.brokerStatus = none ↔ c.pending = false ∧ c.connected = false := by
  unfold brokerStatus
  cases c.pending <;> cases c.connected <;> simp

theorem brokerStatus_eq_connectedBadge :
    c.brokerStatus = some connectedBadge ↔ c.pending = false ∧ c.connected = true := by
  have hconnecting : connectingBadge ≠ connectedBadge := by decide
  have hdisconnecting : disconnectingBadge ≠ connectedBadge := by decide
  unfold brokerStatus
  cases c.pending <;> cases c.connected <;> simp [hconnecting, hdisconnecting]

end ConnectComponent

end BusTester
